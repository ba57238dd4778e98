import Mathlib.Data.Int.Notation
import Mathlib.Data.Nat.Notation
import Mathlib.Tactic.Common
/-!
# An error accumulator

A difference `d` is added round by round, and a step is taken when the sum
is over the distance `D`, which is then taken off. The sum starts at zero
and the comparison is strict, so the first round never steps; behind `t`
rounds `(t * d - 1) / D` steps are taken, and the sum is what is left.
-/

namespace WeatherTerminal

namespace Accumulator

/-- The steps taken in `t` rounds, one less being added to than there are. -/
def steps (d D t : ℕ) : ℕ := (t * d - 1) / D

/-- The sum behind them: what has been added, less what the steps have taken
off. -/
def err (d D t : ℕ) : ℕ := t * d - D * steps d D t

variable {d D t : ℕ}

@[simp] theorem steps_zero_left : steps 0 D t = 0 := by
  rw [steps, Nat.mul_zero]
  exact Nat.zero_div D

@[simp] theorem steps_zero : steps d D 0 = 0 := by
  rw [steps, Nat.zero_mul]
  exact Nat.zero_div D

@[simp] theorem err_zero : err d D 0 = 0 := by
  rw [err, Nat.zero_mul, Nat.zero_sub]

@[simp] theorem err_zero_left : err 0 D t = 0 := by
  rw [err, Nat.mul_zero, Nat.zero_sub]

/-- What is added is the steps, each the distance, and the sum. -/
theorem steps_add_err : D * steps d D t + err d D t = t * d := by
  have := Nat.mul_div_le (t * d - 1) D
  unfold err steps
  omega

/-- The sum is never over the distance behind a round. -/
theorem err_le (hd : d ≤ D) : err d D t ≤ D := by
  rcases Nat.eq_zero_or_pos D with rfl | hD
  · obtain rfl : d = 0 := by omega
    exact Nat.le_of_eq err_zero_left
  · have := Nat.div_add_mod (t * d - 1) D
    have := Nat.mod_lt (t * d - 1) hD
    unfold err steps
    omega

/-- A sum over the distance by no more than the distance is one step. -/
theorem steps_eq {q e : ℕ} (hD : 0 < D) (hsum : D * q + e = t * d) (he : e ≤ D)
    (hpos : 0 < e ∨ q = 0) : steps d D t = q ∧ err d D t = e := by
  have hsteps : steps d D t = q := by
    rcases Nat.eq_zero_or_pos e with rfl | hlt
    · obtain rfl : q = 0 := by omega
      rw [steps, ← hsum, Nat.mul_zero]
      exact Nat.zero_div D
    · have hpred : t * d - 1 = D * q + (e - 1) := by omega
      rw [steps, hpred, Nat.mul_add_div hD, Nat.div_eq_of_lt (by omega), Nat.add_zero]
  refine ⟨hsteps, ?_⟩
  rw [err, hsteps]
  omega

/-- **A round of the accumulator**: a step where the sum is over the distance,
and none else. -/
theorem round (hd : d ≤ D) :
    (D < err d D t + d → steps d D (t + 1) = steps d D t + 1 ∧
      err d D (t + 1) + D = err d D t + d) ∧
    (err d D t + d ≤ D → steps d D (t + 1) = steps d D t ∧ err d D (t + 1) = err d D t + d) := by
  have hsum := steps_add_err (d := d) (D := D) (t := t)
  have hle := err_le (t := t) hd
  have hnext : (t + 1) * d = t * d + d := Nat.succ_mul t d
  constructor
  · intro hover
    have hmul : D * (steps d D t + 1) = D * steps d D t + D := Nat.mul_succ _ _
    obtain ⟨hsteps, herr⟩ := steps_eq (d := d) (D := D) (t := t + 1) (q := steps d D t + 1)
      (e := err d D t + d - D) (by omega) (by omega) (by omega) (Or.inl (by omega))
    exact ⟨hsteps, by omega⟩
  · intro hunder
    rcases Nat.eq_zero_or_pos d with rfl | hpos
    · rw [steps_zero_left, steps_zero_left, err_zero_left, err_zero_left]
      exact ⟨rfl, rfl⟩
    · exact steps_eq (by omega) (by omega) hunder (Or.inl (by omega))

theorem steps_le_succ (hd : d ≤ D) :
    steps d D t ≤ steps d D (t + 1) ∧ steps d D (t + 1) ≤ steps d D t + 1 := by
  obtain ⟨hover, hunder⟩ := round (t := t) hd
  rcases Nat.lt_or_ge D (err d D t + d) with hlt | hge
  · have := (hover hlt).1
    omega
  · have := (hunder hge).1
    omega

theorem steps_one (hd : d ≤ D) : steps d D 1 = 0 := by
  obtain ⟨-, hunder⟩ := round (t := 0) hd
  have := (hunder (by rw [err_zero]; omega)).1
  rwa [steps_zero] at this

/-- **As many rounds as the distance and one more take the difference.** -/
theorem steps_last (hd : d ≤ D) : steps d D (D + 1) = d := by
  rcases Nat.eq_zero_or_pos d with rfl | hpos
  · exact steps_zero_left
  · exact (steps_eq (by omega) (Nat.succ_mul D d).symm hd (Or.inl hpos)).1

/-- On the longer axis every round but the first steps. -/
theorem steps_longer (hD : 0 < D) : steps D D (t + 1) = t := by
  refine (steps_eq hD ?_ (Nat.le_refl D) (Or.inl hD)).1
  rw [Nat.succ_mul, Nat.mul_comm]

/-- Never past the difference, in as many rounds as the distance and one. -/
theorem steps_le (hd : d ≤ D) (ht : t ≤ D + 1) : steps d D t ≤ d := by
  have hmono : ∀ j, steps d D t ≤ steps d D (t + j) := by
    intro j
    induction j with
    | zero => exact Nat.le_refl _
    | succ j ih => exact Nat.le_trans ih (steps_le_succ hd).1
  have := hmono (D + 1 - t)
  rwa [Nat.add_sub_cancel' ht, steps_last hd] at this

/-- **The steps keep within one of the slope** of the difference over the
distance. -/
theorem steps_slope (hd : d ≤ D) :
    D * steps d D (t + 1) ≤ t * d + D ∧ t * d ≤ D * steps d D (t + 1) + D := by
  have hsum := steps_add_err (d := d) (D := D) (t := t + 1)
  have hle := err_le (t := t + 1) hd
  rw [Nat.succ_mul] at hsum
  omega

end Accumulator

end WeatherTerminal
