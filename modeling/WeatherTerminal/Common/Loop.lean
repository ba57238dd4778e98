import Mathlib.Data.Nat.Notation
/-!
# Loops

A loop of the source runs its test and its body until the test fails. It
is run here with fuel, so that a loop that never ends is one no fuel is
enough for. Its result is read off a trace: a state for every round, each
reached from the one before, the last of which fails the test.
-/

namespace WeatherTerminal

variable {σ : Type}

/-- A `while` with at most so many tests, `none` where it would go on. -/
def loop (test : σ → Bool) (body : σ → Option σ) : ℕ → σ → Option σ
  | 0, _ => none
  | fuel + 1, s => if test s then (body s).bind (loop test body fuel) else some s

/-- One round of the loop goes from each state of the trace to the next. -/
def Rounds (test : σ → Bool) (body : σ → Option σ) (trace : ℕ → σ) (n : ℕ) : Prop :=
  ∀ k < n, test (trace k) = true ∧ body (trace k) = some (trace (k + 1))

/-- **A loop ends in the first state of its trace that fails the test.** -/
theorem loop_eq_some (test : σ → Bool) (body : σ → Option σ) (trace : ℕ → σ) {n fuel : ℕ}
    (hfuel : n < fuel) (hrounds : Rounds test body trace n) (hend : test (trace n) = false) :
    loop test body fuel (trace 0) = some (trace n) := by
  have hfrom : ∀ fuel j, j ≤ n → n < fuel + j →
      loop test body fuel (trace j) = some (trace n) := by
    intro fuel
    induction fuel with
    | zero => intro j hj hfuel; omega
    | succ fuel ih =>
        intro j hj hfuel
        rcases Nat.eq_or_lt_of_le hj with rfl | hlt
        · rw [loop, hend]
          rfl
        · obtain ⟨htest, hbody⟩ := hrounds j hlt
          rw [loop, htest, if_pos rfl, hbody]
          exact ih (j + 1) hlt (by omega)
  exact hfrom fuel 0 (Nat.zero_le n) hfuel

/-- More fuel changes nothing for a loop that has ended. -/
theorem loop_mono {test : σ → Bool} {body : σ → Option σ} {fuel fuel' : ℕ} {s t : σ}
    (h : loop test body fuel s = some t) (hle : fuel ≤ fuel') :
    loop test body fuel' s = some t := by
  induction fuel generalizing fuel' s with
  | zero => cases h
  | succ fuel ih =>
      obtain ⟨fuel', rfl⟩ : ∃ k, fuel' = k + 1 := ⟨fuel' - 1, by omega⟩
      rw [loop] at h ⊢
      by_cases htest : test s = true
      · rw [if_pos htest] at h ⊢
        obtain ⟨s', hbody, hloop⟩ := Option.bind_eq_some_iff.mp h
        rw [hbody]
        exact ih hloop (by omega)
      · rw [if_neg htest] at h ⊢
        exact h

end WeatherTerminal
