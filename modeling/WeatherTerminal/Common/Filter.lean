import Mathlib.Data.List.Basic
/-!
# Filters with wildcards

A filter is a list of levels, two of which stand for others: `any` for one
level, `rest`, at the end, for what is left. Which levels a wildcard takes
is a parameter, so that a matcher that takes less than it might is one too
(`takes_mono`).
-/

namespace WeatherTerminal

namespace Filter

variable {α : Type*} [DecidableEq α] (any rest : α)

/-- The levels `ns` are taken by a filter whose `any` takes the levels that
are `one`, and whose `rest` takes what is `many`. -/
def takes (one : α → Bool) (many : List α → Bool) : List α → List α → Bool
  | [], ns => ns.isEmpty
  | f :: fs, ns =>
      if f = rest then fs.isEmpty && many ns
      else match ns with
        | [] => false
        | n :: ns => (if f = any then one n else decide (f = n)) && takes one many fs ns

/-- The filter as it is meant: `any` takes every level, and `rest` whatever
is left, if only nothing. -/
abbrev standard : List α → List α → Bool := takes any rest (fun _ => true) (fun _ => true)

variable {any rest} {one one' : α → Bool} {many many' : List α → Bool} {fs ns : List α}

/-- The wildcard for the rest takes all that is left, where it stands last. -/
theorem takes_rest (f : α) (fs ns : List α) (h : f = rest) :
    takes any rest one many (f :: fs) ns = (fs.isEmpty && many ns) := by
  rw [takes.eq_def]
  exact if_pos h

/-- No other part of a filter takes a name that has ended. -/
theorem takes_nil (f : α) (fs : List α) (h : f ≠ rest) :
    takes any rest one many (f :: fs) [] = false := by
  rw [takes.eq_def]
  exact if_neg h

/-- A part of a filter takes the part of the name at its place, and the others
go on. -/
theorem takes_cons (f n : α) (fs ns : List α) (h : f ≠ rest) :
    takes any rest one many (f :: fs) (n :: ns) =
      ((if f = any then one n else decide (f = n)) && takes any rest one many fs ns) := by
  rw [takes.eq_def]
  exact if_neg h

/-- Wildcards that take more take every name that was taken before. -/
theorem takes_mono (hone : ∀ n ∈ ns, one n → one' n) (hmany : ∀ l, l <:+ ns → many l → many' l)
    (h : takes any rest one many fs ns = true) : takes any rest one' many' fs ns = true := by
  induction fs generalizing ns with
  | nil => exact h
  | cons f fs ih =>
      by_cases hrest : f = rest
      · rw [takes_rest _ _ _ hrest, Bool.and_eq_true] at h ⊢
        exact ⟨h.1, hmany ns List.suffix_rfl h.2⟩
      rcases ns with - | ⟨n, ns⟩
      · rw [takes_nil _ _ hrest] at h
        cases h
      · rw [takes_cons _ _ _ _ hrest, Bool.and_eq_true] at h ⊢
        refine ⟨?_, ih (fun m hm => hone m (List.mem_cons_of_mem n hm))
          (fun l hl => hmany l (hl.trans (List.suffix_cons n ns))) h.2⟩
        by_cases hany : f = any
        · rw [if_pos hany] at h ⊢
          exact hone n List.mem_cons_self h.1
        · rw [if_neg hany] at h ⊢
          exact h.1

end Filter

end WeatherTerminal
