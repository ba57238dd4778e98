import Mathlib.InformationTheory.Coding.UniquelyDecodable
import Mathlib.Data.List.Basic
/-!
# Frames on a stream

Frames that follow one another on a stream can be told apart where a reader
can tell from the stream how long the first of them is
(`uniquelyDecodable_of_size`).
-/

namespace WeatherTerminal

namespace Frame

open InformationTheory (UniquelyDecodable)

variable {α : Type*} {S : Set (List α)} {size : List α → ℕ}

/-- The first frame is what the reader takes off, so two streams that are one
have it in common. -/
theorem eq_of_size (hsize : ∀ w ∈ S, ∀ rest, size (w ++ rest) = w.length) {w v r q : List α}
    (hw : w ∈ S) (hv : v ∈ S) (h : w ++ r = v ++ q) : w = v ∧ r = q := by
  have hlen : w.length = v.length := by rw [← hsize w hw r, h, hsize v hv q]
  exact List.append_inj h hlen

/-- **Frames whose size can be read off are told apart.** -/
theorem uniquelyDecodable_of_size (hsize : ∀ w ∈ S, ∀ rest, size (w ++ rest) = w.length)
    (hne : ∀ w ∈ S, w ≠ []) : UniquelyDecodable S := by
  intro ws vs hws hvs h
  induction ws generalizing vs with
  | nil =>
      rcases vs with - | ⟨v, vs⟩
      · rfl
      · rw [List.flatten_nil, List.flatten_cons] at h
        exact absurd (List.append_eq_nil_iff.mp h.symm).1 (hne v (hvs v List.mem_cons_self))
  | cons w ws ih =>
      rcases vs with - | ⟨v, vs⟩
      · rw [List.flatten_nil, List.flatten_cons] at h
        exact absurd (List.append_eq_nil_iff.mp h).1 (hne w (hws w List.mem_cons_self))
      · rw [List.flatten_cons, List.flatten_cons] at h
        obtain ⟨rfl, hrest⟩ := eq_of_size hsize (hws w List.mem_cons_self)
          (hvs v List.mem_cons_self) h
        rw [ih vs (fun x hx => hws x (List.mem_cons_of_mem w hx))
          (fun x hx => hvs x (List.mem_cons_of_mem w hx)) hrest]

end Frame

end WeatherTerminal
