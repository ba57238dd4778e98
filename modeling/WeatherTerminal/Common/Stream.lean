import Mathlib.Data.List.Basic
import Mathlib.Tactic.Common
/-!
# Byte streams

What a socket delivers: the bytes of the peer in the segments they arrive
in, and between them the calls that run into a timeout or an error. A
`recv` takes from one segment at most and says nothing about how the bytes
were cut, so what a reader sees of a stream is the bytes that are to come
before the next failure (`ready`) and what follows them (`later`).
-/

namespace WeatherTerminal

/-- What a call of `recv` meets: bytes that have arrived, or a failure. -/
inductive Segment
  | bytes (bs : List UInt8)
  /-- A call that fails, with `EAGAIN` or with another error. -/
  | fail (again : Bool)
deriving DecidableEq, Repr

/-- What a call of `recv` returns: bytes, the end of the connection, or a
failure. -/
inductive Got
  | bytes (bs : List UInt8)
  | closed
  | fail (again : Bool)
deriving DecidableEq, Repr

namespace Segment

/-- `recv` of up to `want` bytes. Once nothing more is to come, the peer
has closed the connection. -/
def recv (want : ℕ) : List Segment → Got × List Segment
  | [] => (.closed, [])
  | .fail again :: net => (.fail again, net)
  | .bytes bs :: net =>
      if bs = [] then recv want net
      else (.bytes (bs.take want), if bs.length ≤ want then net else .bytes (bs.drop want) :: net)

/-- The bytes that come before the next failure, however they are cut into
segments. -/
def ready : List Segment → List UInt8
  | .bytes bs :: net => bs ++ ready net
  | _ => []

/-- The failure that comes next, and what comes after it. -/
def later : List Segment → List Segment
  | .bytes _ :: net => later net
  | net => net

variable {net : List Segment} {want : ℕ}

/-- **A `recv` takes the front of what is ready**, as much of it as the
segments make it. -/
theorem recv_ready (hwant : 0 < want) (h : ready net ≠ []) :
    ∃ piece net', recv want net = (.bytes piece, net') ∧ piece ≠ [] ∧ piece.length ≤ want ∧
      ready net = piece ++ ready net' ∧ later net' = later net := by
  induction net with
  | nil => exact absurd rfl h
  | cons s net ih =>
      rcases s with bs | again
      · rcases eq_or_ne bs [] with rfl | hbs
        · exact ih h
        · rw [recv, if_neg hbs]
          refine ⟨_, _, rfl, ?_, List.length_take_le want bs, ?_, ?_⟩
          · intro hnil
            rcases List.take_eq_nil_iff.mp hnil with h0 | h0
            · omega
            · exact hbs h0
          · split
            · rw [List.take_of_length_le ‹_›]
              rfl
            · rw [ready, ready, ← List.append_assoc, List.take_append_drop]
          · split <;> rfl
      · exact absurd rfl h

/-- Where nothing is ready, it meets what comes later, or the end. -/
theorem recv_eq_of_ready_eq_nil (h : ready net = []) : recv want net = recv want (later net) := by
  induction net with
  | nil => rfl
  | cons s net ih =>
      rcases s with bs | again
      · obtain ⟨rfl, hnet⟩ := List.append_eq_nil_iff.mp h
        exact ih hnet
      · rfl

/-- The next byte is received alone, and the others are left ready. -/
theorem recv_one {c : UInt8} {rest : List UInt8} (h : ready net = c :: rest) :
    ∃ net', recv 1 net = (.bytes [c], net') ∧ ready net' = rest ∧ later net' = later net := by
  have hready : ready net ≠ [] := by
    rw [h]
    exact List.cons_ne_nil c rest
  obtain ⟨piece, net', hrecv, hne, hlen, hready, hlater⟩ := recv_ready Nat.one_pos hready
  rw [h] at hready
  rcases piece with - | ⟨d, piece⟩
  · exact absurd rfl hne
  · obtain rfl : piece = [] := List.length_eq_zero_iff.mp (by
      rw [List.length_cons] at hlen
      omega)
    obtain ⟨rfl, hrest⟩ := List.cons.inj hready
    exact ⟨net', hrecv, hrest.symm, hlater⟩

end Segment

end WeatherTerminal
