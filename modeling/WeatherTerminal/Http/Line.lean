import WeatherTerminal.Http.Model.Session
/-!
# HTTP — lines

A line that ends in CR LF is read with its CR (`readLine_eq`), however it
was cut into segments, and what is behind it is left. The size of a chunk
is the number its line starts with, whatever else is on it.
-/

namespace WeatherTerminal

namespace Http

open Segment

variable {net : List Segment} {line rest : List UInt8}

/-- CR LF, the two bytes that end each line of a head and of a chunk. -/
def crlf : List UInt8 := [13, 10]

/-- One more byte of a line, which is stored as long as it does not end the
line. -/
theorem readLineFrom_cons {c : UInt8} (last : UInt8) (stored : List UInt8) (room : ℕ)
    (h : ready net = c :: rest) (hend : ¬ (c = 10 ∧ last = 13)) :
    ∃ net', readLineFrom last stored (room + 1) net = readLineFrom c (stored ++ [c]) room net' ∧
      ready net' = rest ∧ later net' = later net := by
  obtain ⟨net', hrecv, hready, hlater⟩ := recv_one h
  refine ⟨net', ?_, hready, hlater⟩
  rw [readLineFrom, hrecv]
  exact if_neg hend

/-- The rest of a line that is free of line feeds, with the CR LF behind it,
by induction over its bytes. -/
theorem readLineFrom_eq (last : UInt8) (stored : List UInt8) {room : ℕ} (hline : 10 ∉ line)
    (hroom : line.length + 2 ≤ room) (h : ready net = line ++ crlf ++ rest) :
    ∃ net', readLineFrom last stored room net =
        ⟨stored.length + line.length + 1, stored ++ line ++ [13], net'⟩ ∧
      ready net' = rest ∧ later net' = later net := by
  induction line generalizing net stored last room with
  | nil =>
      rw [List.length_nil] at hroom
      obtain ⟨room, rfl⟩ : ∃ k, room = k + 2 := ⟨room - 2, by omega⟩
      obtain ⟨net₁, hcr, hready, hlater⟩ := readLineFrom_cons last stored (room + 1) h
        (by rintro ⟨h0, -⟩; exact absurd h0 (by decide))
      -- the line feed behind it ends the line
      obtain ⟨net₂, hrecv, hready₂, hlater₂⟩ := recv_one hready
      refine ⟨net₂, ?_, hready₂, hlater₂.trans hlater⟩
      rw [hcr, readLineFrom, hrecv]
      simp
  | cons c line ih =>
      have hc : c ≠ 10 := fun h0 => hline (h0 ▸ List.mem_cons_self)
      rw [List.length_cons] at hroom
      obtain ⟨room, rfl⟩ : ∃ k, room = k + 1 := ⟨room - 1, by omega⟩
      obtain ⟨net₁, hfirst, hready, hlater⟩ := readLineFrom_cons last stored room h
        (fun h0 => hc h0.1)
      obtain ⟨net₂, hline', hready₂, hlater₂⟩ := ih c (stored ++ [c])
        (fun h0 => hline (List.mem_cons_of_mem c h0)) (show line.length + 2 ≤ room by omega) hready
      refine ⟨net₂, ?_, hready₂, hlater₂.trans hlater⟩
      rw [hfirst, hline']
      simp only [List.length_append, List.length_cons, List.length_nil, List.append_assoc,
        List.cons_append, List.nil_append, Line.mk.injEq, and_true]
      push_cast
      ring

/-- **A line, however it arrives**, is read whole, and what comes behind it is
left to be read. -/
theorem readLine_eq (size : ℕ) (hline : 10 ∉ line) (hsize : line.length + 2 ≤ size)
    (h : ready net = line ++ crlf ++ rest) :
    ∃ net', readLine size net = ⟨line.length + 1, line ++ [13], net'⟩ ∧ ready net' = rest ∧
      later net' = later net := by
  obtain ⟨net', hread, hnet'⟩ := readLineFrom_eq 0 [] hline hsize h
  refine ⟨net', ?_, hnet'⟩
  rw [readLine, hread]
  simp

end Http

end WeatherTerminal
