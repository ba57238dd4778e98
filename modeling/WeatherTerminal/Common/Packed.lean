import Mathlib.Data.List.Basic
import Mathlib.Data.Nat.Bitwise
import Mathlib.Tactic.Common
/-!
# Rows of bits, packed into bytes

A bitmap keeps each of its rows in whole bytes, the highest bit first, and
the last byte of a row ends with padding. Reading it byte after byte, and
from each byte the bits that are no padding, comes to the places of the
bitmap row by row, to each once and in order (`flatMap_place`).
-/

namespace WeatherTerminal

/-! ## Rows after rows -/

section

variable {β : Type}

theorem flatMap_range_succ (f : ℕ → List β) (n : ℕ) :
    (List.range (n + 1)).flatMap f = (List.range n).flatMap f ++ f n := by
  rw [List.range_succ, List.flatMap_append, List.flatMap_singleton]

/-- A range in two parts, the second counted from the end of the first. -/
theorem flatMap_range_add (f : ℕ → List β) (m n : ℕ) :
    (List.range (m + n)).flatMap f =
      (List.range m).flatMap f ++ (List.range n).flatMap fun k => f (m + k) := by
  rw [List.range_add, List.flatMap_append, List.flatMap_map]

/-- Rows after rows are one stream, counted through all of them. -/
theorem flatMap_rows (f : ℕ → List β) (columns rows : ℕ) :
    ((List.range rows).flatMap fun row =>
        (List.range columns).flatMap fun column => f (row * columns + column)) =
      (List.range (rows * columns)).flatMap f := by
  induction rows with
  | zero => rw [Nat.zero_mul]; rfl
  | succ rows ih =>
      rw [flatMap_range_succ, ih, Nat.succ_mul, flatMap_range_add]

end

namespace Packed

/-- The bytes of a row of `cols` bits, the last one padded. -/
def rowBytes (cols : ℕ) : ℕ := (cols + 7) / 8

/-- The bits of a byte that are no padding, fewer than eight only in the last
of a row. -/
def used (cols pos : ℕ) : ℕ := min 8 (cols - 8 * (pos % rowBytes cols))

/-- The place in the bitmap of a bit of a byte. -/
def place (cols pos t : ℕ) : ℕ := pos / rowBytes cols * cols + (8 * (pos % rowBytes cols) + t)

/-- The byte that holds a place, counted row by row. -/
def byteAt (cols k : ℕ) : ℕ := k / cols * rowBytes cols + k % cols / 8

/-- And its bit there, the highest being the first. -/
def bitAt (cols k : ℕ) : ℕ := k % cols % 8

variable {cols pos t : ℕ}

theorem rowBytes_pos (hcols : 0 < cols) : 0 < rowBytes cols := by
  unfold rowBytes
  omega

/-- A bit that is no padding is within its row. -/
theorem place_div_mod (ht : t < used cols pos) :
    place cols pos t / cols = pos / rowBytes cols ∧
      place cols pos t % cols = 8 * (pos % rowBytes cols) + t := by
  unfold used at ht
  refine (Nat.div_mod_unique (by omega)).mpr ⟨?_, by omega⟩
  rw [place, Nat.mul_comm cols, Nat.add_comm]

/-- **Each place is in one byte**, at one bit of it. -/
theorem byteAt_place (ht : t < used cols pos) :
    byteAt cols (place cols pos t) = pos ∧ bitAt cols (place cols pos t) = t := by
  obtain ⟨hrow, hcolumn⟩ := place_div_mod ht
  have hbit : t < 8 := Nat.lt_of_lt_of_le ht (Nat.min_le_left _ _)
  unfold byteAt bitAt
  rw [hrow, hcolumn]
  refine ⟨?_, by omega⟩
  rw [show (8 * (pos % rowBytes cols) + t) / 8 = pos % rowBytes cols by omega, Nat.mul_comm]
  exact Nat.div_add_mod pos (rowBytes cols)

/-- A row of whole bytes has no padding, and neither has the bitmap. -/
theorem used_place_whole {w : ℕ} (hw : 0 < w) (pos t : ℕ) :
    used (8 * w) pos = 8 ∧ place (8 * w) pos t = 8 * pos + t := by
  have hbytes : rowBytes (8 * w) = w := by
    unfold rowBytes
    omega
  have hrest := Nat.mod_lt pos hw
  have hsplit : pos / w * (8 * w) + 8 * (pos % w) = 8 * pos := by
    rw [Nat.mul_left_comm, Nat.mul_comm (pos / w), ← Nat.mul_add, Nat.div_add_mod]
  unfold used place
  rw [hbytes, ← Nat.add_assoc, hsplit]
  exact ⟨by omega, rfl⟩

/-- The first bytes of a row hold its first bits. -/
theorem flatMap_bytes {β : Type} (f : ℕ → List β) (cols m : ℕ) :
    ((List.range m).flatMap fun j =>
        (List.range (min 8 (cols - 8 * j))).flatMap fun t => f (8 * j + t)) =
      (List.range (min (8 * m) cols)).flatMap f := by
  induction m with
  | zero => rw [Nat.mul_zero, Nat.zero_min]; rfl
  | succ m ih =>
      rw [flatMap_range_succ, ih]
      rcases Nat.lt_or_ge (8 * m) cols with hmore | hend
      · rw [Nat.min_eq_left (Nat.le_of_lt hmore), ← flatMap_range_add]
        congr 2
        omega
      · -- behind the row there is only padding
        rw [Nat.sub_eq_zero_of_le hend, Nat.min_zero, List.range_zero, List.flatMap_nil,
          List.append_nil, Nat.min_eq_right hend, Nat.min_eq_right (by omega)]

/-- **Byte after byte, bit after bit, the places come in order.** -/
theorem flatMap_place {β : Type} (hcols : 0 < cols) (rows : ℕ) (f : ℕ → List β) :
    ((List.range (rows * rowBytes cols)).flatMap fun pos =>
        (List.range (used cols pos)).flatMap fun t => f (place cols pos t)) =
      (List.range (rows * cols)).flatMap f := by
  rw [← flatMap_rows _ (rowBytes cols) rows, ← flatMap_rows f cols rows]
  refine List.flatMap_congr fun row _ => ?_
  have hrow : ∀ j ∈ List.range (rowBytes cols),
      (row * rowBytes cols + j) / rowBytes cols = row ∧
        (row * rowBytes cols + j) % rowBytes cols = j := fun j hj =>
    (Nat.div_mod_unique (rowBytes_pos hcols)).mpr
      ⟨by rw [Nat.mul_comm, Nat.add_comm], List.mem_range.mp hj⟩
  have hall : min (8 * rowBytes cols) cols = cols := by
    unfold rowBytes
    omega
  have hbytes := flatMap_bytes (fun column => f (row * cols + column)) cols (rowBytes cols)
  rw [hall] at hbytes
  rw [← hbytes]
  refine List.flatMap_congr fun j hj => ?_
  obtain ⟨hdiv, hmod⟩ := hrow j hj
  unfold used place
  rw [hdiv, hmod]

/-! ## The bits of a byte, shifted out -/

theorem ofNat_shiftLeft_one (m : ℕ) : UInt8.ofNat m <<< 1 = UInt8.ofNat (m * 2) := by
  refine UInt8.toNat_inj.mp ?_
  rw [UInt8.toNat_shiftLeft, UInt8.toNat_ofNat', UInt8.toNat_ofNat']
  show (m % 2 ^ 8) <<< 1 % 2 ^ 8 = _
  rw [Nat.shiftLeft_eq]
  omega

/-- The highest bit is tested with a mask, as the seventh of the number. -/
theorem and_highest (m : ℕ) : UInt8.ofNat m &&& 0x80 ≠ 0 ↔ m.testBit 7 = true := by
  have hbit : (m % 2 ^ 8).testBit 7 = m.testBit 7 := by
    rw [Nat.testBit_mod_two_pow, decide_eq_true (by decide), Bool.true_and]
  have hmask : (UInt8.ofNat m &&& 0x80).toNat = (m.testBit 7).toNat * 2 ^ 7 := by
    rw [UInt8.toNat_and, UInt8.toNat_ofNat', ← hbit]
    exact Nat.and_two_pow (m % 2 ^ 8) 7
  rw [ne_eq, ← UInt8.toNat_inj, hmask]
  cases m.testBit 7
  · exact iff_of_false (fun h => h rfl) Bool.false_ne_true
  · exact iff_of_true (by decide) rfl

/-- Behind `t` shifts it is the `t`-th from the top. -/
theorem and_highest_shifted (v : UInt8) {t : ℕ} (ht : t < 8) :
    UInt8.ofNat (v.toNat * 2 ^ t) &&& 0x80 ≠ 0 ↔ v.toNat.testBit (7 - t) = true := by
  rw [and_highest, Nat.testBit_mul_two_pow, decide_eq_true (by omega), Bool.true_and]

end Packed

end WeatherTerminal
