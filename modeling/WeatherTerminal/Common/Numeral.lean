import Mathlib.Data.Nat.Digits.Lemmas
import Mathlib.Tactic.Ring
import Mathlib.Tactic.Common
/-!
# Numerals

Numbers in a base, as they are written (`numeral`) and as `strtol` reads
them. What is written reads back, whatever follows, as long as it does not
go on with a letter or a digit and the number is one of 31 bits
(`strtol_numeral`).
-/

namespace WeatherTerminal

namespace Numeral

/-- `isspace` of the C library, in its own locale. -/
def isSpace (c : UInt8) : Bool := c = 32 || (9 ≤ c && c ≤ 13)

/-- What a byte is worth as a digit: a letter in either case from 10 on,
and 36 for what is neither. -/
def digitVal (c : UInt8) : ℕ :=
  if 48 ≤ c ∧ c ≤ 57 then c.toNat - 48
  else if 97 ≤ c ∧ c ≤ 122 then c.toNat - 87
  else if 65 ≤ c ∧ c ≤ 90 then c.toNat - 55
  else 36

/-- The number the digits at the front of a text spell. -/
def value (base : ℕ) (s : List UInt8) : ℕ :=
  (s.takeWhile (digitVal · < base)).foldl (fun n c => base * n + digitVal c) 0

/-- What `strtol` skips in base 16: a leading `0x`, in either case. -/
def dropPrefix (base : ℕ) : List UInt8 → List UInt8
  | 48 :: x :: s => if base = 16 ∧ (x = 120 ∨ x = 88) then s else 48 :: x :: s
  | s => s

/-- A `long` of 32 bits, at its limits where a number is beyond them. -/
def clamp (n : ℤ) : ℤ := max (-2 ^ 31) (min n (2 ^ 31 - 1))

/-- `strtol`: blanks, a sign and digits of the base, clamped to a `long`. -/
def strtol (base : ℕ) (s : List UInt8) : ℤ :=
  match s.dropWhile isSpace with
  | [] => 0
  | c :: cs =>
      if c = 45 then clamp (-(value base (dropPrefix base cs) : ℤ))
      else if c = 43 then clamp (value base (dropPrefix base cs))
      else clamp (value base (dropPrefix base (c :: cs)))

/-! ## Writing -/

/-- The digit for a value, a letter from ten on. -/
def digitOf (d : ℕ) : UInt8 := if d < 10 then UInt8.ofNat (48 + d) else UInt8.ofNat (87 + d)

/-- A number in a base, the highest digit first and without leading zeros. -/
def numeral (base n : ℕ) : List UInt8 :=
  if n = 0 then [digitOf 0] else (Nat.digits base n).reverse.map digitOf

/-- A text that does not go on with a letter or a digit. -/
def Stops (s : List UInt8) : Prop := ∀ c ∈ s.head?, digitVal c = 36

instance (s : List UInt8) : Decidable (Stops s) :=
  inferInstanceAs (Decidable (∀ c ∈ s.head?, digitVal c = 36))

variable {base n d : ℕ} {s tail : List UInt8} {c : UInt8}

theorem digitVal_digitOf (hd : d < 36) : digitVal (digitOf d) = d := by
  have hall : ∀ d < 36, digitVal (digitOf d) = d := by decide
  exact hall d hd

theorem isSpace_of_digitVal (hc : digitVal c ≠ 36) : isSpace c = false := by
  have hall : ∀ k < 256, digitVal (UInt8.ofNat k) ≠ 36 → isSpace (UInt8.ofNat k) = false := by
    decide +kernel
  have := hall c.toNat c.toNat_lt
  rw [UInt8.ofNat_toNat] at this
  exact this hc

theorem ne_of_digitVal {e : UInt8} (hc : digitVal c ≠ 36) (he : digitVal e = 36) : c ≠ e :=
  fun h => hc (h ▸ he)

/-- The last digit stands behind those of the number without it. -/
theorem numeral_eq (hbase : 1 < base) (hn : 0 < n) :
    numeral base n =
      (if n / base = 0 then [] else numeral base (n / base)) ++ [digitOf (n % base)] := by
  have hdigits : Nat.digits base n = n % base :: Nat.digits base (n / base) :=
    Nat.digits_def' hbase hn
  rw [numeral, if_neg (by omega), hdigits, List.reverse_cons, List.map_append]
  split
  · rename_i hzero
    rw [hzero, Nat.digits_zero]
    rfl
  · rename_i hne
    rw [numeral, if_neg hne]
    rfl

theorem numeral_ne_nil (hbase : 1 < base) : numeral base n ≠ [] := by
  rcases Nat.eq_zero_or_pos n with rfl | hn
  · exact List.cons_ne_nil _ _
  · rw [numeral_eq hbase hn]
    exact List.append_ne_nil_of_right_ne_nil _ (List.cons_ne_nil _ _)

/-- A number below a power of the base has no more digits than its exponent.
-/
theorem length_numeral_le {k : ℕ} (hbase : 1 < base) (hk : 0 < k) (hn : n < base ^ k) :
    (numeral base n).length ≤ k := by
  unfold numeral
  split
  · exact hk
  · rw [List.length_map, List.length_reverse]
    exact (Nat.digits_length_le_iff hbase n).mpr hn

theorem digitVal_of_mem_numeral (hbase : 1 < base) (hmax : base ≤ 36) :
    ∀ c ∈ numeral base n, digitVal c < base := by
  intro c hc
  unfold numeral at hc
  split at hc
  · rw [List.mem_singleton.mp hc, digitVal_digitOf (by omega)]
    omega
  · obtain ⟨d, hd, rfl⟩ := List.mem_map.mp hc
    have hlt := Nat.digits_lt_base hbase (List.mem_reverse.mp hd)
    rw [digitVal_digitOf (by omega)]
    exact hlt

/-- The first byte of a number, which decides what `strtol` does. -/
theorem exists_cons_numeral (hbase : 1 < base) (hmax : base ≤ 36) :
    ∃ c cs, numeral base n = c :: cs ∧ digitVal c ≠ 36 := by
  rcases hs : numeral base n with - | ⟨c, cs⟩
  · exact absurd hs (numeral_ne_nil hbase)
  · have := digitVal_of_mem_numeral (n := n) hbase hmax c (by rw [hs]; exact List.mem_cons_self)
    exact ⟨c, cs, rfl, by omega⟩

/-- The digits of a number end where the text goes on with something else. -/
theorem takeWhile_numeral (hbase : 1 < base) (hmax : base ≤ 36) (htail : Stops tail) :
    (numeral base n ++ tail).takeWhile (digitVal · < base) = numeral base n := by
  have hall : ∀ c ∈ numeral base n, decide (digitVal c < base) = true := fun c hc =>
    decide_eq_true (digitVal_of_mem_numeral hbase hmax c hc)
  rw [List.takeWhile_append_of_pos hall]
  rcases tail with - | ⟨c, tail⟩
  · rw [List.takeWhile_nil, List.append_nil]
  · have hc : digitVal c = 36 := htail c rfl
    rw [List.takeWhile_cons_of_neg (by simp; omega), List.append_nil]

/-- The digits of a number add up to it, by induction over them. -/
theorem foldl_numeral (hbase : 1 < base) (hmax : base ≤ 36) :
    (numeral base n).foldl (fun n c => base * n + digitVal c) 0 = n := by
  induction n using Nat.strong_induction_on with
  | _ n ih =>
    rcases Nat.eq_zero_or_pos n with rfl | hn
    · show base * 0 + digitVal (digitOf 0) = 0
      rw [digitVal_digitOf (by omega)]
      omega
    · have hmod : n % base < base := Nat.mod_lt n (by omega)
      rw [numeral_eq hbase hn, List.foldl_append, List.foldl_cons, List.foldl_nil,
        digitVal_digitOf (by omega)]
      split
      · rename_i hzero
        have := Nat.div_add_mod n base
        rw [hzero] at this
        exact this
      · rw [ih (n / base) (Nat.div_lt_self hn hbase)]
        exact Nat.div_add_mod n base

/-- So it is read from a text that goes on with something else. -/
theorem value_numeral (hbase : 1 < base) (hmax : base ≤ 36) (htail : Stops tail) :
    value base (numeral base n ++ tail) = n := by
  rw [value, takeWhile_numeral hbase hmax htail, foldl_numeral hbase hmax]

/-- No number looks like a prefix, for no digit is an `x`. -/
theorem dropPrefix_numeral (hbase : 1 < base) (hmax : base ≤ 36) (htail : Stops tail) :
    dropPrefix base (numeral base n ++ tail) = numeral base n ++ tail := by
  unfold dropPrefix
  split
  · rename_i x s hs
    rw [if_neg, hs]
    rintro ⟨rfl, hx⟩
    have hval : digitVal x < 36 ∧ 16 ≤ digitVal x := by
      rcases hx with rfl | rfl <;> decide
    obtain ⟨c, cs, hnum, -⟩ := exists_cons_numeral (n := n) hbase hmax
    have hmem := digitVal_of_mem_numeral (n := n) hbase hmax
    rw [hnum] at hs hmem
    obtain ⟨rfl, hrest⟩ := List.cons.inj hs
    rcases cs with - | ⟨y, cs⟩
    · have hfirst : tail = x :: s := hrest
      have := htail x (by rw [hfirst]; rfl)
      omega
    · obtain ⟨rfl, -⟩ := List.cons.inj hrest
      have := hmem y (by simp)
      omega
  · rfl

/-- **What is written reads back**, whatever the text goes on with behind its
digits. -/
theorem strtol_numeral (hbase : 1 < base) (hmax : base ≤ 36) (hn : n < 2 ^ 31)
    (htail : Stops tail) : strtol base (numeral base n ++ tail) = n := by
  obtain ⟨c, cs, hnum, hc⟩ := exists_cons_numeral (n := n) hbase hmax
  have hskip : (numeral base n ++ tail).dropWhile isSpace = c :: (cs ++ tail) := by
    rw [hnum, List.cons_append,
      List.dropWhile_cons_of_neg (by rw [isSpace_of_digitVal hc]; exact Bool.false_ne_true)]
  rw [strtol, hskip]
  show (if c = 45 then _ else if c = 43 then _ else
    clamp (value base (dropPrefix base (c :: (cs ++ tail))))) = _
  rw [if_neg (ne_of_digitVal hc (by decide)), if_neg (ne_of_digitVal hc (by decide)),
    ← List.cons_append, ← hnum, dropPrefix_numeral hbase hmax htail,
    value_numeral hbase hmax htail, clamp]
  omega

end Numeral

end WeatherTerminal
