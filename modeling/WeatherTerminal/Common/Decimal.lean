import Mathlib.Data.List.TakeWhile
import Mathlib.Data.Nat.Digits.Lemmas
import Mathlib.Data.Rat.Cast.Order
import Mathlib.Tactic.Ring
import Mathlib.Tactic.FieldSimp
/-!
# Decimal notation

Numbers as the digits a program prints, and the reader for the numbers of
JSON. A number is printed with its digits and no others (`digits`), a
fraction with a fixed number of them behind the point (`fixed`), and a
printed number reads back as the number it is (`read_fixed`,
`read_digits`). How long a number gets is its order of magnitude
(`length_digits`).
-/

namespace WeatherTerminal

namespace Decimal

/-- The byte of a digit, from `0` to `9`. -/
def digit (d : ℕ) : UInt8 := UInt8.ofNat (48 + d)

/-- A byte that is a digit, `isdigit` in the C library. -/
def isDigit (c : UInt8) : Bool := 48 ≤ c && c ≤ 57

abbrev point : UInt8 := 0x2E

abbrev minus : UInt8 := 0x2D

/-! ## Printing -/

/-- A number in decimal, the highest digit first and without leading zeros. -/
def digits (n : ℕ) : List UInt8 :=
  if n = 0 then [digit 0] else (Nat.digits 10 n).reverse.map digit

/-- Its last `k` digits, zeros before it where it has fewer. -/
def padded : ℕ → ℕ → List UInt8
  | 0, _ => []
  | k + 1, n => padded k (n / 10) ++ [digit (n % 10)]

/-- The sign of a number below zero, and nothing for the others. -/
def sign (negative : Bool) : List UInt8 := if negative then [minus] else []

/-- `n` units of the `k`-th decimal place, with that many digits behind the
point. -/
def fixed (negative : Bool) (k n : ℕ) : List UInt8 :=
  sign negative ++ (digits (n / 10 ^ k) ++ point :: padded k (n % 10 ^ k))

/-! ## Reading -/

/-- The number a run of digits stands for, the highest first. -/
def value (bs : List UInt8) : ℕ := bs.foldl (fun acc c => 10 * acc + (c.toNat - 48)) 0

/-- The exponent of a number, which may be left out. -/
def readExponent : List UInt8 → Option ℤ
  | [] => some 0
  | e :: bs =>
      if e ≠ 0x65 ∧ e ≠ 0x45 then none
      else
        let negative := bs.head? = some minus
        let ds := if negative ∨ bs.head? = some 0x2B then bs.tail else bs
        if ds = [] ∨ ds.all isDigit = false then none
        else some (if negative then -(value ds : ℤ) else value ds)

/-- A number of JSON behind its sign: digits with no zero before them, a
point and digits, an exponent. -/
def readUnsigned (bs : List UInt8) : Option ℚ :=
  let int := bs.takeWhile isDigit
  if int = [] ∨ (int.head? = some (digit 0) ∧ int ≠ [digit 0]) then none
  else match bs.dropWhile isDigit with
    | [] => some (value int : ℚ)
    | c :: rest =>
        if c = point then
          let frac := rest.takeWhile isDigit
          if frac = [] then none
          else (readExponent (rest.dropWhile isDigit)).map fun e =>
            ((value int : ℚ) + value frac / 10 ^ frac.length) * 10 ^ e
        else (readExponent (c :: rest)).map fun e => (value int : ℚ) * 10 ^ e

/-- A number of JSON as its value, or none where the text is no number. -/
def read (bs : List UInt8) : Option ℚ :=
  if bs.head? = some minus then (readUnsigned bs.tail).map (- ·) else readUnsigned bs

/-! ## Digits -/

variable {d n k : ℕ} {bs : List UInt8}

theorem toNat_digit (hd : d < 10) : (digit d).toNat = 48 + d := by
  rw [digit, UInt8.toNat_ofNat']
  omega

theorem isDigit_digit (hd : d < 10) : isDigit (digit d) = true := by
  have hlow : 48 ≤ (digit d) := by
    rw [UInt8.le_iff_toNat_le, toNat_digit hd]
    show 48 ≤ 48 + d
    omega
  have hhigh : digit d ≤ 57 := by
    rw [UInt8.le_iff_toNat_le, toNat_digit hd]
    show 48 + d ≤ 57
    omega
  simp [isDigit, hlow, hhigh]

theorem exists_digit {c : UInt8} (hc : isDigit c = true) : ∃ d < 10, digit d = c := by
  rw [isDigit, Bool.and_eq_true, decide_eq_true_eq, decide_eq_true_eq, UInt8.le_iff_toNat_le,
    UInt8.le_iff_toNat_le] at hc
  obtain ⟨hlow, hhigh⟩ : 48 ≤ c.toNat ∧ c.toNat ≤ 57 := hc
  refine ⟨c.toNat - 48, by omega, UInt8.toNat_inj.mp ?_⟩
  rw [toNat_digit (by omega)]
  omega

theorem value_nil : value [] = 0 := rfl

/-- A digit more is ten times the number before it, and the digit. -/
theorem value_append_digit (hd : d < 10) : value (bs ++ [digit d]) = 10 * value bs + d := by
  rw [value, List.foldl_append, List.foldl_cons, List.foldl_nil, toNat_digit hd, value]
  omega

theorem digits_of_lt (hn : n < 10) : digits n = [digit n] := by
  unfold digits
  split
  · rename_i hzero
    rw [hzero]
  · rename_i hne
    rw [Nat.digits_of_lt 10 n hne hn]
    rfl

/-- A larger one has those of its tenth, and the last. -/
theorem digits_of_le (hn : 10 ≤ n) : digits n = digits (n / 10) ++ [digit (n % 10)] := by
  unfold digits
  rw [if_neg (by omega), if_neg (by omega), Nat.digits_def' (by omega) (by omega)]
  simp

theorem digits_ne_nil (n : ℕ) : digits n ≠ [] := by
  rcases Nat.lt_or_ge n 10 with hlt | hge
  · rw [digits_of_lt hlt]
    exact List.cons_ne_nil _ _
  · rw [digits_of_le hge]
    exact List.append_ne_nil_of_right_ne_nil _ (List.cons_ne_nil _ _)

/-- **A number is as long as its order of magnitude.** -/
theorem length_digits (n : ℕ) : (digits n).length = Nat.log 10 n + 1 := by
  unfold digits
  split
  · rename_i hzero
    rw [hzero]
    rfl
  · rename_i hne
    rw [List.length_map, List.length_reverse, Nat.length_digits 10 n (by decide) hne]

/-- A number that is padded has as many digits as it is padded to. -/
theorem length_padded (k n : ℕ) : (padded k n).length = k := by
  induction k generalizing n with
  | zero => rfl
  | succ k ih => rw [padded, List.length_append, ih, List.length_singleton]

/-- A number consists of digits. -/
theorem isDigit_of_mem_digits (n : ℕ) : ∀ c ∈ digits n, isDigit c = true := by
  induction n using Nat.strong_induction_on with
  | _ n ih =>
    rcases Nat.lt_or_ge n 10 with hlt | hge
    · rw [digits_of_lt hlt]
      exact List.forall_mem_singleton.mpr (isDigit_digit hlt)
    · rw [digits_of_le hge]
      intro c hc
      rcases List.mem_append.mp hc with hfront | hlast
      · exact ih (n / 10) (by omega) c hfront
      · rw [List.mem_singleton.mp hlast]
        exact isDigit_digit (by omega)

theorem isDigit_of_mem_padded (k n : ℕ) : ∀ c ∈ padded k n, isDigit c = true := by
  induction k generalizing n with
  | zero => exact fun c hc => absurd hc List.not_mem_nil
  | succ k ih =>
      intro c hc
      rcases List.mem_append.mp hc with hfront | hlast
      · exact ih (n / 10) c hfront
      · rw [List.mem_singleton.mp hlast]
        exact isDigit_digit (by omega)

/-- **Digits read back** as the number they were made from. -/
theorem value_digits (n : ℕ) : value (digits n) = n := by
  induction n using Nat.strong_induction_on with
  | _ n ih =>
    rcases Nat.lt_or_ge n 10 with hlt | hge
    · rw [digits_of_lt hlt]
      show value ([] ++ [digit n]) = n
      rw [value_append_digit hlt, value_nil]
      omega
    · rw [digits_of_le hge, value_append_digit (by omega), ih (n / 10) (by omega)]
      omega

/-- A padded number reads back in as many digits as it has. -/
theorem value_padded (k n : ℕ) : value (padded k n) = n % 10 ^ k := by
  induction k generalizing n with
  | zero => rw [padded, value_nil, pow_zero, Nat.mod_one]
  | succ k ih =>
      rw [padded, value_append_digit (by omega), ih, pow_succ, Nat.mul_comm (10 ^ k),
        Nat.mod_mul]
      omega

/-- No zero stands before a number that is not zero. -/
theorem head?_digits (hn : 0 < n) : (digits n).head? ≠ some (digit 0) := by
  induction n using Nat.strong_induction_on with
  | _ n ih =>
    rcases Nat.lt_or_ge n 10 with hlt | hge
    · rw [digits_of_lt hlt, List.head?_cons]
      intro h
      have hbyte := congrArg UInt8.toNat (Option.some.inj h)
      rw [toNat_digit hlt, toNat_digit (by omega)] at hbyte
      omega
    · rw [digits_of_le hge, List.head?_append_of_ne_nil _ (digits_ne_nil _)]
      exact ih (n / 10) (by omega) (by omega)

/-- The bytes numbers are printed with: digits, a point and a minus. -/
def inNumber (c : UInt8) : Bool := isDigit c || c == point || c == minus

/-- A digit is one of them. -/
theorem inNumber_of_isDigit {c : UInt8} (hc : isDigit c = true) : inNumber c = true := by
  rw [inNumber, hc]
  rfl

theorem inNumber_of_mem_sign (negative : Bool) : ∀ c ∈ sign negative, inNumber c = true := by
  cases negative with
  | false => exact fun c hc => absurd hc List.not_mem_nil
  | true => exact List.forall_mem_singleton.mpr rfl

/-- And so is every byte of a number with a fraction. -/
theorem inNumber_of_mem_fixed (negative : Bool) (k n : ℕ) :
    ∀ c ∈ fixed negative k n, inNumber c = true := by
  intro c hc
  rcases List.mem_append.mp hc with hsign | hc
  · exact inNumber_of_mem_sign negative c hsign
  · rcases List.mem_append.mp hc with hint | hc
    · exact inNumber_of_isDigit (isDigit_of_mem_digits _ c hint)
    · rcases List.mem_cons.mp hc with rfl | hfrac
      · rfl
      · exact inNumber_of_isDigit (isDigit_of_mem_padded _ _ c hfrac)

/-! ## Reading back -/

section Split

variable {tail : List UInt8} (hbs : ∀ c ∈ bs, isDigit c = true)
include hbs

/-- The digits at the start of a text end where it goes on with something
else. -/
theorem takeWhile_digits (htail : tail.head?.all (isDigit · = false)) :
    (bs ++ tail).takeWhile isDigit = bs := by
  rw [List.takeWhile_append_of_pos hbs]
  rcases tail with - | ⟨c, tail⟩
  · rw [List.takeWhile_nil, List.append_nil]
  · have hc : isDigit c = false := by simpa using htail
    rw [List.takeWhile_cons_of_neg (by simp [hc]), List.append_nil]

theorem dropWhile_digits (htail : tail.head?.all (isDigit · = false)) :
    (bs ++ tail).dropWhile isDigit = tail := by
  rw [List.dropWhile_append_of_pos hbs]
  rcases tail with - | ⟨c, tail⟩
  · rfl
  · have hc : isDigit c = false := by simpa using htail
    rw [List.dropWhile_cons_of_neg (by simp [hc])]

end Split

/-- The digits of a number are what a number of JSON may start with. -/
theorem digits_start (n : ℕ) :
    ¬ (digits n = [] ∨ ((digits n).head? = some (digit 0) ∧ digits n ≠ [digit 0])) := by
  rintro (hnil | ⟨hhead, hne⟩)
  · exact digits_ne_nil n hnil
  · rcases Nat.eq_zero_or_pos n with rfl | hpos
    · exact hne rfl
    · exact head?_digits hpos hhead

/-- A whole number reads back without a sign. -/
theorem readUnsigned_digits (n : ℕ) : readUnsigned (digits n) = some (n : ℚ) := by
  have htake : (digits n).takeWhile isDigit = digits n :=
    List.takeWhile_eq_self_iff.mpr (isDigit_of_mem_digits n)
  have hdrop : (digits n).dropWhile isDigit = [] :=
    List.dropWhile_eq_nil_iff.mpr (isDigit_of_mem_digits n)
  unfold readUnsigned
  rw [htake, hdrop, if_neg (digits_start n), value_digits]

theorem readUnsigned_fixed (hk : 0 < k) (n : ℕ) :
    readUnsigned (digits (n / 10 ^ k) ++ point :: padded k (n % 10 ^ k)) =
      some ((n : ℚ) / 10 ^ k) := by
  have hpoint : (point :: padded k (n % 10 ^ k)).head?.all (isDigit · = false) := by
    simpa using show isDigit point = false by decide
  have hpad : padded k (n % 10 ^ k) ≠ [] := by
    rw [← List.length_pos_iff, length_padded]
    exact hk
  have htake : (padded k (n % 10 ^ k)).takeWhile isDigit = padded k (n % 10 ^ k) :=
    List.takeWhile_eq_self_iff.mpr (isDigit_of_mem_padded k _)
  have hdrop : (padded k (n % 10 ^ k)).dropWhile isDigit = [] :=
    List.dropWhile_eq_nil_iff.mpr (isDigit_of_mem_padded k _)
  unfold readUnsigned
  rw [takeWhile_digits (isDigit_of_mem_digits _) hpoint,
    dropWhile_digits (isDigit_of_mem_digits _) hpoint, if_neg (digits_start _)]
  simp only [if_true, htake, hdrop, if_neg hpad, value_digits, value_padded, length_padded,
    Nat.mod_mod, readExponent, Option.map_some, zpow_zero, mul_one, Option.some.injEq]
  have hpos : (10 : ℚ) ^ k ≠ 0 := pow_ne_zero k (by norm_num)
  have hsplit : ((10 ^ k * (n / 10 ^ k) + n % 10 ^ k : ℕ) : ℚ) = n := by
    rw [Nat.div_add_mod]
  push_cast at hsplit
  field_simp
  linarith

/-- A sign is read first, and what is behind it as a number without one. -/
theorem read_sign {c : UInt8} (hc : isDigit c = true) (negative : Bool) :
    read (sign negative ++ c :: bs) =
      (readUnsigned (c :: bs)).map fun q => if negative then -q else q := by
  have hne : c ≠ minus := by
    rintro rfl
    exact absurd hc (by decide)
  cases negative with
  | false => simp [read, sign, hne]
  | true => simp [read, sign]

/-- **A whole number reads back**, with its sign. -/
theorem read_digits (negative : Bool) (n : ℕ) :
    read (sign negative ++ digits n) = some (if negative then -(n : ℚ) else n) := by
  obtain ⟨c, cs, hcons⟩ := List.exists_cons_of_ne_nil (digits_ne_nil n)
  have hc : isDigit c = true := isDigit_of_mem_digits n c (hcons ▸ List.mem_cons_self)
  have hread := readUnsigned_digits n
  rw [hcons] at hread ⊢
  rw [read_sign hc, hread, Option.map_some]

/-- **And so does one with a fraction**, as so many units of its last place.
-/
theorem read_fixed (negative : Bool) (hk : 0 < k) (n : ℕ) :
    read (fixed negative k n) =
      some (if negative then -((n : ℚ) / 10 ^ k) else (n : ℚ) / 10 ^ k) := by
  obtain ⟨c, cs, hcons⟩ := List.exists_cons_of_ne_nil (digits_ne_nil (n / 10 ^ k))
  have hc : isDigit c = true := isDigit_of_mem_digits _ c (hcons ▸ List.mem_cons_self)
  have hread := readUnsigned_fixed hk n
  rw [fixed]
  rw [hcons, List.cons_append] at hread ⊢
  rw [read_sign hc, hread, Option.map_some]

/-- A number with a fraction takes its sign, its digits, the point and the
digits behind it. -/
theorem length_fixed (negative : Bool) (k n : ℕ) :
    (fixed negative k n).length =
      (if negative then 1 else 0) + (Nat.log 10 (n / 10 ^ k) + 1) + (k + 1) := by
  have hsign : (sign negative).length = if negative then 1 else 0 := by
    cases negative <;> rfl
  simp only [fixed, List.length_append, List.length_cons, length_digits, length_padded, hsign]
  omega

end Decimal

end WeatherTerminal
