import Mathlib.Data.List.Basic
import Mathlib.Data.Nat.Bitwise
import Mathlib.Tactic.Ring
/-!
# Numbers of variable length

A number in bytes of seven bits, the lowest first, all bytes but the last
with their top bit set. The reader takes a bounded number of bytes. What
the writer has written it reads back, whatever follows
(`decode_encode`).
-/

namespace WeatherTerminal

namespace Varint

/-- The bytes of a number, seven bits in each and the low ones first. -/
def encode (n : ℕ) : List UInt8 :=
  if n / 128 = 0 then [UInt8.ofNat (n % 128)]
  else UInt8.ofNat (n % 128 + 128) :: encode (n / 128)
termination_by n
decreasing_by omega

/-- The number at the front of `mem` and its length; a number that does not
end in `fuel` bytes is given up, its length one more. -/
def decode : ℕ → ℕ → List UInt8 → ℕ × ℕ
  | 0, _, _ => (0, 1)
  | fuel + 1, multiplier, mem =>
      let c := mem.headD 0
      let r := if c &&& 128 ≠ 0 then decode fuel (multiplier * 128) mem.tail else (0, 0)
      ((c &&& 127).toNat * multiplier + r.1, r.2 + 1)

/-! ## Bytes -/

/-- The low seven bits of a byte, as a number. -/
theorem and_127 (c : UInt8) : (c &&& 127).toNat = c.toNat % 128 := by
  rw [UInt8.toNat_and]
  exact Nat.and_two_pow_sub_one_eq_mod c.toNat 7

/-- The high bit of a byte says whether more follow. -/
theorem and_128 (c : UInt8) : c &&& 128 = 0 ↔ c.toNat < 128 := by
  have hbyte : ∀ k < 256, UInt8.ofNat k &&& 128 = 0 ↔ k < 128 := by decide +kernel
  have := hbyte c.toNat c.toNat_lt
  rwa [UInt8.ofNat_toNat] at this

/-- A number below 256 is the one of its byte. -/
theorem toNat_ofNat {k : ℕ} (h : k < 256) : (UInt8.ofNat k).toNat = k := by
  rw [UInt8.toNat_ofNat']
  omega

/-- The last byte of a number has no high bit, and its low ones are the
number's. -/
theorem and_last {k : ℕ} (h : k < 128) :
    UInt8.ofNat k &&& 128 = 0 ∧ (UInt8.ofNat k &&& 127).toNat = k := by
  have hk := toNat_ofNat (show k < 256 by omega)
  rw [and_128, and_127, hk]
  exact ⟨h, Nat.mod_eq_of_lt h⟩

/-- A byte before it has the high bit, and its low ones are the number's. -/
theorem and_more {k : ℕ} (h : k < 128) :
    UInt8.ofNat (k + 128) &&& 128 ≠ 0 ∧ (UInt8.ofNat (k + 128) &&& 127).toNat = k := by
  have hk := toNat_ofNat (show k + 128 < 256 by omega)
  rw [Ne, and_128, and_127, hk]
  omega

/-! ## Writing and reading -/

theorem encode_last {n : ℕ} (h : n < 128) : encode n = [UInt8.ofNat n] := by
  rw [encode, if_pos (by omega), Nat.mod_eq_of_lt h]

/-- A larger one takes a byte, and those of what is left. -/
theorem encode_more {n : ℕ} (h : 128 ≤ n) :
    encode n = UInt8.ofNat (n % 128 + 128) :: encode (n / 128) := by
  rw [encode, if_neg (by omega)]

/-- A number below a power of 128 takes no more bytes than its exponent. -/
theorem length_encode_le {n k : ℕ} (hk : 0 < k) (h : n < 128 ^ k) : (encode n).length ≤ k := by
  induction k generalizing n with
  | zero => omega
  | succ k ih =>
      rcases Nat.lt_or_ge n 128 with hn | hn
      · rw [encode_last hn, List.length_singleton]
        exact hk
      · rw [encode_more hn, List.length_cons]
        have hpos : 0 < k := by
          rcases k with - | k
          · omega
          · exact Nat.succ_pos k
        exact Nat.succ_le_succ (ih hpos (Nat.div_lt_of_lt_mul (by rwa [Nat.mul_comm, ← pow_succ])))

/-- **What was written is read back**, whatever follows it, where the decoder
takes as many bytes. -/
theorem decode_encode {n fuel : ℕ} (hfuel : 0 < fuel) (h : n < 128 ^ fuel) (multiplier : ℕ)
    (rest : List UInt8) :
    decode fuel multiplier (encode n ++ rest) = (n * multiplier, (encode n).length) := by
  induction fuel generalizing n multiplier with
  | zero => omega
  | succ fuel ih =>
      rcases Nat.lt_or_ge n 128 with hn | hn
      · obtain ⟨hlast, hlow⟩ := and_last hn
        rw [encode_last hn, decode]
        simp [hlast, hlow]
      · obtain ⟨hmore, hlow⟩ := and_more (Nat.mod_lt n (show 0 < 128 by omega))
        have hpos : 0 < fuel := by
          rcases fuel with - | fuel
          · omega
          · exact Nat.succ_pos fuel
        have hrest := ih hpos (Nat.div_lt_of_lt_mul (by rwa [Nat.mul_comm, ← pow_succ]))
          (multiplier * 128)
        have hsum : n % 128 * multiplier + n / 128 * (multiplier * 128) = n * multiplier := by
          conv_rhs => rw [← Nat.mod_add_div n 128]
          ring
        rw [encode_more hn, List.cons_append, decode, List.headD_cons, List.tail_cons, hlow,
          if_pos hmore, hrest, hsum]
        rfl

end Varint

end WeatherTerminal
