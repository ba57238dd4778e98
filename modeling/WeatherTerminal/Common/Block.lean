import Mathlib.Data.List.Basic
import Mathlib.Data.List.TakeWhile
import Mathlib.Tactic.Common
/-!
# Bounded memory blocks and the C string functions

A `Block n` is `n` bytes of memory. A store that falls outside it changes
no byte of it and is remembered in `overrun`, so that a run can be asked
afterwards whether every store landed where it was meant to. On top of it
stand the functions of `string.h` a C program reaches for: what they read
is the bytes up to the first NUL (`cstr`), and what they write is a
sequence of single stores (`storeAll`).

`Holds` is the reading the results are stated in: the block starts with a
given text and the text's NUL is inside the block.
-/

namespace WeatherTerminal

/-- `n` bytes of memory, which remember a store outside of them. -/
@[ext] structure Block (n : ℕ) where
  bytes : List UInt8
  length_eq : bytes.length = n
  /-- Some store fell outside the block. -/
  overrun : Bool
deriving DecidableEq

/-- The bytes of a string literal, as the compiler lays them down. -/
def utf8 (s : String) : List UInt8 := s.toUTF8.data.toList

/-- The C string that starts where the list starts, up to its first NUL. -/
def cstrOf (mem : List UInt8) : List UInt8 := mem.takeWhile (· ≠ 0)

/-- `strncmp(a, b, n) == 0` on the memory `a` and `b` point to. -/
def strncmpEq : ℕ → List UInt8 → List UInt8 → Bool
  | 0, _, _ => true
  | n + 1, a :: as, b :: bs =>
      if a ≠ b then false else if a = 0 then true else strncmpEq n as bs
  | _ + 1, _, _ => false

namespace Block

variable {n : ℕ}

/-- A block filled with one byte, as `memset` leaves it. -/
def filled (n : ℕ) (v : UInt8) : Block n where
  bytes := List.replicate n v
  length_eq := List.length_replicate
  overrun := false

/-- A text and zeros behind it, in a block that has room for it. -/
def holding (n : ℕ) (s : List UInt8) (h : s.length ≤ n) : Block n where
  bytes := s ++ List.replicate (n - s.length) 0
  length_eq := by
    rw [List.length_append, List.length_replicate, Nat.add_sub_cancel' h]
  overrun := false

/-- A store of one byte, which is remembered where it falls outside. -/
def store (b : Block n) (i : ℕ) (v : UInt8) : Block n where
  bytes := b.bytes.set i v
  length_eq := by rw [List.length_set, b.length_eq]
  overrun := b.overrun || decide (n ≤ i)

/-- Stores at `i`, `i + 1`, … of one byte each. -/
def storeAll (b : Block n) : ℕ → List UInt8 → Block n
  | _, [] => b
  | i, v :: vs => (b.store i v).storeAll (i + 1) vs

/-- The C string at offset `i`, up to its NUL or the end of the block. -/
def cstr (b : Block n) (i : ℕ) : List UInt8 := cstrOf (b.bytes.drop i)

/-- `strcpy` to offset `i`, with the NUL behind the text. -/
def strcpy (b : Block n) (i : ℕ) (s : List UInt8) : Block n := b.storeAll i (s ++ [0])

/-- `strcat` onto the string at offset `i`, over its NUL. -/
def strcat (b : Block n) (i : ℕ) (s : List UInt8) : Block n :=
  b.storeAll (i + (b.cstr i).length) (s ++ [0])

/-- `strncpy`: exactly `k` bytes, padded with NULs where the text is shorter.
-/
def strncpy (b : Block n) (i : ℕ) (s : List UInt8) (k : ℕ) : Block n :=
  b.storeAll i ((s ++ List.replicate k 0).take k)

/-- `strchr`: the offset of the first `c` of the string at `i`. -/
def strchr (b : Block n) (i : ℕ) (c : UInt8) : Option ℕ :=
  ((b.cstr i).idxOf? c).map (i + ·)

/-- `strrchr`: the offset of the last one, or none where it does not occur. -/
def strrchr (b : Block n) (i : ℕ) (c : UInt8) : Option ℕ :=
  ((b.cstr i).reverse.idxOf? c).map fun k => i + ((b.cstr i).length - 1 - k)

/-- The array of `size` bytes at offset `i` holds the text `s`, the text's
NUL inside the array. -/
def Holds (b : Block n) (i size : ℕ) (s : List UInt8) : Prop :=
  0 ∉ s ∧ s.length < size ∧ (b.bytes.drop i).take (s.length + 1) = s ++ [0]

end Block

/-! ## C strings -/

/-- A text with a NUL behind it is the string that starts there. -/
theorem cstrOf_append_zero {s rest : List UInt8} (hs : 0 ∉ s) :
    cstrOf (s ++ 0 :: rest) = s := by
  rw [cstrOf, List.takeWhile_append_of_pos, List.takeWhile_cons_of_neg (by simp),
    List.append_nil]
  intro a ha
  have : a ≠ 0 := fun h => hs (h ▸ ha)
  simpa using this

theorem zero_notMem_cstrOf (mem : List UInt8) : 0 ∉ cstrOf mem := by
  intro h
  have := List.mem_takeWhile_imp h
  simp at this

/-- A C string is no longer than the memory it starts in. -/
theorem cstrOf_length_le (mem : List UInt8) : (cstrOf mem).length ≤ mem.length :=
  List.Sublist.length_le (List.takeWhile_sublist _)

/-- **Comparing with a C string literal.** Over the length of the literal
`strncmp` finds no difference exactly where the bytes are the literal's. -/
theorem strncmpEq_literal {s : List UInt8} (hs : 0 ∉ s) (mem tail : List UInt8) :
    strncmpEq s.length mem (s ++ tail) = true ↔ mem.take s.length = s := by
  induction s generalizing mem with
  | nil => simp [strncmpEq]
  | cons c s ih =>
      have hc : c ≠ 0 := fun h => hs (by simp [h])
      have hs' : 0 ∉ s := fun h => hs (List.mem_cons_of_mem c h)
      cases mem with
      | nil => simp [strncmpEq]
      | cons a mem =>
          by_cases hac : a = c
          · subst hac
            simpa [strncmpEq, hc] using ih hs' mem
          · simp [strncmpEq, hac]

namespace Block

variable {n : ℕ} {b : Block n}

@[simp] theorem store_bytes (i : ℕ) (v : UInt8) : (b.store i v).bytes = b.bytes.set i v := rfl

theorem filled_bytes (v : UInt8) : (filled n v).bytes = List.replicate n v := rfl

/-! ## Where a run of stores lands -/

/-- A store outside a stretch of a list does not change the stretch. -/
theorem take_drop_set {js : List UInt8} {s k e : ℕ} {v : UInt8} (h : e < s ∨ s + k ≤ e) :
    ((js.set e v).drop s).take k = (js.drop s).take k := by
  refine List.ext_getElem? fun j => ?_
  by_cases hj : j < k
  · rw [List.getElem?_take_of_lt hj, List.getElem?_take_of_lt hj, List.getElem?_drop,
      List.getElem?_drop, List.getElem?_set_ne (by omega)]
  · rw [List.getElem?_take_eq_none (by omega), List.getElem?_take_eq_none (by omega)]

/-- **A run of stores touches no byte outside the stretch it covers.** -/
theorem take_drop_storeAll_apart {i j k : ℕ} {vs : List UInt8}
    (h : j + k ≤ i ∨ i + vs.length ≤ j) :
    ((b.storeAll i vs).bytes.drop j).take k = (b.bytes.drop j).take k := by
  induction vs generalizing b i with
  | nil => rfl
  | cons v vs ih =>
      rw [List.length_cons] at h
      rw [storeAll, ih (by omega), store_bytes, take_drop_set (by omega)]

/-- **And replaces the stretch it covers**, where the block has it. -/
theorem take_drop_storeAll {i : ℕ} {vs : List UInt8} (h : i + vs.length ≤ n) :
    ((b.storeAll i vs).bytes.drop i).take vs.length = vs := by
  induction vs generalizing b i with
  | nil => simp
  | cons v vs ih =>
      rw [List.length_cons] at h
      have hone : ((b.store i v).bytes.drop i).take 1 = [v] := by
        have hlt : i < (b.bytes.set i v).length := by
          rw [List.length_set, b.length_eq]
          omega
        rw [store_bytes, List.drop_eq_getElem_cons hlt, List.getElem_set_self]
        rfl
      rw [storeAll, List.length_cons, Nat.add_comm, List.take_add, List.drop_drop,
        take_drop_storeAll_apart (by omega), hone, ih (by omega)]
      rfl

/-- What stands before the stretch stays before it, and the stretch is what is
stored. -/
theorem take_storeAll (b : Block n) {i : ℕ} (vs : List UInt8) (h : i + vs.length ≤ n) :
    (b.storeAll i vs).bytes.take (i + vs.length) = b.bytes.take i ++ vs := by
  have hfront : ((b.storeAll i vs).bytes.drop 0).take i = (b.bytes.drop 0).take i :=
    take_drop_storeAll_apart (Or.inl (Nat.le_of_eq (Nat.zero_add i)))
  rw [List.drop_zero, List.drop_zero] at hfront
  rw [List.take_add, hfront, take_drop_storeAll h]

/-- **And it overruns exactly where it does not fit** the block from its
offset on. -/
theorem storeAll_overrun {i : ℕ} {vs : List UInt8} :
    (b.storeAll i vs).overrun = (b.overrun || (!vs.isEmpty && decide (n < i + vs.length))) := by
  induction vs generalizing b i with
  | nil => simp [storeAll]
  | cons v vs ih =>
      have hfit : (decide (n ≤ i) || (!vs.isEmpty && decide (n < i + 1 + vs.length))) =
          decide (n < i + (v :: vs).length) := by
        cases vs with
        | nil =>
            simp only [List.isEmpty_nil, Bool.not_true, Bool.false_and, Bool.or_false,
              List.length_singleton, Nat.lt_succ_iff]
        | cons w ws =>
            simp only [List.isEmpty_cons, Bool.not_false, Bool.true_and, List.length_cons,
              ← Bool.decide_or, decide_eq_decide]
            omega
      rw [storeAll, ih, store, Bool.or_assoc, hfit]
      simp

/-! ## Texts a block holds -/

variable {i size : ℕ} {s t : List UInt8}

/-- An array that holds a text has it as its string. -/
theorem Holds.cstr (h : b.Holds i size s) : b.cstr i = s := by
  obtain ⟨hs, -, hb⟩ := h
  have hsplit : b.bytes.drop i = s ++ 0 :: (b.bytes.drop i).drop (s.length + 1) := by
    conv_lhs => rw [← List.take_append_drop (s.length + 1) (b.bytes.drop i), hb]
    simp
  rw [Block.cstr, hsplit, cstrOf_append_zero hs]

theorem Holds.unique (hs : b.Holds i size s) (ht : b.Holds i size t) : s = t :=
  hs.cstr.symm.trans ht.cstr

/-- **Stores outside the array leave its text**, whether before it or behind.
-/
theorem Holds.storeAll {j : ℕ} {vs : List UInt8} (h : b.Holds i size s)
    (hapart : i + size ≤ j ∨ j + vs.length ≤ i) : (b.storeAll j vs).Holds i size s := by
  obtain ⟨hs, hfit, hb⟩ := h
  exact ⟨hs, hfit, by rw [take_drop_storeAll_apart (by omega), hb]⟩

/-- **`strcpy` of a text that fits** leaves it in the array. -/
theorem holds_strcpy (hs : 0 ∉ s) (hfit : s.length < size) (hin : i + size ≤ n) :
    (b.strcpy i s).Holds i size s := by
  refine ⟨hs, hfit, ?_⟩
  have h : ((b.strcpy i s).bytes.drop i).take (s ++ [0]).length = s ++ [0] :=
    take_drop_storeAll (by simp; omega)
  rwa [List.length_append, List.length_singleton] at h

/-! ## Reading strings -/

/-- A store behind the NUL of a string does not change it. -/
theorem cstrOf_set {l : List UInt8} {k : ℕ} {v : UInt8} (h : (cstrOf l).length < k) :
    cstrOf (l.set k v) = cstrOf l := by
  induction l generalizing k with
  | nil => rfl
  | cons a l ih =>
      rcases k with - | k
      · omega
      · by_cases ha : a = 0
        · simp [cstrOf, ha]
        · have hcons : ∀ l', cstrOf (a :: l') = a :: cstrOf l' := fun l' => by
            simp [cstrOf, ha]
          rw [hcons, List.length_cons] at h
          rw [List.set_cons_succ, hcons, hcons, ih (by omega)]

/-- A NUL stored into a string cuts it at that place. -/
theorem cstrOf_set_zero {l : List UInt8} {k : ℕ} (h : k ≤ (cstrOf l).length) :
    cstrOf (l.set k 0) = (cstrOf l).take k := by
  induction l generalizing k with
  | nil => simp [cstrOf]
  | cons a l ih =>
      rcases k with - | k
      · simp [cstrOf]
      · have ha : a ≠ 0 := by
          rintro rfl
          simp [cstrOf] at h
        have hcons : ∀ l', cstrOf (a :: l') = a :: cstrOf l' := fun l' => by
          simp [cstrOf, ha]
        rw [hcons, List.length_cons] at h
        rw [List.set_cons_succ, hcons, hcons, List.take_succ_cons, ih (by omega)]

/-- What follows in a string is a string, with the same end. -/
theorem cstrOf_drop {l : List UInt8} {k : ℕ} (h : k ≤ (cstrOf l).length) :
    cstrOf (l.drop k) = (cstrOf l).drop k := by
  induction l generalizing k with
  | nil => simp [cstrOf]
  | cons a l ih =>
      rcases k with - | k
      · rfl
      · have ha : a ≠ 0 := by
          rintro rfl
          simp [cstrOf] at h
        have hcons : cstrOf (a :: l) = a :: cstrOf l := by simp [cstrOf, ha]
        rw [hcons, List.length_cons] at h
        rw [List.drop_succ_cons, hcons, List.drop_succ_cons, ih (by omega)]

/-- The string from a later offset is what is left of the one from before. -/
theorem cstr_add {p k : ℕ} (h : k ≤ (b.cstr p).length) : b.cstr (p + k) = (b.cstr p).drop k := by
  rw [cstr, ← List.drop_drop, cstrOf_drop h, cstr]

/-- **A store outside a string and its NUL leaves it.** -/
theorem cstr_store_apart {p e : ℕ} {v : UInt8} (h : e < p ∨ p + (b.cstr p).length < e) :
    (b.store e v).cstr p = b.cstr p := by
  rw [cstr, store_bytes, List.drop_set]
  rcases h with hlt | hlt
  · rw [if_pos hlt, cstr]
  · rw [if_neg (by omega), cstrOf_set, cstr]
    rw [cstr] at hlt
    omega

/-- **And a NUL inside cuts it**, at the place where it is stored. -/
theorem cstr_store_zero {p k : ℕ} (h : k ≤ (b.cstr p).length) :
    (b.store (p + k) 0).cstr p = (b.cstr p).take k := by
  rw [cstr, store_bytes, List.drop_set, if_neg (by omega), Nat.add_sub_cancel_left,
    cstrOf_set_zero h, cstr]

/-! ## Searching strings -/

/-- A byte that does not occur before is found where it stands. -/
theorem idxOf?_append_cons {c : UInt8} {s : List UInt8} (t : List UInt8) (hs : c ∉ s) :
    (s ++ c :: t).idxOf? c = some s.length := by
  induction s with
  | nil => simp [List.idxOf?_cons]
  | cons a s ih =>
      obtain ⟨ha, hs⟩ := not_or.mp (mt List.mem_cons.mpr hs)
      rw [List.cons_append, List.idxOf?_cons, ih hs, if_neg (by simpa using Ne.symm ha)]
      rfl

/-- A byte that does not occur in a string is not found from its start. -/
theorem strchr_eq_none {p : ℕ} {c : UInt8} (h : c ∉ b.cstr p) : b.strchr p c = none := by
  rw [strchr, List.idxOf?_eq_none_iff.mpr h, Option.map_none]

theorem strrchr_eq_none {p : ℕ} {c : UInt8} (h : c ∉ b.cstr p) : b.strrchr p c = none := by
  rw [strrchr, List.idxOf?_eq_none_iff.mpr (by simpa using h), Option.map_none]

/-- The first of a byte is found where nothing before is the same. -/
theorem strchr_eq_some {p : ℕ} {c : UInt8} {s t : List UInt8} (hb : b.cstr p = s ++ c :: t)
    (hs : c ∉ s) : b.strchr p c = some (p + s.length) := by
  rw [strchr, hb, idxOf?_append_cons t hs, Option.map_some]

/-- The last of a byte is found where nothing behind is the same. -/
theorem strrchr_eq_some {p : ℕ} {c : UInt8} {s t : List UInt8} (hb : b.cstr p = s ++ c :: t)
    (ht : c ∉ t) : b.strrchr p c = some (p + s.length) := by
  have hrev : (s ++ c :: t).reverse = t.reverse ++ c :: s.reverse := by simp
  rw [strrchr, hb, hrev, idxOf?_append_cons s.reverse (by simpa using ht), Option.map_some]
  simp only [List.length_append, List.length_cons, List.length_reverse, Option.some.injEq]
  omega

/-! ## Strings in the making -/

/-- What a run of stores leaves at each place: what is stored there, or what
was. -/
theorem storeAll_getElem? {j : ℕ} {vs : List UInt8} (hj : j < n) :
    (b.storeAll i vs).bytes[j]? = if i ≤ j ∧ j < i + vs.length then vs[j - i]?
      else b.bytes[j]? := by
  induction vs generalizing b i with
  | nil => rw [storeAll, if_neg (by simp only [List.length_nil]; omega)]
  | cons v vs ih =>
      rw [storeAll, ih, store_bytes, List.length_cons]
      by_cases hji : j = i
      · subst hji
        rw [if_neg (by omega), if_pos (by omega), Nat.sub_self,
          List.getElem?_set_self (by rw [b.length_eq]; exact hj)]
        rfl
      · rw [List.getElem?_set_ne (Ne.symm hji)]
        by_cases hin : i + 1 ≤ j ∧ j < i + 1 + vs.length
        · have hsub : j - i = j - (i + 1) + 1 := by omega
          rw [if_pos hin, if_pos (by omega), hsub, List.getElem?_cons_succ]
        · rw [if_neg hin, if_neg (by omega)]

/-- The string that has been copied is there, where the block has room for it.
-/
theorem cstr_strcpy (hs : 0 ∉ s) (hin : i + s.length < n) : (b.strcpy i s).cstr i = s :=
  (holds_strcpy hs (Nat.lt_succ_self s.length) (by omega)).cstr

/-- A string that fills the block to its end is read up to there. -/
theorem length_cstr_strcpy (hs : 0 ∉ s) (hi : i ≤ n) (hin : n ≤ i + s.length) :
    ((b.strcpy i s).cstr i).length = n - i := by
  have hdrop : (b.strcpy i s).bytes.drop i = s.take (n - i) := by
    refine List.ext_getElem? fun j => ?_
    rw [List.getElem?_drop]
    by_cases hj : i + j < n
    · rw [strcpy, storeAll_getElem? hj, if_pos (by simp; omega), Nat.add_sub_cancel_left,
        List.getElem?_append_left (by omega), List.getElem?_take_of_lt (by omega)]
    · rw [List.getElem?_eq_none (by rw [(b.strcpy i s).length_eq]; omega),
        List.getElem?_take_eq_none (by omega)]
  have hall : cstrOf (s.take (n - i)) = s.take (n - i) := by
    rw [cstrOf, List.takeWhile_eq_self_iff]
    intro a ha
    have : a ≠ 0 := fun h => hs (h ▸ List.mem_of_mem_take ha)
    simpa using this
  rw [cstr, hdrop, hall, List.length_take]
  omega

/-- A copy overruns where the text and its NUL do not fit. -/
theorem strcpy_overrun :
    (b.strcpy i s).overrun = (b.overrun || decide (n < i + s.length + 1)) := by
  have hne : (s ++ [0]).isEmpty = false := by
    cases s <;> rfl
  rw [strcpy, storeAll_overrun, hne, List.length_append, List.length_singleton, Nat.add_assoc]
  rfl

/-- **`strcpy` and `strcat` write one text**, also where it does not fit. -/
theorem strcat_strcpy (hs : 0 ∉ s) (hi : i ≤ n) :
    (b.strcpy i s).strcat i t = b.strcpy i (s ++ t) := by
  obtain ⟨e, hend, he⟩ : ∃ e, i + ((b.strcpy i s).cstr i).length = e ∧
      (e = i + s.length ∧ e < n ∨ e = n ∧ n ≤ i + s.length) := by
    rcases Nat.lt_or_ge (i + s.length) n with hlt | hge
    · exact ⟨i + s.length, by rw [cstr_strcpy hs hlt], Or.inl ⟨rfl, hlt⟩⟩
    · exact ⟨n, by rw [length_cstr_strcpy hs hi hge]; omega, Or.inr ⟨rfl, hge⟩⟩
  have hcat : (b.strcpy i s).strcat i t = (b.strcpy i s).strcpy e t := by
    rw [strcat, hend]
    rfl
  rw [hcat]
  refine Block.ext (List.ext_getElem? fun j => ?_) ?_
  · rcases Nat.lt_or_ge j n with hj | hj
    · rw [strcpy, strcpy, strcpy, storeAll_getElem? hj, storeAll_getElem? hj,
        storeAll_getElem? hj]
      simp only [List.length_append, List.length_singleton]
      by_cases h1 : i + s.length ≤ j ∧ j < i + s.length + (t.length + 1)
      · have hindex : j - i - s.length = j - e := by omega
        rw [if_pos (by omega), if_pos (by omega), List.append_assoc s t,
          List.getElem?_append_right (show s.length ≤ j - i by omega), hindex]
      · rw [if_neg (by omega)]
        by_cases h2 : i ≤ j ∧ j < i + s.length
        · rw [if_pos (by omega), if_pos (by omega), List.append_assoc,
            List.getElem?_append_left (by omega), List.getElem?_append_left (by omega)]
        · rw [if_neg (by omega), if_neg (by omega)]
    · rw [List.getElem?_eq_none (by rw [Block.length_eq]; exact hj),
        List.getElem?_eq_none (by rw [Block.length_eq]; exact hj)]
  · rw [strcpy_overrun, strcpy_overrun, strcpy_overrun, Bool.or_assoc, ← Bool.decide_or,
      List.length_append]
    congr 2
    refine propext ?_
    omega

/-- **And a text the array holds behind a `strcpy` is the one copied**,
and fits. -/
theorem holds_strcpy_iff (hs : 0 ∉ s) (hin : i + size ≤ n) :
    (b.strcpy i s).Holds i size t ↔ s = t ∧ s.length < size := by
  constructor
  · intro h
    by_cases hfit : s.length < size
    · exact ⟨(holds_strcpy hs hfit hin).unique h, hfit⟩
    · -- a text that is too long leaves no NUL in the array
      obtain ⟨-, hlen, hb⟩ := h
      have hzero : (b.strcpy i s).bytes[i + t.length]? = some 0 := by
        have := congrArg (·[t.length]?) hb
        simpa [List.getElem?_take_of_lt] using this
      have hbyte : (b.strcpy i s).bytes[i + t.length]? = s[t.length]? := by
        rw [strcpy, storeAll_getElem? (by omega), if_pos (by simp; omega),
          Nat.add_sub_cancel_left, List.getElem?_append_left (by omega)]
      exact absurd (List.mem_of_getElem? (hbyte.symm.trans hzero)) hs
  · rintro ⟨rfl, hfit⟩
    exact holds_strcpy hs hfit hin

end Block

end WeatherTerminal
