import WeatherTerminal.Common.Follows
import WeatherTerminal.Jsmn.Lookup
import WeatherTerminal.Jsmn.Model.Walk
/-!
# jsmn — chains of lookups

A chain of lookups follows the reading of the forest (`Follows`): an item
that was not found stops it at the next use of the item, and a string it
has fetched stays the text of its token, whatever is terminated later.
-/

namespace WeatherTerminal

namespace Jsmn

variable {n : ℕ} {js₀ : List UInt8} {tokens : List JsmnTok} {js js' : Block n} {k : ℕ}
  {key : List UInt8}

/-! ## Counts -/

/-- An error code is negative, so no count is mistaken for one. -/
theorem JsmnErr.code_neg (e : JsmnErr) : e.code < 0 := by
  cases e <;> decide

/-- The only fault of a parse is a byte read past the block. -/
theorem tokensLen_error {js : List UInt8} {len : ℕ} {granted : Bool} {e : Fault}
    (h : tokensLen js len granted = .error e) : e = .overread := by
  rw [tokensLen] at h
  split at h
  · cases h
  · cases h
  · exact (Except.error.inj h).symm
  · rename_i hwild
    exact absurd rfl (jsmnParse_regular hwild).1

/-- The tokens of a parse that counts some are those of a text it accepts. -/
theorem tokensLen_ok {js : List UInt8} {len : ℕ} {n : ℤ} {filled : List JsmnTok}
    (h : tokensLen js len true = .ok (n, filled)) (hpos : 0 < n) :
    jsmnParse js len (some numTokens) = .ok (filled.length, filled) ∧ n = filled.length ∧
      Accepted js filled ∧ filled ≠ [] := by
  rw [tokensLen, if_pos rfl] at h
  split at h
  · rename_i count tokens hparse
    obtain ⟨rfl, rfl⟩ := Prod.mk.inj (Except.ok.inj h)
    obtain ⟨hcount, hacc⟩ := jsmnParse_ok hparse
    subst hcount
    refine ⟨hparse, rfl, hacc, fun hnil => ?_⟩
    rw [hnil] at hpos
    exact Int.lt_irrefl 0 hpos
  · rename_i e _
    obtain ⟨rfl, -⟩ := Prod.mk.inj (Except.ok.inj h)
    cases e <;> exact absurd hpos (by decide)
  · cases h
  · cases h

/-! ## Terminated strings -/

/-- A string that ends at `e` is terminated: by a NUL, or by the end of
the block. -/
def Ended (js : Block n) (e : ℕ) : Prop := js.bytes[e]? = some 0 ∨ n ≤ e

/-- What terminators may do to a buffer: the scalars stay, and an end that has
been set stays set. -/
def Later (tokens : List JsmnTok) (js js' : Block n) : Prop :=
  Intact tokens js.bytes js'.bytes ∧ ∀ e, Ended js e → Ended js' e

/-- Doing nothing is one of the things. -/
theorem Later.refl (js : Block n) : Later tokens js js :=
  ⟨Intact.refl tokens _, fun _ => id⟩

theorem Later.trans {js'' : Block n} (h : Later tokens js js') (h' : Later tokens js' js'') :
    Later tokens js js'' :=
  ⟨h.1.trans h'.1, fun e he => h'.2 e (h.2 e he)⟩

/-- A terminator at the end of a scalar leaves every scalar, and ends that
one. -/
theorem Later.store (hlaid : IsLaid js₀ tokens) {t : JsmnTok} (ht : tokens[k]? = some t)
    (hs : t.isScalar) (js : Block n) :
    Later tokens js (js.store (t.stop.getD 0) 0) ∧ Ended (js.store (t.stop.getD 0) 0)
      (t.stop.getD 0) := by
  refine ⟨⟨Intact.set_stop hlaid ht hs 0, ?_⟩, ?_⟩
  · rintro e (he | he)
    · by_cases heq : t.stop.getD 0 = e
      · refine Or.inl ?_
        rw [Block.store_bytes, heq, List.getElem?_set_self (List.getElem?_eq_some_iff.mp he).1]
      · exact Or.inl (by rw [Block.store_bytes, List.getElem?_set_ne heq, he])
    · exact Or.inr he
  · rcases Nat.lt_or_ge (t.stop.getD 0) n with hlt | hge
    · refine Or.inl ?_
      rw [Block.store_bytes, List.getElem?_set_self (by rw [js.length_eq]; exact hlt)]
    · exact Or.inr hge

/-! ## What a chain keeps -/

/-- The buffer still holds the scalars of the text it was parsed from. -/
def stillIntact (n : ℕ) (js₀ : List UInt8) (tokens : List JsmnTok) :
    Lasting (Later (n := n) tokens) where
  holds js := Intact tokens js₀ js.bytes
  lasts hle h := h.trans hle.1

/-- An item variable stands for a token: `none` for none. -/
def IsItem (tokens : List JsmnTok) (a : Option JsmnItem) (i : Option ℕ) : Prop :=
  a = i.map (itemAt tokens) ∧ ∀ j, i = some j → j < tokens.length

/-- The string fetched for key `k`: it stands where its scalar does, and is
ended there. -/
def fetched (n : ℕ) (tokens : List JsmnTok) (a : Option ℕ) (k : ℕ) :
    Lasting (Later (n := n) tokens) where
  holds js := a = (scalarOf tokens k).map (·.start) ∧
    ∀ t, scalarOf tokens k = some t → Ended js (t.stop.getD 0)
  lasts hle h := ⟨h.1, fun t ht => hle.2 _ (h.2 t ht)⟩

/-- The item a walk starts from is the one of the first token. -/
theorem itemAt_zero {len : ℤ} (h : len = tokens.length) :
    jsmnItemInit 0 0 len = itemAt tokens 0 := by
  simp [jsmnItemInit, itemAt, h]

/-- That item stands for the root, where there is a token at all. -/
theorem isItem_root (hne : tokens ≠ []) :
    IsItem tokens (some (jsmnItemInit 0 0 tokens.length)) (some 0) := by
  refine ⟨by rw [itemAt_zero rfl]; rfl, ?_⟩
  rintro j ⟨⟩
  exact List.length_pos_iff.mpr hne

/-- **A fetched string is the text of the key**, up to the NUL that has been
put behind it. -/
theorem cstr_of_fetched (hacc : Accepted js₀ tokens) (hint : Intact tokens js₀ js.bytes)
    {a : Option ℕ} (hf : (fetched n tokens a k).holds js) :
    a.map js.cstr = textOf js₀ tokens k := by
  obtain ⟨rfl, hended⟩ := hf
  rw [textOf]
  cases hsc : scalarOf tokens k with
  | none => rfl
  | some t =>
      obtain ⟨ht, hs⟩ := scalarOf_spec hacc.forest hsc
      obtain ⟨e, he⟩ := hacc.laid.covers ht hs
      have hend := hended t hsc
      rw [he.stop_eq, Option.getD_some] at hend
      exact congrArg some (cstr_eq_raw hacc.laid hint ht hs he.stop_eq hend)

/-! ## The links of a chain -/

variable {F : Lasting (Later (n := n) tokens)} {a : Option JsmnItem} {i : Option ℕ}

theorem follows_getObjectItem (hacc : Accepted js₀ tokens)
    (hF : ∀ js, F.holds js → Intact tokens js₀ js.bytes) (hi : IsItem tokens a i)
    (hkey : 0 ∉ key) :
    Follows F (getObjectItem (some tokens) a key) .unfilledItem
      (i.map fun j => memberOf js₀ tokens j key)
      (fun a i => Lasting.pure _ (IsItem tokens a i)) := by
  intro js hjs
  obtain ⟨rfl, hlt⟩ := hi
  cases i with
  | none => rfl
  | some j =>
      refine ⟨(memberOf js₀ tokens j key).map (itemAt tokens), js, ?_, Later.refl js, rfl, ?_⟩
      · rw [getObjectItem, Option.map_some,
          jsmnGetObjectItem_eq hacc (hF js hjs) hkey (hlt j rfl)]
        rfl
      · intro k hk
        obtain ⟨o, ho, hfind⟩ := Option.bind_eq_some_iff.mp hk
        exact lt_of_mem_childrenOf (List.mem_of_find?_eq_some hfind)

theorem follows_getArrayItem (hacc : Accepted js₀ tokens) (hi : IsItem tokens a i)
    (index : ℕ) :
    Follows F (getArrayItem (some tokens) a index) .unfilledItem
      (i.map fun j => elemOf tokens j index)
      (fun a i => Lasting.pure _ (IsItem tokens a i)) := by
  intro js _
  obtain ⟨rfl, hlt⟩ := hi
  cases i with
  | none => rfl
  | some j =>
      refine ⟨(elemOf tokens j index).map (itemAt tokens), js, ?_, Later.refl js, rfl, ?_⟩
      · rw [getArrayItem, Option.map_some, jsmnGetArrayItem_eq hacc.forest (hlt j rfl)]
        rfl
      · intro k hk
        obtain ⟨o, ho, hget⟩ := Option.bind_eq_some_iff.mp hk
        exact lt_of_mem_childrenOf (List.mem_of_getElem? hget)

theorem follows_getValueString (hacc : Accepted js₀ tokens) (hi : IsItem tokens a i) :
    Follows F (getValueString (some tokens) a) .unfilledItem i (fetched n tokens) := by
  intro js _
  obtain ⟨rfl, hlt⟩ := hi
  cases i with
  | none => rfl
  | some k =>
      have hrun := jsmnGetValueString_eq hacc.forest js (hlt k rfl)
      cases hsc : scalarOf tokens k with
      | none =>
          refine ⟨none, js, ?_, Later.refl js, ?_⟩
          · rw [getValueString, Option.map_some, hrun, hsc]
            rfl
          · exact ⟨by rw [hsc]; rfl, fun t ht => by rw [hsc] at ht; cases ht⟩
      | some t =>
          obtain ⟨ht, hs⟩ := scalarOf_spec hacc.forest hsc
          obtain ⟨hlater, hended⟩ := Later.store hacc.laid ht hs js
          refine ⟨some t.start, js.store (t.stop.getD 0) 0, ?_, hlater, ?_⟩
          · rw [getValueString, Option.map_some, hrun, hsc]
            rfl
          · refine ⟨by rw [hsc]; rfl, fun u hu => ?_⟩
            rw [hsc] at hu
            exact Option.some.inj hu ▸ hended

/-- The two calls of a lookup fetch the text of the member. -/
theorem follows_getMemberString (hacc : Accepted js₀ tokens)
    (hF : ∀ js, F.holds js → Intact tokens js₀ js.bytes) (hi : IsItem tokens a i)
    (hkey : 0 ∉ key) :
    Follows F (getMemberString (some tokens) a key) .unfilledItem
      (i.bind fun j => memberOf js₀ tokens j key) (fetched n tokens) := by
  have h : Follows F (getMemberString (some tokens) a key) .unfilledItem
      ((i.map fun j => memberOf js₀ tokens j key) >>= id) (fetched n tokens) :=
    (follows_getObjectItem hacc hF hi hkey).bind_pure Later.trans
      fun _ _ hai => follows_getValueString hacc hai
  rcases i with - | j <;> exact h

end Jsmn

end WeatherTerminal
