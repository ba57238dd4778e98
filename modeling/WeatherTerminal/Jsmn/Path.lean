import WeatherTerminal.Jsmn.Lookup
import WeatherTerminal.Jsmn.Mirror
/-!
# jsmn — the forest of a document is the document

A value of a document stands at a token (`Stands`) where its tokens and
its text are found from there on and nothing behind them hangs under it.
The reading of the forest (`Model/Reading.lean`) then finds under that
token what the document has under the value: the member under a key, the
element at an index, the text of a scalar.
-/

namespace WeatherTerminal

namespace Jsmn

variable {js : List UInt8} {tokens post ts : List JsmnTok} {i k o lo hi : ℕ}
  {key : List UInt8} {v v' : Value}

/-- No token hangs under one of `lo`, …, `hi - 1`. -/
def Outside (ts : List JsmnTok) (lo hi : ℕ) : Prop :=
  ∀ u ∈ ts, ∀ q, u.parent = some q → q < lo ∨ hi ≤ q

/-- **The value `v` stands at token `i`**: its tokens are there, and its text
where they say. -/
def Stands (js : List UInt8) (tokens : List JsmnTok) (i : ℕ) (v : Value) : Prop :=
  ∃ pos parent post rest, tokens.drop i = v.tokens pos i parent ++ post ∧
    js.drop pos = v.render ++ rest ∧ Outside post i (i + v.size)

/-- Token `k` is a key, and `v` its value, with the token right behind it. -/
structure IsKey (js : List UInt8) (tokens : List JsmnTok) (k : ℕ) (v : Value) : Prop where
  isString : hasType tokens .string k = true
  valueOf_eq : valueOf tokens k = some (k + 1)
  stands : Stands js tokens (k + 1) v

/-- An item at token `i` stands for `v`: as itself, or as its key. -/
def Denotes (js : List UInt8) (tokens : List JsmnTok) (i : ℕ) (v : Value) : Prop :=
  Stands js tokens i v ∨ IsKey js tokens i v

/-- Two rows of tokens with their parents outside a stretch are one. -/
theorem Outside.append {us : List JsmnTok} (ht : Outside ts lo hi) (hu : Outside us lo hi) :
    Outside (ts ++ us) lo hi := by
  intro u hmem q hq
  rcases List.mem_append.mp hmem with h | h
  · exact ht u h q hq
  · exact hu u h q hq

/-- Tokens under one before `lo`, or under their own, are outside. -/
theorem Hangs.outside {parent : Option ℕ} (h : Hangs parent i ts)
    (hparent : ∀ q, parent = some q → q < lo) (hle : hi ≤ i) : Outside ts lo hi := by
  intro u hu q hq
  obtain ⟨j, hj, rfl⟩ := List.mem_iff_getElem.mp hu
  obtain ⟨-, hpar⟩ := h j _ (List.getElem?_eq_getElem hj)
  rcases hpar with hpar | ⟨q', hq', hlo, -⟩
  · exact Or.inl (hparent q (hpar ▸ hq))
  · obtain rfl := Option.some.inj (hq'.symm.trans hq)
    exact Or.inr (by omega)

/-- What is outside a stretch is outside a shorter one. -/
theorem Outside.mono {lo' hi' : ℕ} (h : Outside ts lo hi) (hlo : lo ≤ lo') (hhi : hi' ≤ hi) :
    Outside ts lo' hi' := by
  intro u hu q hq
  rcases h u hu q hq with h | h
  · exact Or.inl (by omega)
  · exact Or.inr (by omega)

/-- What is outside has no child to look for, so a search for children passes
over it. -/
theorem Outside.findIdxs {s : ℕ} (h : Outside ts lo hi) (ho : lo ≤ o) (ho' : o < hi) :
    ts.findIdxs (fun t => t.parent = some o) s = [] := by
  rw [List.findIdxs_eq_nil_iff]
  intro u hu
  rw [decide_eq_false_iff_not]
  intro hq
  rcases h u hu o hq with h | h <;> omega

/-- The tokens of a value under another token have none either. -/
theorem Hangs.findIdxs {parent : Option ℕ} {s : ℕ} (h : Hangs parent i ts)
    (hparent : parent ≠ some o) (ho : o < i) :
    ts.findIdxs (fun t => t.parent = some o) s = [] := by
  rw [List.findIdxs_eq_nil_iff]
  intro u hu
  rw [decide_eq_false_iff_not]
  intro hq
  obtain ⟨j, hj, rfl⟩ := List.mem_iff_getElem.mp hu
  rcases (h j _ (List.getElem?_eq_getElem hj)).2 with hpar | ⟨q, hq', hlo, -⟩
  · exact hparent (hpar ▸ hq)
  · have := Option.some.inj (hq'.symm.trans hq)
    omega

/-- What is left of a list behind its next part. -/
theorem drop_add {α : Type} {l a b : List α} {n : ℕ} (h : l.drop n = a ++ b) :
    l.drop (n + a.length) = b := by
  rw [← List.drop_drop, h, List.drop_left]

/-- The bytes a token covers, where the text it starts at is known. -/
theorem raw_of_drop {t : JsmnTok} {a b : List UInt8} (h : js.drop t.start = a ++ b)
    (hstop : t.stop = some (t.start + a.length)) : t.raw js = a := by
  rw [JsmnTok.raw, h, hstop, Option.getD_some, Nat.add_sub_cancel_left, List.take_left]

/-! ## Members -/

/-- Where the parts of a member stand in the text. -/
theorem drop_member {b₁ b₂ b₃ b₄ : Blank} {k : Text} {w : Value} {ms : Members} {pos : ℕ}
    {rest : List UInt8} (h : js.drop pos = (Members.cons b₁ k b₂ b₃ w b₄ ms).render ++ rest) :
    (∃ r, js.drop (keyPos b₁ pos) = k.bytes ++ r) ∧
    (∃ r, js.drop (valuePos b₁ k b₂ b₃ pos) = w.render ++ r) ∧
    js.drop (valuePos b₁ k b₂ b₃ pos + w.render.length + b₄.bytes.length + ms.sep.length) =
      ms.render ++ rest := by
  simp only [Members.render, List.append_assoc, List.cons_append] at h
  have hkey := drop_add (a := [quote]) (drop_add h)
  have hval := drop_add (drop_add (a := [colon]) (drop_add (drop_add (a := [quote])
    (drop_add hkey))))
  exact ⟨⟨_, hkey⟩, ⟨_, hval⟩, drop_add (drop_add (drop_add hval))⟩

/-- **The search among the members of an object finds the one under
`key`**, and the key's value stands behind it. -/
theorem members_find (hf : IsForest tokens) :
    ∀ (ms : Members) {pos i : ℕ} {post : List JsmnTok} {rest : List UInt8},
      tokens.drop i = ms.tokens pos i o ++ post → js.drop pos = ms.render ++ rest → o < i →
      Outside post o (i + ms.size) → ∀ {v : Value}, ms.find key = some v →
      ∃ k, ((tokens.drop i).findIdxs (fun t => t.parent = some o) i).find? (fun k =>
          tokens[k]?.any fun t => t.type = .string ∧ t.raw js = key) = some k ∧
        IsKey js tokens k v := by
  intro ms
  cases ms with
  | nil =>
      intro pos i post rest _ _ _ _ v hv
      cases hv
  | cons b₁ k b₂ b₃ w b₄ ms =>
      intro pos i post rest htok hjs ho hout v hv
      rw [Members.tokens, List.cons_append, List.append_assoc] at htok
      rw [Members.size] at hout
      obtain ⟨⟨_, hjkey⟩, ⟨r, hjval⟩, hjrest⟩ := drop_member hjs
      have hkey := getElem?_of_drop htok
      have hval : tokens.drop (i + 1) = _ := drop_add (a := [_]) htok
      have hmem := drop_add hval
      rw [w.length_tokens] at hmem
      have hraw := raw_of_drop (t := keyTok o b₁ k pos 1) hjkey rfl
      rw [htok, List.findIdxs_cons, if_pos (decide_eq_true rfl), List.find?_cons, hkey]
      by_cases hk : k.bytes = key
      · -- it is this one
        rw [Members.find, if_pos hk] at hv
        obtain rfl := Option.some.inj hv
        refine ⟨i, ?_, ?_, ?_, ?_⟩
        · -- the head is the first string under the object, and has the key
          change (match decide (JsmnType.string = JsmnType.string ∧ (keyTok o b₁ k pos 1).raw js =
            key) with | true => _ | false => _) = _
          rw [hraw, decide_eq_true ⟨rfl, hk⟩]
        · rw [hasType_iff hkey]
        · rw [valueOf_eq hf hkey, if_pos ⟨rfl, rfl⟩]
        · refine ⟨_, _, _, r, hval, hjval, Outside.append ?_ (hout.mono (by omega) (by omega))⟩
          refine (ms.hangs _ _ _).outside ?_ (Nat.le_refl _)
          intro q hq
          have := Option.some.inj hq
          omega
      · -- it stands behind this one's value
        rw [Members.find, if_neg hk] at hv
        obtain ⟨k', hfind, hiskey⟩ := members_find hf ms hmem hjrest (by omega)
          (hout.mono (Nat.le_refl _) (by omega)) hv
        refine ⟨k', ?_, hiskey⟩
        rw [hmem] at hfind
        change (match decide (JsmnType.string = JsmnType.string ∧ (keyTok o b₁ k pos 1).raw js =
            key) with | true => _ | false => _) = _
        rw [hraw, decide_eq_false (fun h => hk h.2), List.findIdxs_append,
          (w.hangs _ _ _).findIdxs (by simp; omega) (by omega), w.length_tokens, List.nil_append]
        exact hfind

/-- The root of an object's members is looked for behind the object. -/
theorem memberOf_of_stands (hf : IsForest tokens) {b : Blank} {ms : Members}
    (hst : Stands js tokens o (.object b ms)) (hv : ms.find key = some v) :
    ∃ k, ((childrenOf tokens o).find? fun k =>
        tokens[k]?.any fun t => t.type = .string ∧ t.raw js = key) = some k ∧
      IsKey js tokens k v := by
  obtain ⟨pos, parent, post, rest, htok, hjs, hout⟩ := hst
  rw [Value.tokens] at htok
  rw [Value.size] at hout
  rw [Value.render, List.cons_append, List.append_assoc, List.append_assoc] at hjs
  have hmem : tokens.drop (o + 1) = _ := drop_add (a := [_]) htok
  rw [childrenOf_eq_drop hf]
  exact members_find hf ms hmem (drop_add (drop_add (a := [lbrace]) hjs)) (by omega)
    (hout.mono (Nat.le_refl _) (by omega)) hv

/-- What an object or array stands at has its type. -/
theorem Stands.hasType {type : JsmnType} {b : Blank} (hst : Stands js tokens i v)
    (hv : (type = .object ∧ ∃ ms, v = .object b ms) ∨ type = .array ∧ ∃ es, v = .array b es) :
    hasType tokens type i = true := by
  obtain ⟨pos, parent, post, rest, htok, -, -⟩ := hst
  rcases hv with ⟨rfl, ms, rfl⟩ | ⟨rfl, es, rfl⟩ <;>
    exact (hasType_iff (getElem?_of_drop htok)).mpr rfl

/-- The container an item stands for is where its value stands. -/
theorem Denotes.containerOf {type : JsmnType} {b : Blank} (hden : Denotes js tokens i v)
    (hv : (type = .object ∧ ∃ ms, v = .object b ms) ∨ type = .array ∧ ∃ es, v = .array b es) :
    ∃ o, containerOf tokens type i = some o ∧ Stands js tokens o v := by
  have hstring : type ≠ .string := by
    rcases hv with ⟨rfl, -⟩ | ⟨rfl, -⟩ <;> decide
  rcases hden with hst | hkey
  · exact ⟨i, by rw [Jsmn.containerOf, if_pos (hst.hasType hv)], hst⟩
  · refine ⟨i + 1, ?_, hkey.stands⟩
    have hnot : ¬ Jsmn.hasType tokens type i = true := by
      intro h
      have hs := hkey.isString
      unfold Jsmn.hasType at h hs
      obtain ⟨t, ht, hty⟩ := Option.any_eq_true _ _ |>.mp h
      rw [ht] at hs
      exact hstring ((of_decide_eq_true hty).symm.trans (of_decide_eq_true hs))
    rw [Jsmn.containerOf, if_neg hnot, hkey.valueOf_eq, Option.filter_some,
      if_pos (hkey.stands.hasType hv)]

/-- **The member the forest has under a key is the document's.** -/
theorem Denotes.member (hf : IsForest tokens) (hden : Denotes js tokens i v)
    (hv : v.key key = some v') : ∃ k, memberOf js tokens i key = some k ∧ IsKey js tokens k v' := by
  cases v with
  | object b ms =>
      obtain ⟨o, ho, hst⟩ := hden.containerOf (Or.inl ⟨rfl, ms, rfl⟩)
      rw [memberOf, ho]
      exact memberOf_of_stands hf hst hv
  | _ => cases hv

/-! ## Elements -/

/-- Where an element stands in its array, its value does, and the elements
behind it. -/
theorem drop_element {b₁ b₂ : Blank} {w : Value} {es : Elements} {pos : ℕ}
    {rest : List UInt8} (h : js.drop pos = (Elements.cons b₁ w b₂ es).render ++ rest) :
    (∃ r, js.drop (pos + b₁.bytes.length) = w.render ++ r) ∧
    js.drop (pos + b₁.bytes.length + w.render.length + b₂.bytes.length + es.sep.length) =
      es.render ++ rest := by
  simp only [Elements.render, List.append_assoc] at h
  have hval := drop_add h
  exact ⟨⟨_, hval⟩, drop_add (drop_add (drop_add hval))⟩

/-- A value's first token is its own, and the others hang under it. -/
theorem Value.tokens_eq_cons (v : Value) (pos i : ℕ) (parent : Option ℕ) :
    ∃ t ts, v.tokens pos i parent = t :: ts ∧ t.parent = parent ∧ Hangs (some i) (i + 1) ts := by
  have hnil : Hangs (some i) (i + 1) [] := by
    intro j u hj
    cases hj
  cases v <;> rw [Value.tokens]
  case string t => exact ⟨_, [], rfl, rfl, hnil⟩
  case primitive w => exact ⟨_, [], rfl, rfl, hnil⟩
  case object b ms => exact ⟨_, _, rfl, rfl, ms.hangs _ _ _⟩
  case array b es => exact ⟨_, _, rfl, rfl, es.hangs _ _ _⟩

/-- **The element of an array at an index is the child there.** -/
theorem elements_get :
    ∀ (es : Elements) {pos i index : ℕ} {post : List JsmnTok} {rest : List UInt8},
      tokens.drop i = es.tokens pos i o ++ post → js.drop pos = es.render ++ rest → o < i →
      Outside post o (i + es.size) → ∀ {v : Value}, es.get index = some v →
      ∃ k, ((tokens.drop i).findIdxs (fun t => t.parent = some o) i)[index]? = some k ∧
        Stands js tokens k v := by
  intro es
  cases es with
  | nil =>
      intro pos i index post rest _ _ _ _ v hv
      cases hv
  | cons b₁ w b₂ es =>
      intro pos i index post rest htok hjs ho hout v hv
      rw [Elements.tokens, List.append_assoc] at htok
      rw [Elements.size] at hout
      obtain ⟨⟨r, hjval⟩, hjrest⟩ := drop_element hjs
      have helem := drop_add htok
      rw [w.length_tokens] at helem
      -- the element's own token is the first child
      obtain ⟨t, ts, hts, hpar, htail⟩ := w.tokens_eq_cons (pos + b₁.bytes.length) i (some o)
      have hfirst : (tokens.drop i).findIdxs (fun t => t.parent = some o) i =
          i :: (tokens.drop (i + w.size)).findIdxs (fun t => t.parent = some o) (i + w.size) := by
        have hlen := w.length_tokens (pos + b₁.bytes.length) i (some o)
        rw [hts, List.length_cons] at hlen
        have hend : i + 1 + ts.length = i + w.size := by omega
        rw [htok, hts, List.cons_append, List.findIdxs_cons, if_pos (decide_eq_true hpar),
          List.findIdxs_append, htail.findIdxs (by simp; omega) (by omega), List.nil_append,
          helem, hend]
      rw [hfirst]
      cases index with
      | zero =>
          obtain rfl := Option.some.inj hv
          refine ⟨i, rfl, _, _, _, r, htok, hjval, Outside.append ?_ ?_⟩
          · refine (es.hangs _ _ _).outside ?_ (Nat.le_refl _)
            intro q hq
            have := Option.some.inj hq
            omega
          · exact hout.mono (by omega) (by omega)
      | succ index =>
          rw [List.getElem?_cons_succ]
          exact elements_get es helem hjrest (by omega) (hout.mono (Nat.le_refl _) (by omega)) hv

/-- The element of an array is found where it stands. -/
theorem Denotes.elem (hf : IsForest tokens) {index : ℕ} (hden : Denotes js tokens i v)
    (hv : v.elem index = some v') :
    ∃ k, elemOf tokens i index = some k ∧ Stands js tokens k v' := by
  cases v with
  | array b es =>
      obtain ⟨a, ha, pos, parent, post, rest, htok, hjs, hout⟩ :=
        hden.containerOf (Or.inr ⟨rfl, es, rfl⟩)
      rw [Value.tokens] at htok
      rw [Value.size] at hout
      rw [Value.render, List.cons_append, List.append_assoc, List.append_assoc] at hjs
      have helem : tokens.drop (a + 1) = _ := drop_add (a := [_]) htok
      rw [elemOf, ha, Option.bind_some, childrenOf_eq_drop hf]
      exact elements_get es helem (drop_add (drop_add (a := [lbracket]) hjs)) (by omega)
        (hout.mono (Nat.le_refl _) (by omega)) hv
  | _ => cases hv

/-! ## Texts -/

/-- **The text the forest has under a key is the raw text of the value.** -/
theorem IsKey.text (hkey : IsKey js tokens k v) {raw : List UInt8} (hv : v.raw = some raw) :
    textOf js tokens k = some raw := by
  obtain ⟨pos, parent, post, rest, htok, hjs, -⟩ := hkey.stands
  rw [textOf, scalarOf, hkey.valueOf_eq, Option.bind_some]
  cases v with
  | string t =>
      obtain rfl := Option.some.inj hv
      rw [Value.render, List.cons_append, List.append_assoc] at hjs
      rw [getElem?_of_drop htok]
      exact congrArg some (raw_of_drop (drop_add (a := [quote]) hjs) rfl)
  | primitive w =>
      obtain rfl := Option.some.inj hv
      rw [getElem?_of_drop htok]
      exact congrArg some (raw_of_drop hjs rfl)
  | object b ms => cases hv
  | array b es => cases hv

/-- The value of a document stands at its first token. -/
theorem Document.stands (d : Document) (tail : List UInt8) :
    Stands (d.render ++ tail) d.tokens 0 d.value := by
  refine ⟨d.before.bytes.length, none, [], d.behind.bytes ++ tail, ?_, ?_, ?_⟩
  · rw [List.drop_zero, List.append_nil, Document.tokens]
  · rw [Document.render, List.append_assoc, List.append_assoc, List.drop_left]
  · intro u hu
    cases hu

/-! ## Paths -/

/-- A step in the document is a step in the forest. -/
theorem Denotes.step (hf : IsForest tokens) (hden : Denotes js tokens i v) {st : Step}
    (hv : v.step st = some v') :
    ∃ k, stepOf js tokens i st = some k ∧ Denotes js tokens k v' := by
  rcases st with k | index
  · obtain ⟨k', hk', hkey⟩ := hden.member hf hv
    exact ⟨k', hk', Or.inr hkey⟩
  · obtain ⟨k', hk', hst⟩ := hden.elem hf hv
    exact ⟨k', hk', Or.inl hst⟩

/-- **The value at the end of a path is found**, by induction over the path.
-/
theorem Denotes.at (hf : IsForest tokens) {path : List Step} (hden : Denotes js tokens i v)
    (hv : v.at path = some v') :
    ∃ k, nodeAt js tokens i path = some k ∧ Denotes js tokens k v' := by
  induction path generalizing i v with
  | nil =>
      obtain rfl := Option.some.inj hv
      exact ⟨i, rfl, hden⟩
  | cons st path ih =>
      rw [Value.at, List.foldlM_cons] at hv
      obtain ⟨w, hw, hv⟩ := Option.bind_eq_some_iff.mp hv
      obtain ⟨k, hk, hkden⟩ := hden.step hf hw
      obtain ⟨k', hk', hkden'⟩ := ih hkden hv
      refine ⟨k', ?_, hkden'⟩
      rw [nodeAt, List.foldlM_cons, hk]
      exact hk'

/-- **The forest has the document's text at the end of every path** that
ends with a key. -/
theorem textAt_eq (d : Document) (tail : List UInt8) {path : List Step}
    {key raw : List UInt8} (hf : IsForest d.tokens)
    (hd : d.textAt (path ++ [.key key]) = some raw) :
    textAt (d.render ++ tail) d.tokens (path ++ [.key key]) = some raw := by
  obtain ⟨v, hv, hraw⟩ := Option.bind_eq_some_iff.mp hd
  rw [Value.at, List.foldlM_append] at hv
  obtain ⟨w, hw, hv⟩ := Option.bind_eq_some_iff.mp hv
  have hden : Denotes (d.render ++ tail) d.tokens 0 d.value := Or.inl (d.stands tail)
  obtain ⟨i, hi, hiden⟩ := hden.at hf hw
  have hmem : w.key key = some v := by simpa [Value.step] using hv
  obtain ⟨k, hk, hkey⟩ := hiden.member hf hmem
  have hnode : nodeAt (d.render ++ tail) d.tokens 0 (path ++ [.key key]) = some k := by
    rw [nodeAt, List.foldlM_append]
    change (nodeAt (d.render ++ tail) d.tokens 0 path >>= _) = _
    rw [hi]
    simpa [stepOf] using hk
  rw [textAt, hnode]
  exact hkey.text hraw

end Jsmn

end WeatherTerminal
