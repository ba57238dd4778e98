import WeatherTerminal.Jsmn.Model.Item
import WeatherTerminal.Jsmn.Model.Reading
import Mathlib.Data.List.Basic
/-!
# jsmn — the lookups read the forest

One equation for each function of `jsmn_util.c`: on the tokens of an
accepted text, from an item that points at a token of the array, it finds
what the forest says is there (`Model/Reading.lean`). The lookups write
terminators into the text they search; `Intact` is what survives of it,
and it is all they read.
-/

namespace WeatherTerminal

namespace Jsmn

variable {js₀ js : List UInt8} {tokens : List JsmnTok} {i k o : ℕ} {key : List UInt8}

/-- The item of token `i`, with as many tokens left as there are behind it. -/
def itemAt (tokens : List JsmnTok) (i : ℕ) : JsmnItem :=
  { t := i, index := i, leftNum := tokens.length - i - 1 }

/-- `js` still holds every scalar of `js₀`, though NULs may have been written
between them. -/
structure Intact (tokens : List JsmnTok) (js₀ js : List UInt8) : Prop where
  length_eq : js.length = js₀.length
  raw_eq : ∀ {i : ℕ} {t : JsmnTok}, tokens[i]? = some t → t.isScalar → t.raw js = t.raw js₀

theorem Intact.refl (tokens : List JsmnTok) (js : List UInt8) : Intact tokens js js :=
  ⟨rfl, fun _ _ => rfl⟩

/-- What is intact in a buffer that is intact is intact. -/
theorem Intact.trans {js' : List UInt8} (h : Intact tokens js₀ js) (h' : Intact tokens js js') :
    Intact tokens js₀ js' :=
  ⟨h'.length_eq.trans h.length_eq, fun ht hs => (h'.raw_eq ht hs).trans (h.raw_eq ht hs)⟩

/-! ## Children -/

/-- A pointer to a token that is there can be dereferenced. -/
theorem tokAt_some {t : JsmnTok} (h : tokens[i]? = some t) : tokAt (some tokens) i = .ok t := by
  simp [tokAt, h]

/-- A token has a type where that is the type it was given. -/
theorem hasType_iff {type : JsmnType} {t : JsmnTok} (h : tokens[i]? = some t) :
    hasType tokens type i = true ↔ t.type = type := by
  simp [hasType, h]

/-- The children of a token are those whose parent it is. -/
theorem mem_childrenOf : k ∈ childrenOf tokens i ↔
    ∃ t, tokens[k]? = some t ∧ t.parent = some i := by
  rw [childrenOf, List.mem_findIdxs_iff_exists_getElem_pos]
  constructor
  · rintro ⟨hk, h⟩
    exact ⟨_, List.getElem?_eq_getElem hk, of_decide_eq_true h⟩
  · rintro ⟨t, ht, h⟩
    obtain ⟨hk, rfl⟩ := List.getElem?_eq_some_iff.mp ht
    exact ⟨hk, decide_eq_true h⟩

theorem lt_of_mem_childrenOf (h : k ∈ childrenOf tokens i) : k < tokens.length := by
  obtain ⟨t, ht, -⟩ := mem_childrenOf.mp h
  exact (List.getElem?_eq_some_iff.mp ht).1

/-- A token's children stand behind it, so a search from there finds all of
them. -/
theorem childrenOf_eq_drop (hf : IsForest tokens) :
    childrenOf tokens o =
      (tokens.drop (o + 1)).findIdxs (fun t => t.parent = some o) (o + 1) := by
  rcases Nat.lt_or_ge o tokens.length with ho | ho
  · have hnone : (tokens.take (o + 1)).findIdxs (fun t => t.parent = some o) 0 = [] := by
      rw [List.findIdxs_eq_nil_iff]
      intro t ht
      obtain ⟨j, hj, rfl⟩ := List.mem_iff_getElem.mp ht
      rw [List.length_take] at hj
      rw [List.getElem_take, decide_eq_false_iff_not]
      intro hpar
      have := hf.parent_lt (List.getElem?_eq_getElem _) hpar
      omega
    conv_lhs => rw [childrenOf, ← List.take_append_drop (o + 1) tokens, List.findIdxs_append, hnone]
    rw [List.nil_append, List.length_take, Nat.min_eq_left (by omega), Nat.zero_add]
  · rw [List.drop_eq_nil_of_le (by omega), List.findIdxs_nil, childrenOf,
      List.findIdxs_eq_nil_iff]
    intro t ht
    obtain ⟨j, hj, rfl⟩ := List.mem_iff_getElem.mp ht
    rw [decide_eq_false_iff_not]
    intro hpar
    have := hf.parent_lt (List.getElem?_eq_getElem hj) hpar
    omega

/-- A token has as many children as its size says. -/
theorem length_childrenOf (hf : IsForest tokens) {t : JsmnTok} (ht : tokens[i]? = some t) :
    (childrenOf tokens i).length = t.size := by
  rw [childrenOf, List.length_findIdxs, hf.size_eq ht]

/-- **A value stands right behind its key**, where the key is a string with
one child. -/
theorem valueOf_eq (hf : IsForest tokens) {t : JsmnTok} (ht : tokens[k]? = some t) :
    valueOf tokens k = if t.type = .string ∧ t.size = 1 then some (k + 1) else none := by
  have hlen := length_childrenOf hf ht
  unfold valueOf
  split
  · rename_i v hv
    rw [hv, List.length_singleton] at hlen
    have hmem : v ∈ childrenOf tokens k := by rw [hv]; exact List.mem_singleton_self v
    obtain ⟨u, hu, hpar⟩ := mem_childrenOf.mp hmem
    obtain ⟨w, hw, hwpar⟩ := hf.first_child hu hpar
    have hfirst : k + 1 ∈ childrenOf tokens k := mem_childrenOf.mpr ⟨w, hw, hwpar⟩
    rw [hv, List.mem_singleton] at hfirst
    simp only [hasType_iff ht, ← hlen, and_true, hfirst]
  · rename_i hne
    rw [if_neg]
    rintro ⟨-, hsize⟩
    obtain ⟨v, hv⟩ := List.length_eq_one_iff.mp (hlen.trans hsize)
    exact hne v hv

theorem valueOf_spec (hf : IsForest tokens) {v : ℕ} (h : valueOf tokens k = some v) :
    ∃ t u, tokens[k]? = some t ∧ t.type = .string ∧ t.size = 1 ∧ v = k + 1 ∧
      tokens[k + 1]? = some u ∧ u.parent = some k := by
  have hv : v ∈ childrenOf tokens k := by
    unfold valueOf at h
    split at h
    · rename_i w hw
      split at h
      · obtain rfl := Option.some.inj h
        rw [hw]
        exact List.mem_singleton_self w
      · cases h
    · cases h
  obtain ⟨u, hu, hpar⟩ := mem_childrenOf.mp hv
  have hk : k < tokens.length := by
    have := hf.parent_lt hu hpar
    have := lt_of_mem_childrenOf hv
    omega
  have ht := List.getElem?_eq_getElem hk
  rw [valueOf_eq hf ht] at h
  split at h
  · rename_i hts
    obtain rfl := Option.some.inj h
    exact ⟨_, u, ht, hts.1, hts.2, rfl, hu, hpar⟩
  · cases h

/-- An item that stands for a container, and the item of the container. -/
theorem containerOf_spec (hf : IsForest tokens) {type : JsmnType} {t : JsmnTok}
    (ht : tokens[i]? = some t) :
    containerOf tokens type i =
      if t.type = type then some i
      else if t.type = .string ∧ t.size = 1 ∧ ∃ u, tokens[i + 1]? = some u ∧ u.type = type
      then some (i + 1) else none := by
  simp only [containerOf, hasType_iff ht, valueOf_eq hf ht]
  split
  · rfl
  · by_cases hts : t.type = .string ∧ t.size = 1
    · rw [if_pos hts]
      obtain ⟨_, u, _, -, -, -, hu, -⟩ := valueOf_spec hf (by rw [valueOf_eq hf ht, if_pos hts])
      by_cases htype : u.type = type
      · rw [if_pos ⟨hts.1, hts.2, u, hu, htype⟩, Option.filter_some,
          if_pos ((hasType_iff hu).mpr htype)]
      · rw [if_neg, Option.filter_some, if_neg (fun h => htype ((hasType_iff hu).mp h))]
        rintro ⟨-, -, w, hw, hwt⟩
        rw [hu] at hw
        exact htype (Option.some.inj hw ▸ hwt)
    · rw [if_neg hts, if_neg (fun h => hts ⟨h.1, h.2.1⟩)]
      rfl

/-- The container an item stands for is a token of the array. -/
theorem containerOf_lt (hf : IsForest tokens) {type : JsmnType} (hi : i < tokens.length)
    (h : containerOf tokens type i = some o) : o < tokens.length := by
  rw [containerOf_spec hf (List.getElem?_eq_getElem hi)] at h
  split at h
  · exact Option.some.inj h ▸ hi
  · split at h
    · rename_i hc
      obtain ⟨-, -, u, hu, -⟩ := hc
      exact Option.some.inj h ▸ (List.getElem?_eq_some_iff.mp hu).1
    · cases h

/-- A key with a value has tokens left behind it. -/
theorem leftNum_pos {u : JsmnTok} (hu : tokens[i + 1]? = some u) :
    0 < (itemAt tokens i).leftNum := by
  have := (List.getElem?_eq_some_iff.mp hu).1
  simp only [itemAt]
  omega

/-- The item `n` tokens further on, as the loops of the lookup move it. -/
theorem itemAt_add (n : ℕ) :
    JsmnItem.mk ((itemAt tokens i).t + n) ((itemAt tokens i).index + n)
      ((itemAt tokens i).leftNum - n) = itemAt tokens (i + n) := by
  simp only [itemAt, JsmnItem.mk.injEq, true_and]
  omega

/-- The next item, as the loops of the lookup move it by one. -/
theorem itemAt_succ : JsmnItem.mk ((itemAt tokens i).t + 1) ((itemAt tokens i).index + 1)
    ((itemAt tokens i).leftNum - 1) = itemAt tokens (i + 1) :=
  itemAt_add 1

/-- The item of the container is found, at the token itself or right behind
its key. -/
theorem containerItem_eq (hf : IsForest tokens) (type : JsmnType) (hi : i < tokens.length) :
    containerItem (some tokens) type (itemAt tokens i) =
      .ok ((containerOf tokens type i).map (itemAt tokens)) := by
  have ht := List.getElem?_eq_getElem hi
  have htok : tokAt (some tokens) (itemAt tokens i).t = .ok tokens[i] := tokAt_some ht
  rw [containerOf_spec hf ht, containerItem, htok]
  change (if _ then _ else _) = _
  split
  · rfl
  · -- the item may be a key, its value then stands behind it
    by_cases hts : tokens[i].type = .string ∧ tokens[i].size = 1
    · obtain ⟨_, u, _, -, -, -, hu, hpar⟩ :=
        valueOf_spec hf (by rw [valueOf_eq hf ht, if_pos hts])
      have hleft := leftNum_pos hu
      have hu' : tokAt (some tokens) ((itemAt tokens i).t + 1) = .ok u := tokAt_some hu
      rw [if_neg (by simp [hts]; omega), hu', itemAt_succ]
      change (if _ then _ else _) = _
      by_cases htype : u.type = type
      · rw [if_neg (fun h => h.elim (fun h => h htype) (fun h => h hpar)),
          if_pos ⟨hts.1, hts.2, u, hu, htype⟩]
        rfl
      · rw [if_pos (Or.inl htype), if_neg]
        · rfl
        · rintro ⟨-, -, w, hw, hwt⟩
          rw [hu] at hw
          exact htype (Option.some.inj hw ▸ hwt)
    · rw [if_pos, if_neg (fun h => hts ⟨h.1, h.2.1⟩)]
      · rfl
      · by_cases h1 : tokens[i].type = .string
        · exact Or.inr (Or.inl fun h2 => hts ⟨h1, h2⟩)
        · exact Or.inl h1

/-! ## Members of an object -/

/-- **A key compares as its text**, as long as the text is intact. -/
theorem jsonTokenStreq_eq (hlaid : IsLaid js₀ tokens) (hint : Intact tokens js₀ js)
    (hkey : 0 ∉ key) {t : JsmnTok} (ht : tokens[k]? = some t) (hs : t.isScalar) :
    jsonTokenStreq js t key = decide (t.raw js₀ = key) := by
  obtain ⟨e, he, hle, hlen, -⟩ := hlaid.covers ht hs
  have hraw : (js.drop t.start).take (e - t.start) = t.raw js₀ := by
    rw [← hint.raw_eq ht hs, JsmnTok.raw, he]
    rfl
  have hrawlen : (t.raw js₀).length = e - t.start := by
    rw [JsmnTok.raw, he, Option.getD_some, List.length_take, List.length_drop]
    omega
  rw [jsonTokenStreq, he, Option.getD_some]
  by_cases hk : key.length = e - t.start
  · rw [← hk, Bool.eq_iff_iff, Bool.and_eq_true, strncmpEq_literal hkey, hk, hraw]
    simp
  · have : ¬ t.raw js₀ = key := fun h => hk (by rw [← h, hrawlen])
    simp [hk, this]

/-- The first element of what is left of a list. -/
theorem getElem?_of_drop {α : Type} {l b : List α} {a : α} {n : ℕ} (h : l.drop n = a :: b) :
    l[n]? = some a := by
  rw [← Nat.add_zero n, ← List.getElem?_drop, h]
  rfl

theorem drop_succ_of_drop {α : Type} {l b : List α} {a : α} {n : ℕ} (h : l.drop n = a :: b) :
    l.drop (n + 1) = b := by
  rw [← List.drop_drop, h]
  rfl

/-- The search behind an object looks at its children in order. -/
theorem findKey_eq (hlaid : IsLaid js₀ tokens) (hint : Intact tokens js₀ js) (hkey : 0 ∉ key) :
    ∀ {rest : List JsmnTok} {n : ℕ}, tokens.drop (o + n) = rest →
      findKey js (some tokens) key (itemAt tokens o) rest.length n =
        .ok (((rest.findIdxs (fun t => t.parent = some o) (o + n)).find? fun k =>
          tokens[k]?.any fun t => t.type = .string ∧ t.raw js₀ = key).map (itemAt tokens)) := by
  intro rest
  induction rest with
  | nil => intro n _; rfl
  | cons t rest ih =>
      intro n hrest
      have ht : tokens[o + n]? = some t := getElem?_of_drop hrest
      have hdrop : tokens.drop (o + (n + 1)) = rest := drop_succ_of_drop hrest
      have htok : tokAt (some tokens) ((itemAt tokens o).t + n) = .ok t := tokAt_some ht
      rw [List.length_cons, findKey, htok, List.findIdxs_cons]
      change (if _ then _ else _) = _
      rw [itemAt_add, ih hdrop, ← Nat.add_assoc]
      -- only strings under the object are compared
      by_cases hpar : t.parent = some o
      · rw [if_pos (decide_eq_true hpar), List.find?_cons, ht]
        by_cases hstr : t.type = .string
        · have hsc : t.isScalar := by simp [JsmnTok.isScalar, hstr]
          have hst := jsonTokenStreq_eq hlaid hint hkey ht hsc
          by_cases hraw : t.raw js₀ = key
          · rw [if_pos ⟨hstr, hpar, by rw [hst]; exact decide_eq_true hraw⟩]
            simp [hstr, hraw]
          · rw [if_neg (fun h => hraw (of_decide_eq_true (hst ▸ h.2.2)))]
            simp [hstr, hraw]
        · rw [if_neg (fun h => hstr h.1)]
          simp [hstr]
      · rw [if_neg (fun h => hpar h.2.1), if_neg (fun h => hpar (of_decide_eq_true h))]

/-- **`JSMN_GetObjectItem` finds the member** of the name, the first there is,
or none. -/
theorem jsmnGetObjectItem_eq (hacc : Accepted js₀ tokens) (hint : Intact tokens js₀ js)
    (hkey : 0 ∉ key) (hi : i < tokens.length) :
    jsmnGetObjectItem js (some tokens) (some (itemAt tokens i)) key =
      .ok ((memberOf js₀ tokens i key).map (itemAt tokens)) := by
  rw [jsmnGetObjectItem]
  change (containerItem (some tokens) .object (itemAt tokens i) >>= _) = _
  rw [containerItem_eq hacc.forest .object hi, memberOf]
  cases hc : containerOf tokens .object i with
  | none => rfl
  | some o =>
      have ho := containerOf_lt hacc.forest hi hc
      have hdrop := List.length_drop (i := o + 1) (l := tokens)
      change (if (itemAt tokens o).leftNum ≤ 0 then _ else _) = _
      rw [Option.bind_some, childrenOf_eq_drop hacc.forest]
      split
      · rename_i hleft
        simp only [itemAt] at hleft
        rw [List.drop_eq_nil_of_le (by omega)]
        rfl
      · have hn : (itemAt tokens o).leftNum.toNat = (tokens.drop (o + 1)).length := by
          simp only [itemAt]
          omega
        rw [hn]
        exact findKey_eq hacc.laid hint hkey rfl

/-! ## Elements of an array -/

/-- The search behind an array counts its children, by induction over the
tokens that are left. -/
theorem findElem_eq :
    ∀ {rest : List JsmnTok} {n index : ℕ}, tokens.drop (o + n) = rest →
      findElem (some tokens) (itemAt tokens o) rest.length n index =
        .ok (((rest.findIdxs (fun t => t.parent = some o) (o + n))[index]?).map
          (itemAt tokens)) := by
  intro rest
  induction rest with
  | nil => intro n index _; rfl
  | cons t rest ih =>
      intro n index hrest
      have ht : tokens[o + n]? = some t := getElem?_of_drop hrest
      have hdrop : tokens.drop (o + (n + 1)) = rest := drop_succ_of_drop hrest
      have htok : tokAt (some tokens) ((itemAt tokens o).t + n) = .ok t := tokAt_some ht
      rw [List.length_cons, findElem, htok, List.findIdxs_cons]
      change (if t.parent = some o then _ else _) = _
      rw [itemAt_add, ih hdrop, ih hdrop, ← Nat.add_assoc]
      by_cases hpar : t.parent = some o
      · rw [if_pos hpar, if_pos (decide_eq_true hpar)]
        cases index with
        | zero => rfl
        | succ index => rw [if_pos (Nat.succ_pos _), List.getElem?_cons_succ, Nat.add_sub_cancel]
      · rw [if_neg hpar, if_neg (fun h => hpar (of_decide_eq_true h))]

/-- **`JSMN_GetArrayItem` finds the element** with the index, or none. -/
theorem jsmnGetArrayItem_eq (hf : IsForest tokens) (hi : i < tokens.length) (index : ℕ) :
    jsmnGetArrayItem (some tokens) (some (itemAt tokens i)) index =
      .ok ((elemOf tokens i index).map (itemAt tokens)) := by
  have ht := List.getElem?_eq_getElem hi
  have htok : tokAt (some tokens) (itemAt tokens i).t = .ok tokens[i] := tokAt_some ht
  rw [jsmnGetArrayItem, elemOf]
  change (jsmnGetArraySize (some tokens) (itemAt tokens i) >>= _) = _
  rw [jsmnGetArraySize, containerItem_eq hf .array hi]
  -- the item is the array, or a key in front of it
  cases hc : containerOf tokens .array i with
  | none => rfl
  | some a =>
      have ha := containerOf_lt hf hi hc
      have hta := List.getElem?_eq_getElem ha
      have htoka : tokAt (some tokens) (itemAt tokens a).t = .ok tokens[a] := tokAt_some hta
      have hlen := length_childrenOf hf hta
      change (tokAt (some tokens) (itemAt tokens a).t >>= _ >>= _) = _
      rw [htoka]
      change (if tokens[a].size ≤ index then _ else _) = _
      rw [Option.bind_some]
      split
      · rename_i hsize
        rw [List.getElem?_eq_none (by omega)]
        rfl
      · -- the token the search starts from is the array's
        have har : (if tokens[i].type = .array then itemAt tokens i
            else ⟨(itemAt tokens i).t + 1, (itemAt tokens i).index + 1,
              (itemAt tokens i).leftNum - 1⟩) = itemAt tokens a := by
          rw [containerOf_spec hf ht] at hc
          split at hc
          · rename_i hty
            rw [if_pos hty, Option.some.inj hc]
          · rename_i hty
            split at hc
            · rw [if_neg hty, itemAt_succ, Option.some.inj hc]
            · cases hc
        rw [htok]
        change findElem (some tokens) (if tokens[i].type = .array then itemAt tokens i
            else ⟨(itemAt tokens i).t + 1, (itemAt tokens i).index + 1,
              (itemAt tokens i).leftNum - 1⟩) _ 1 index = _
        have hn : (itemAt tokens a).leftNum.toNat = (tokens.drop (a + 1)).length := by
          rw [List.length_drop]
          simp only [itemAt]
          omega
        rw [childrenOf_eq_drop hf, ← findElem_eq rfl, ← hn, har]

/-! ## Values -/

/-- A scalar that is a value stands right behind its key. -/
theorem scalarOf_spec (hf : IsForest tokens) {t : JsmnTok} (h : scalarOf tokens k = some t) :
    tokens[k + 1]? = some t ∧ t.isScalar := by
  obtain ⟨v, hv, hvt⟩ := Option.bind_eq_some_iff.mp h
  obtain ⟨-, u, -, -, -, rfl, hu, -⟩ := valueOf_spec hf hv
  obtain ⟨hget, hs⟩ := Option.filter_eq_some_iff.mp hvt
  exact ⟨hget, hs⟩

/-- **`JSMN_GetValueString` finds the value**, and puts a NUL behind it in the
buffer. -/
theorem jsmnGetValueString_eq {n : ℕ} (hf : IsForest tokens) (js : Block n)
    (hk : k < tokens.length) :
    jsmnGetValueString js (some tokens) (some (itemAt tokens k)) =
      .ok (match scalarOf tokens k with
        | none => (js, none)
        | some t => (js.store (t.stop.getD 0) 0, some t.start)) := by
  have ht := List.getElem?_eq_getElem hk
  have htok : tokAt (some tokens) (itemAt tokens k).t = .ok tokens[k] := tokAt_some ht
  rw [jsmnGetValueString, scalarOf]
  change (tokAt (some tokens) (itemAt tokens k).t >>= _) = _
  rw [htok]
  change (if _ then _ else _) = _
  by_cases hts : tokens[k].type = .string ∧ tokens[k].size = 1
  · have hval : valueOf tokens k = some (k + 1) := by rw [valueOf_eq hf ht, if_pos hts]
    obtain ⟨_, u, _, -, -, -, hu, -⟩ := valueOf_spec hf hval
    have hleft := leftNum_pos hu
    have hu' : tokAt (some tokens) ((itemAt tokens k).t + 1) = .ok u := tokAt_some hu
    rw [if_neg (by simp [hts]; omega), hval, Option.bind_some, hu, jsmnGetString, hu']
    change (if _ then _ else _) = _
    by_cases hs : u.isScalar
    · rw [if_neg (by simpa [JsmnTok.isScalar, or_iff_not_imp_left] using hs), Option.filter_some,
        if_pos hs]
    · rw [if_pos (by simpa [JsmnTok.isScalar] using hs), Option.filter_some, if_neg hs]
  · have hval : valueOf tokens k = none := by rw [valueOf_eq hf ht, if_neg hts]
    rw [if_pos, hval]
    · rfl
    · by_cases h1 : tokens[k].type = .string
      · exact Or.inr (Or.inl fun h2 => hts ⟨h1, h2⟩)
      · exact Or.inl h1

/-! ## What the terminators leave of the text -/

/-- **The end of a scalar lies in no scalar**: writing it spares them
all. -/
theorem Intact.set_stop (hlaid : IsLaid js₀ tokens) {t : JsmnTok} (ht : tokens[i]? = some t)
    (hs : t.isScalar) (v : UInt8) : Intact tokens js (js.set (t.stop.getD 0) v) := by
  refine ⟨List.length_set, fun {j u} hu hus => ?_⟩
  obtain ⟨e, he, hle, -, -⟩ := hlaid.covers ht hs
  obtain ⟨e', he', hle', -, -⟩ := hlaid.covers hu hus
  rw [JsmnTok.raw, JsmnTok.raw, he, he', Option.getD_some, Option.getD_some]
  apply Block.take_drop_set
  rcases Nat.lt_trichotomy i j with hij | rfl | hij
  · exact Or.inl (hlaid.apart hij ht hu hs hus he)
  · rw [ht] at hu
    obtain rfl := Option.some.inj hu
    rw [he] at he'
    obtain rfl := Option.some.inj he'
    omega
  · have := hlaid.apart hij hu ht hus hs he'
    omega

/-- **A terminated scalar is a C string**: the one its token covers. -/
theorem cstr_eq_raw {n : ℕ} {b : Block n} (hlaid : IsLaid js₀ tokens)
    (hint : Intact tokens js₀ b.bytes) {t : JsmnTok} {e : ℕ} (ht : tokens[i]? = some t)
    (hs : t.isScalar) (he : t.stop = some e) (hend : b.bytes[e]? = some 0 ∨ n ≤ e) :
    b.cstr t.start = t.raw js₀ := by
  obtain ⟨e', he', hle, hlen, hz⟩ := hlaid.covers ht hs
  obtain rfl : e' = e := Option.some.inj (he'.symm.trans he)
  have hraw : (b.bytes.drop t.start).take (e' - t.start) = t.raw js₀ := by
    rw [← hint.raw_eq ht hs, JsmnTok.raw, he]
    rfl
  have hsplit : b.bytes.drop t.start = t.raw js₀ ++ b.bytes.drop e' := by
    rw [← hraw]
    conv_lhs => rw [← List.take_append_drop (e' - t.start) (b.bytes.drop t.start)]
    rw [List.drop_drop, Nat.add_sub_cancel' hle]
  rw [Block.cstr, hsplit]
  rcases hend with hzero | hn
  · have hdrop : b.bytes.drop e' = 0 :: b.bytes.drop (e' + 1) := by
      obtain ⟨hlt, hget⟩ := List.getElem?_eq_some_iff.mp hzero
      rw [List.drop_eq_getElem_cons hlt, hget]
    rw [hdrop, cstrOf_append_zero hz]
  · rw [List.drop_eq_nil_of_le (by rw [b.length_eq]; exact hn), List.append_nil, cstrOf,
      List.takeWhile_eq_self_iff]
    intro a ha
    have : a ≠ 0 := fun h => hz (h ▸ ha)
    simpa using this

/-! ## Keys -/

/-- A key is a string, and lies in an object. -/
theorem key_spec {k c : ℕ} {key : List UInt8} (h : memberOf js₀ tokens c key = some k) :
    ∃ t o u, tokens[k]? = some t ∧ t.type = .string ∧ t.raw js₀ = key ∧ t.parent = some o ∧
      tokens[o]? = some u ∧ u.type = .object := by
  obtain ⟨o, ho, hfind⟩ := Option.bind_eq_some_iff.mp h
  obtain ⟨t, ht, hpar⟩ := mem_childrenOf.mp (List.mem_of_find?_eq_some hfind)
  have hkey := List.find?_some hfind
  rw [ht] at hkey
  obtain ⟨hstring, hraw⟩ := of_decide_eq_true hkey
  have hobject : hasType tokens .object o = true := by
    rw [containerOf] at ho
    split at ho
    · rename_i htype
      exact Option.some.inj ho ▸ htype
    · exact (Option.filter_eq_some_iff.mp ho).2
  obtain ⟨u, hu, htype⟩ := (Option.any_eq_true _ _).mp hobject
  exact ⟨t, o, u, ht, hstring, hraw, hpar, hu, of_decide_eq_true htype⟩

/-- The bytes of a scalar end where the token does. -/
theorem length_raw {t : JsmnTok} {e : ℕ} (h : Covers js₀ t e) :
    t.start + (t.raw js₀).length = e := by
  have := h.start_le
  have := h.le_length
  rw [JsmnTok.raw, h.stop_eq, Option.getD_some, List.length_take, List.length_drop]
  omega

end Jsmn

end WeatherTerminal
