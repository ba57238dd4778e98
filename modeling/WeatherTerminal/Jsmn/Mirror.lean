import WeatherTerminal.Jsmn.Forest
import WeatherTerminal.Jsmn.Model.Document
/-!
# jsmn — the tokens of a document

The tokenizer, run over the text of a document, leaves the tokens of the
document (`jsmnParse_render`). The run is followed bracket by bracket:
`Reaches` says that the loop comes from one place in the text to another,
and each construct of the grammar is one such passage, put together from
those of its parts.
-/

namespace WeatherTerminal

namespace Jsmn

variable {num : ℕ} {text rest : List UInt8} {p p' : JsmnParser}

/-- From `text` and `p` the loop comes to `rest` and `p'`. -/
def Reaches (num : ℕ) (text : List UInt8) (p : JsmnParser) (rest : List UInt8)
    (p' : JsmnParser) : Prop :=
  ∀ fuel, text.length ≤ fuel → ∃ fuel', rest.length ≤ fuel' ∧
    jsmnLoop false (some num) fuel text p = jsmnLoop false (some num) fuel' rest p'

theorem Reaches.refl (text : List UInt8) (p : JsmnParser) : Reaches num text p text p :=
  fun fuel h => ⟨fuel, h, rfl⟩

/-- Rounds that follow each other lead from the first text to the last. -/
theorem Reaches.trans {mid : List UInt8} {q : JsmnParser} (h : Reaches num text p mid q)
    (h' : Reaches num mid q rest p') : Reaches num text p rest p' := by
  intro fuel hfuel
  obtain ⟨f, hf, he⟩ := h fuel hfuel
  obtain ⟨f', hf', he'⟩ := h' f hf
  exact ⟨f', hf', he.trans he'⟩

/-- One round, which takes at least one byte of what is left. -/
theorem Reaches.step {c : UInt8} {cs : List UInt8} {n : ℕ} (hc : c ≠ 0)
    (hs : jsmnStep false (some num) c cs p = .ok (p', n)) (hrest : (c :: cs).drop n = rest) :
    Reaches num (c :: cs) p rest (p'.skip n) := by
  intro fuel hfuel
  have hn := jsmnStep_takes hc hs
  cases fuel with
  | zero => simp at hfuel
  | succ fuel =>
      refine ⟨fuel, ?_, ?_⟩
      · rw [← hrest, List.length_drop]
        simp at hfuel ⊢
        omega
      · rw [jsmnLoop, if_neg hc, hs, ← hrest]
        rfl

/-! ## The passages -/

theorem skip_skip (p : JsmnParser) (m n : ℕ) : (p.skip m).skip n = p.skip (m + n) := by
  simp [JsmnParser.skip, Nat.add_assoc]

theorem jsmnStep_space {c : UInt8} {cs : List UInt8} (hc : isSpace c = true) :
    jsmnStep false (some num) c cs p = .ok (p, 1) := by
  simp only [isSpace, Bool.or_eq_true, decide_eq_true_eq] at hc
  rcases hc with ((rfl | rfl) | rfl) | rfl <;> rfl

/-- White space is passed over, however much of it there is. -/
theorem reaches_blank (b : Blank) (p : JsmnParser) (rest : List UInt8) :
    Reaches num (b.bytes ++ rest) p rest (p.skip b.bytes.length) := by
  obtain ⟨bytes, hb⟩ := b
  induction bytes generalizing p with
  | nil => exact Reaches.refl _ _
  | cons c cs ih =>
      rw [List.all_cons, Bool.and_eq_true] at hb
      have hc : c ≠ 0 := by
        rintro rfl
        exact absurd hb.1 (by decide)
      have hstep : Reaches num (c :: (cs ++ rest)) p (cs ++ rest) (p.skip 1) :=
        Reaches.step hc (jsmnStep_space hb.1) rfl
      have hcs := hstep.trans (ih (p.skip 1) hb.2)
      rw [skip_skip, Nat.add_comm] at hcs
      exact hcs

/-- The text of a string is scanned up to its quote. -/
theorem scanString_text {hex : ℕ} {t : List UInt8} (ht : isText hex t = true)
    (rest : List UInt8) : scanString false hex (t ++ quote :: rest) = .ok t.length := by
  have hq : (quote : UInt8) ≠ 0 := by decide
  -- the scan takes the branches the grammar does
  fun_induction isText hex t with
  | case1 =>
      unfold scanString
      change (if quote = 0 then _ else if quote = quote then _ else _) = _
      rw [if_neg hq, if_pos rfl]
      rfl
  | case2 => cases ht
  | case3 hex c cs ih =>
      rw [Bool.and_eq_true] at ht
      have hc : c ≠ 0 := by
        rintro rfl
        exact absurd ht.1 (by decide)
      rw [List.cons_append, scanString, if_neg hc, if_pos ht.1, ih ht.2]
      rfl
  | case4 => cases ht
  | case5 e cs ih₁ ih₂ =>
      have hb : backslash ≠ 0 := by decide
      have hbq : backslash ≠ quote := by decide
      rw [List.cons_append, List.cons_append, scanString, if_neg hb, if_neg hbq, if_pos rfl]
      rw [Bool.or_eq_true, Bool.and_eq_true, Bool.and_eq_true] at ht
      by_cases he : isEscape e = true
      · have hcs : isText 0 cs = true := by
          rcases ht with ht | ht
          · exact ht.2
          · obtain rfl := of_decide_eq_true ht.1
            exact absurd he (by decide)
        simp only [he, if_true, ih₁ hcs]
        rfl
      · have ht := ht.resolve_left fun h => he h.1
        simp only [if_neg he, if_pos (of_decide_eq_true ht.1), ih₂ ht.2]
        rfl
  | case6 c cs hback ih =>
      simp only [Bool.and_eq_true, decide_eq_true_eq] at ht
      obtain ⟨⟨hc, hcq⟩, hcs⟩ := ht
      rw [List.cons_append]
      unfold scanString
      rw [if_neg hc, if_neg hcq, if_neg hback, ih hcs]
      rfl

/-- A string, quotes included, becomes a token that covers what is between
them. -/
theorem reaches_text (t : Text) (p : JsmnParser) (rest : List UInt8)
    (hroom : p.tokens.length < num) :
    Reaches num (quote :: (t.bytes ++ quote :: rest)) p rest
      ((p.add .string (p.pos + 1) (some (p.pos + 1 + t.bytes.length))).skip
        (t.bytes.length + 2)) := by
  refine Reaches.step (by decide) ?_ ?_
  · have hpush : ∀ start stop, p.push (some num) .string start stop =
        .ok (p.add .string start stop) := fun start stop => by
      rw [JsmnParser.push, if_neg (by omega)]
    rw [jsmnStep, if_neg (by decide), if_neg (by decide), if_pos rfl, scanString_text t.valid]
    change (p.push _ _ _ _ >>= _) = _
    rw [hpush]
    rfl
  · simp [List.drop_append]

/-- What may stand behind a primitive: nothing, or a byte that ends it. -/
def Delimits (rest : List UInt8) : Prop := ∀ c ∈ rest.head?, endsPrimitive c = true

/-- A byte of a primitive is none that cannot stand in one. -/
theorem inWord_ne {c d : UInt8} (hc : inWord c = true) (hd : inWord d = false) : c ≠ d := by
  rintro rfl
  rw [hc] at hd
  cases hd

/-- A primitive is scanned up to the byte that ends it. -/
theorem scanPrimitive_word {w : List UInt8} (hw : w.all inWord = true) (hrest : Delimits rest) :
    scanPrimitive false (w ++ rest) = .ok w.length := by
  induction w with
  | nil =>
      cases rest with
      | nil => rfl
      | cons c cs =>
          have hc : endsPrimitive c = true := hrest c rfl
          rw [List.nil_append, scanPrimitive]
          split
          · rfl
          · rfl
  | cons c cs ih =>
      rw [List.all_cons, Bool.and_eq_true] at hw
      have hzero : c ≠ 0 := inWord_ne hw.1 (by decide)
      obtain ⟨⟨hends, hlow⟩, hhigh⟩ : (endsPrimitive c = false ∧ 32 ≤ c) ∧ c < 127 := by
        simpa [inWord] using hw.1
      rw [List.cons_append, scanPrimitive, if_neg hzero, if_neg (by simp [hends]),
        if_neg, ih hw.2]
      · rfl
      · simpa using ⟨hlow, hhigh⟩

/-- A primitive, up to its delimiter, becomes a token that covers it. -/
theorem reaches_word (w : Word) (p : JsmnParser) (hrest : Delimits rest)
    (hroom : p.tokens.length < num) :
    Reaches num (w.bytes ++ rest) p rest
      ((p.add .primitive p.pos (some (p.pos + w.bytes.length))).skip w.bytes.length) := by
  obtain ⟨w, hw⟩ := w
  rw [isWord, Bool.and_eq_true] at hw
  cases w with
  | nil => cases hw.1
  | cons c cs =>
      have hscan := scanPrimitive_word hw.2 hrest
      have hin : inWord c = true := by
        rw [List.all_cons, Bool.and_eq_true] at hw
        exact hw.2.1
      have hopen : c ≠ lbrace ∧ c ≠ lbracket ∧ c ≠ quote := by simpa [and_assoc] using hw.1
      have hspace : isSpace c = false := by
        by_contra h
        rw [Bool.not_eq_false] at h
        simp [inWord, endsPrimitive, h] at hin
      refine Reaches.step (inWord_ne hin (by decide)) ?_ (@List.drop_left _ (c :: cs) rest)
      rw [jsmnStep, if_neg (not_or.mpr ⟨hopen.1, hopen.2.1⟩),
        if_neg (not_or.mpr ⟨inWord_ne hin (by decide), inWord_ne hin (by decide)⟩),
        if_neg hopen.2.2, if_neg (by simp [hspace]), if_neg (inWord_ne hin (by decide)),
        if_neg (inWord_ne hin (by decide))]
      change (scanPrimitive false (c :: cs ++ rest) >>= _) = _
      rw [hscan]
      change (p.push _ _ _ _ >>= _) = _
      rw [JsmnParser.push, if_neg (by omega)]
      rfl

/-- An opening bracket becomes an open token, which takes the next ones. -/
theorem reaches_open {c : UInt8} {type : JsmnType}
    (hc : c = lbrace ∧ type = .object ∨ c = lbracket ∧ type = .array) (p : JsmnParser)
    (rest : List UInt8) (hroom : p.tokens.length < num) :
    Reaches num (c :: rest) p rest ((p.add type p.pos none).enter.skip 1) := by
  have hpush : p.push (some num) type p.pos none = .ok (p.add type p.pos none) := by
    rw [JsmnParser.push, if_neg (by omega)]
  rcases hc with ⟨rfl, rfl⟩ | ⟨rfl, rfl⟩
  · refine Reaches.step (by decide) ?_ rfl
    rw [jsmnStep, if_pos (Or.inl rfl), if_pos rfl, hpush]
    rfl
  · refine Reaches.step (by decide) ?_ rfl
    rw [jsmnStep, if_pos (Or.inr rfl), if_neg (by decide), hpush]
    rfl

/-- A colon makes the last token the one that takes the next. -/
theorem reaches_colon (p : JsmnParser) (rest : List UInt8) :
    Reaches num (colon :: rest) p rest (p.enter.skip 1) :=
  Reaches.step (by decide) rfl rfl

/-- A comma leaves the member it ends for its object, and stays at an array.
-/
theorem reaches_comma (p : JsmnParser) (rest : List UInt8) :
    Reaches num (comma :: rest) p rest (p.leave.skip 1) :=
  Reaches.step (by decide) rfl rfl

/-! ## The way up from the last token -/

/-- Tokens that stand at `i` and the indices behind it, all closed, each
under `parent` or under one of their own before it. -/
def Hangs (parent : Option ℕ) (i : ℕ) (ts : List JsmnTok) : Prop :=
  ∀ (j : ℕ) (u : JsmnTok), ts[j]? = some u →
    u.stop ≠ none ∧ (u.parent = parent ∨ ∃ q, u.parent = some q ∧ i ≤ q ∧ q < i + j)

variable {parent : Option ℕ} {i o : ℕ} {ts us : List JsmnTok}

theorem Hangs.append (ht : Hangs parent i ts) (hu : Hangs parent (i + ts.length) us) :
    Hangs parent i (ts ++ us) := by
  intro j u hj
  rcases Nat.lt_or_ge j ts.length with hlt | hge
  · rw [List.getElem?_append_left hlt] at hj
    exact ht j u hj
  · rw [List.getElem?_append_right hge] at hj
    obtain ⟨hstop, hpar⟩ := hu _ u hj
    refine ⟨hstop, hpar.imp_right ?_⟩
    rintro ⟨q, hq, hlo, hhi⟩
    exact ⟨q, hq, by omega, by omega⟩

/-- A token and what hangs under it hang under its parent. -/
theorem Hangs.cons {t : JsmnTok} (hstop : t.stop ≠ none) (hpar : t.parent = parent)
    (ht : Hangs (some i) (i + 1) ts) : Hangs parent i (t :: ts) := by
  intro j u hj
  cases j with
  | zero =>
      obtain rfl := Option.some.inj hj
      exact ⟨hstop, Or.inl hpar⟩
  | succ j =>
      obtain ⟨hs, hp⟩ := ht j u hj
      refine ⟨hs, Or.inr ?_⟩
      rcases hp with hp | ⟨q, hq, hlo, hhi⟩
      · exact ⟨i, hp, Nat.le_refl i, by omega⟩
      · exact ⟨q, hq, by omega, by omega⟩

mutual

/-- A value takes as many tokens as its size says. -/
theorem Value.length_tokens (v : Value) (pos i : ℕ) (parent : Option ℕ) :
    (v.tokens pos i parent).length = v.size := by
  cases v with
  | string t => rfl
  | primitive w => rfl
  | object b ms => rw [Value.tokens, List.length_cons, ms.length_tokens, Value.size]
  | array b es => rw [Value.tokens, List.length_cons, es.length_tokens, Value.size]

theorem Members.length_tokens (ms : Members) (pos i o : ℕ) :
    (ms.tokens pos i o).length = ms.size := by
  cases ms with
  | nil => rfl
  | cons b₁ key b₂ b₃ v b₄ ms =>
      rw [Members.tokens, List.length_cons, List.length_append, v.length_tokens,
        ms.length_tokens, Members.size]
      omega

theorem Elements.length_tokens (es : Elements) (pos i a : ℕ) :
    (es.tokens pos i a).length = es.size := by
  cases es with
  | nil => rfl
  | cons b₁ v b₂ es =>
      rw [Elements.tokens, List.length_append, v.length_tokens, es.length_tokens, Elements.size]

end

mutual

/-- The tokens of a value hang under its parent, and all of them are closed.
-/
theorem Value.hangs (v : Value) (pos i : ℕ) (parent : Option ℕ) :
    Hangs parent i (v.tokens pos i parent) := by
  have hnil : ∀ o k, Hangs o k [] := by
    intro o k j u hj
    cases hj
  cases v <;> rw [Value.tokens]
  case string t => exact Hangs.cons (by simp) rfl (hnil _ _)
  case primitive w => exact Hangs.cons (by simp) rfl (hnil _ _)
  case object b ms => exact Hangs.cons (by simp) rfl (ms.hangs _ _ _)
  case array b es => exact Hangs.cons (by simp) rfl (es.hangs _ _ _)

theorem Members.hangs (ms : Members) (pos i o : ℕ) : Hangs (some o) i (ms.tokens pos i o) := by
  cases ms with
  | nil =>
      intro j u hj
      cases hj
  | cons b₁ key b₂ b₃ v b₄ ms =>
      rw [Members.tokens, ← List.cons_append]
      refine Hangs.append (Hangs.cons (by simp) rfl (v.hangs _ _ _)) ?_
      rw [List.length_cons, v.length_tokens, Nat.add_comm v.size 1, ← Nat.add_assoc]
      exact ms.hangs _ _ _

theorem Elements.hangs (es : Elements) (pos i a : ℕ) :
    Hangs (some a) i (es.tokens pos i a) := by
  cases es with
  | nil =>
      intro j u hj
      cases hj
  | cons b₁ v b₂ es =>
      rw [Elements.tokens]
      refine Hangs.append (v.hangs _ _ _) ?_
      rw [v.length_tokens]
      exact es.hangs _ _ _

end

/-- **A closing bracket finds its opening one**: from any token under it
the parent links lead there, over closed tokens only. -/
theorem closeFrom_hangs {type : JsmnType} {pos : ℕ} {s : Option ℕ} {pre : List JsmnTok}
    {t : JsmnTok} (hopen : t.stop = none) (htype : t.type = type)
    (hts : Hangs (some pre.length) (pre.length + 1) ts) :
    ∀ {fuel i : ℕ}, pre.length ≤ i → i < pre.length + 1 + ts.length → i < pre.length + fuel →
      closeFrom type pos (pre ++ t :: ts) s fuel i =
        .ok (pre ++ { t with stop := some (pos + 1) } :: ts, t.parent) := by
  intro fuel
  induction fuel with
  | zero => omega
  | succ fuel ih =>
      intro i hlo hlen hfuel
      rcases Nat.eq_or_lt_of_le hlo with rfl | hlt
      · have hget : (pre ++ t :: ts)[pre.length]? = some t := by simp
        rw [closeFrom, hget]
        change (if _ then _ else _) = _
        rw [if_pos hopen, if_neg (by simp [htype])]
        simp
      · -- a token behind `t` is closed, and its parent is `t` or stands behind it too
        obtain ⟨j, rfl⟩ : ∃ j, i = pre.length + 1 + j := ⟨i - (pre.length + 1), by omega⟩
        have hget : (pre ++ t :: ts)[pre.length + 1 + j]? = ts[j]? := by
          rw [List.getElem?_append_right (by omega), Nat.add_assoc, Nat.add_sub_cancel_left,
            Nat.add_comm 1 j, List.getElem?_cons_succ]
        have hj : j < ts.length := by omega
        obtain ⟨hstop, hpar⟩ := hts j _ (List.getElem?_eq_getElem hj)
        obtain ⟨q, hq, hqlo, hqhi⟩ : ∃ q, ts[j].parent = some q ∧ pre.length ≤ q ∧
            q < pre.length + 1 + j := by
          rcases hpar with hp | ⟨q, hq, hlo', hhi⟩
          · exact ⟨_, hp, Nat.le_refl _, by omega⟩
          · exact ⟨q, hq, by omega, hhi⟩
        rw [closeFrom, hget, List.getElem?_eq_getElem hj]
        change (if _ then _ else _) = _
        rw [if_neg hstop, hq]
        exact ih hqlo (by omega) (by omega)

/-- A closing bracket closes the token of its opening one, and goes back to
its parent. -/
theorem reaches_close {c : UInt8} {type : JsmnType} {pre : List JsmnTok} {t : JsmnTok}
    (hc : c = rbrace ∧ type = .object ∨ c = rbracket ∧ type = .array) (p : JsmnParser)
    (rest : List UInt8) (htokens : p.tokens = pre ++ t :: ts) (hopen : t.stop = none)
    (htype : t.type = type) (hts : Hangs (some pre.length) (pre.length + 1) ts) :
    Reaches num (c :: rest) p rest { p with
      pos := p.pos + 1
      tokens := pre ++ { t with stop := some (p.pos + 1) } :: ts
      toksuper := t.parent } := by
  have hlen : p.tokens.length = pre.length + 1 + ts.length := by
    simp [htokens]
    omega
  have hclose : p.close type = .ok { p with
      tokens := pre ++ { t with stop := some (p.pos + 1) } :: ts
      toksuper := t.parent } := by
    rw [JsmnParser.close, if_neg (by omega), htokens,
      closeFrom_hangs hopen htype hts (by simp) (by simp) (by simp; omega)]
    rfl
  have hne : c ≠ 0 := by
    rcases hc with ⟨rfl, -⟩ | ⟨rfl, -⟩ <;> decide
  have hstep : jsmnStep false (some num) c rest p = .ok ({ p with
      tokens := pre ++ { t with stop := some (p.pos + 1) } :: ts
      toksuper := t.parent }, 1) := by
    rcases hc with ⟨rfl, rfl⟩ | ⟨rfl, rfl⟩
    · rw [jsmnStep, if_neg (by decide), if_pos (Or.inl rfl), if_neg (by simp), if_pos rfl, hclose]
      rfl
    · rw [jsmnStep, if_neg (by decide), if_pos (Or.inr rfl), if_neg (by simp),
        if_neg (by decide), hclose]
      rfl
  exact Reaches.step hne hstep rfl

/-! ## The run over a value -/

/-- `n` children more for a token, the others being as they were. -/
def bumpBy (ts : List JsmnTok) (o n : ℕ) : List JsmnTok :=
  ts.modify o fun t => { t with size := t.size + n }

@[simp] theorem length_bumpBy (ts : List JsmnTok) (o n : ℕ) :
    (bumpBy ts o n).length = ts.length := List.length_modify _ _ _

@[simp] theorem length_bumpSize (ts : List JsmnTok) (s : Option ℕ) :
    (bumpSize ts s).length = ts.length := by
  cases s <;> simp [bumpSize]

theorem bumpSize_some (ts : List JsmnTok) (o : ℕ) : bumpSize ts (some o) = bumpBy ts o 1 := rfl

theorem bumpBy_zero (ts : List JsmnTok) (o : ℕ) : bumpBy ts o 0 = ts := List.modify_id o ts

theorem bumpBy_bumpBy (ts : List JsmnTok) (o m n : ℕ) :
    bumpBy (bumpBy ts o m) o n = bumpBy ts o (m + n) := by
  rw [bumpBy, bumpBy, List.modify_modify_eq]
  simp only [bumpBy, Function.comp_def, Nat.add_assoc]

/-- Counting the child of an early token leaves the tokens behind alone. -/
theorem bumpBy_append (ts us : List JsmnTok) {o n : ℕ} (ho : o < ts.length) :
    bumpBy (ts ++ us) o n = bumpBy ts o n ++ us := by
  rw [bumpBy, bumpBy, List.modify_eq_take_cons_drop (by simp; omega),
    List.modify_eq_take_cons_drop ho, List.take_append_of_le_length (by omega),
    List.getElem_append_left ho, List.drop_append_of_le_length (by omega)]
  simp

/-- The children of a token behind others are counted there. -/
theorem bumpBy_last (ts us : List JsmnTok) (t : JsmnTok) (n : ℕ) :
    bumpBy (ts ++ t :: us) ts.length n = ts ++ { t with size := t.size + n } :: us := by
  rw [bumpBy, List.modify_eq_take_cons_drop (by simp)]
  simp

/-- The parser behind a value: its tokens are there, and one child more is
counted for its parent. -/
def JsmnParser.past (p : JsmnParser) (v : Value) : JsmnParser :=
  { pos := p.pos + v.render.length
    toksuper := p.toksuper
    tokens := bumpSize p.tokens p.toksuper ++ v.tokens p.pos p.tokens.length p.toksuper
    count := p.count + v.size }

/-- The token of a key with `n` values, over the text between its quotes. -/
def keyTok (o : ℕ) (b₁ : Blank) (key : Text) (pos n : ℕ) : JsmnTok :=
  { type := .string, start := keyPos b₁ pos, stop := some (keyPos b₁ pos + key.bytes.length)
    size := n, parent := some o }

/-- The parser behind the colon of a member of object `o`. -/
def JsmnParser.atKey (p : JsmnParser) (o : ℕ) (b₁ : Blank) (key : Text) (b₂ b₃ : Blank) :
    JsmnParser :=
  { pos := valuePos b₁ key b₂ b₃ p.pos
    toksuper := some p.tokens.length
    tokens := bumpBy p.tokens o 1 ++ [keyTok o b₁ key p.pos 0]
    count := p.count + 1 }

/-- A key and its colon become a token that takes the value. -/
theorem reaches_key (b₁ : Blank) (key : Text) (b₂ b₃ : Blank) (hsuper : p.toksuper = some o)
    (hroom : p.tokens.length < num) (rest : List UInt8) :
    Reaches num (b₁.bytes ++ quote :: (key.bytes ++ quote :: (b₂.bytes ++ colon ::
      (b₃.bytes ++ rest)))) p rest (p.atKey o b₁ key b₂ b₃) := by
  have h : Reaches num _ p rest _ :=
    (((reaches_blank b₁ p _).trans (reaches_text key _ _ hroom)).trans
      (reaches_blank b₂ _ _)).trans ((reaches_colon _ _).trans (reaches_blank b₃ _ rest))
  convert h using 1
  simp only [JsmnParser.atKey, JsmnParser.skip, JsmnParser.add, JsmnParser.enter, hsuper,
    bumpSize_some, List.length_append, length_bumpBy, List.length_singleton, valuePos, keyPos,
    keyTok]
  simp
  omega

/-- What stands behind a member delimits its value, with white space before it
or without. -/
theorem delimits_blank (b : Blank) {rest : List UInt8} (hrest : Delimits rest) :
    Delimits (b.bytes ++ rest) := by
  obtain ⟨bytes, hb⟩ := b
  cases bytes with
  | nil => exact hrest
  | cons c cs =>
      intro d hd
      obtain rfl := Option.some.inj hd
      rw [List.all_cons, Bool.and_eq_true] at hb
      simp [endsPrimitive, hb.1]

theorem delimits_cons {c : UInt8} (hc : endsPrimitive c = true) (cs : List UInt8) :
    Delimits (c :: cs) := by
  intro d hd
  exact Option.some.inj hd ▸ hc

theorem delimits_members (ms : Members) {rest : List UInt8} (hrest : Delimits rest) :
    Delimits (ms.sep ++ (ms.render ++ rest)) := by
  cases ms with
  | nil => exact hrest
  | cons => exact delimits_cons (by decide) _

theorem delimits_elements (es : Elements) {rest : List UInt8} (hrest : Delimits rest) :
    Delimits (es.sep ++ (es.render ++ rest)) := by
  cases es with
  | nil => exact hrest
  | cons => exact delimits_cons (by decide) _

/-- The tokens behind a member: the object has a child more, and the key
its value. -/
theorem past_atKey_tokens (p : JsmnParser) (o : ℕ) (b₁ : Blank) (key : Text) (b₂ b₃ : Blank)
    (v : Value) :
    ((p.atKey o b₁ key b₂ b₃).past v).tokens = bumpBy p.tokens o 1 ++ keyTok o b₁ key p.pos 1 ::
      v.tokens (valuePos b₁ key b₂ b₃ p.pos) (p.tokens.length + 1) (some p.tokens.length) := by
  have hkey := bumpBy_last (bumpBy p.tokens o 1) [] (keyTok o b₁ key p.pos 0) 1
  rw [length_bumpBy] at hkey
  simp only [JsmnParser.past, JsmnParser.atKey, bumpSize_some, List.length_append,
    List.length_singleton, length_bumpBy, hkey, List.append_assoc, List.singleton_append]
  rfl

/-- A comma behind a key's value leaves for the key's parent. -/
theorem leave_of_key {p : JsmnParser} {s : ℕ} {t : JsmnTok} (hsuper : p.toksuper = some s)
    (hget : p.tokens[s]? = some t) (htype : t.type ≠ .array ∧ t.type ≠ .object) :
    p.leave = { p with toksuper := t.parent } := by
  unfold JsmnParser.leave
  simp only [hsuper, hget]
  rw [if_pos htype]

/-- The comma behind it leaves the key for the object. -/
theorem leave_past_atKey (p : JsmnParser) (o : ℕ) (b₁ : Blank) (key : Text) (b₂ b₃ b₄ : Blank)
    (v : Value) :
    (((p.atKey o b₁ key b₂ b₃).past v).skip b₄.bytes.length).leave =
      { ((p.atKey o b₁ key b₂ b₃).past v).skip b₄.bytes.length with toksuper := some o } := by
  have hget : ((p.atKey o b₁ key b₂ b₃).past v).tokens[p.tokens.length]? =
      some (keyTok o b₁ key p.pos 1) := by
    rw [past_atKey_tokens, List.getElem?_append_right (by simp)]
    simp
  have hsuper : (((p.atKey o b₁ key b₂ b₃).past v).skip b₄.bytes.length).toksuper =
      some p.tokens.length := rfl
  rw [leave_of_key hsuper hget ⟨nofun, nofun⟩]
  rfl

/-- The parser behind a member and the comma after it. -/
def JsmnParser.nextMember (p : JsmnParser) (o : ℕ) (b₁ : Blank) (key : Text) (b₂ b₃ b₄ : Blank)
    (v : Value) : JsmnParser :=
  { pos := valuePos b₁ key b₂ b₃ p.pos + v.render.length + b₄.bytes.length + 1
    toksuper := some o
    tokens := bumpBy p.tokens o 1 ++ keyTok o b₁ key p.pos 1 ::
      v.tokens (valuePos b₁ key b₂ b₃ p.pos) (p.tokens.length + 1) (some p.tokens.length)
    count := p.count + 1 + v.size }

/-- Behind a member the parser is in its object again, at the next member. -/
theorem leave_skip_eq (p : JsmnParser) (o : ℕ) (b₁ : Blank) (key : Text) (b₂ b₃ b₄ : Blank)
    (v : Value) :
    (((p.atKey o b₁ key b₂ b₃).past v).skip b₄.bytes.length).leave.skip 1 =
      p.nextMember o b₁ key b₂ b₃ b₄ v := by
  rw [leave_past_atKey, JsmnParser.nextMember, ← past_atKey_tokens]
  rfl

/-- The parser behind an element and the comma after it. -/
def JsmnParser.nextElem (p : JsmnParser) (a : ℕ) (b₁ : Blank) (v : Value) (b₂ : Blank) :
    JsmnParser :=
  { pos := p.pos + b₁.bytes.length + v.render.length + b₂.bytes.length + 1
    toksuper := some a
    tokens := bumpBy p.tokens a 1 ++ v.tokens (p.pos + b₁.bytes.length) p.tokens.length (some a)
    count := p.count + v.size }

/-- A comma between the elements of an array changes nothing. -/
theorem leave_of_array {t : JsmnTok} (hsuper : p.toksuper = some o)
    (ht : p.tokens[o]? = some t) (htype : t.type = .array) : p.leave = p := by
  unfold JsmnParser.leave
  simp only [hsuper, ht, htype]
  simp

theorem bumpBy_getElem?_type {ts : List JsmnTok} {t : JsmnTok} {n : ℕ} (ht : ts[o]? = some t) :
    ∃ t', (bumpBy ts o n)[o]? = some t' ∧ t'.type = t.type := by
  refine ⟨{ t with size := t.size + n }, ?_, rfl⟩
  rw [bumpBy, List.getElem?_modify_eq, ht]
  rfl

theorem nextElem_getElem? {t : JsmnTok} (b₁ : Blank) (v : Value) (b₂ : Blank)
    (ht : p.tokens[o]? = some t) :
    ∃ t', (p.nextElem o b₁ v b₂).tokens[o]? = some t' ∧ t'.type = t.type := by
  obtain ⟨t', ht', htype⟩ := bumpBy_getElem?_type (n := 1) ht
  refine ⟨t', ?_, htype⟩
  rw [JsmnParser.nextElem, List.getElem?_append_left (List.getElem?_eq_some_iff.mp ht').1, ht']

/-- A comma behind an element leaves the array the one that takes the next. -/
theorem leave_nextElem {t : JsmnTok} (hsuper : p.toksuper = some o)
    (ht : p.tokens[o]? = some t) (htype : t.type = .array) (b₁ : Blank) (v : Value) (b₂ : Blank) :
    (((p.skip b₁.bytes.length).past v).skip b₂.bytes.length).leave.skip 1 =
      p.nextElem o b₁ v b₂ := by
  have hnext : (((p.skip b₁.bytes.length).past v).skip b₂.bytes.length).skip 1 =
      p.nextElem o b₁ v b₂ := by
    simp [JsmnParser.past, JsmnParser.skip, JsmnParser.nextElem, hsuper, bumpSize_some]
  obtain ⟨t', ht', htype'⟩ := nextElem_getElem? b₁ v b₂ ht
  rw [← hnext] at ht' ⊢
  rw [leave_of_array (p := ((p.skip b₁.bytes.length).past v).skip b₂.bytes.length) hsuper ht'
    (htype'.trans htype)]

/-- The parser behind a string: one token, two quotes and the text. -/
theorem past_string (p : JsmnParser) (t : Text) : p.past (.string t) =
    (p.add .string (p.pos + 1) (some (p.pos + 1 + t.bytes.length))).skip (t.bytes.length + 2) := by
  simp [JsmnParser.past, JsmnParser.add, JsmnParser.skip, Value.render, Value.tokens, Value.size]

/-- The parser behind the opening bracket of an object or array. -/
def JsmnParser.inside (p : JsmnParser) (type : JsmnType) (b : Blank) : JsmnParser :=
  { pos := p.pos + 1 + b.bytes.length
    toksuper := some p.tokens.length
    tokens := bumpSize p.tokens p.toksuper ++
      [{ type := type, start := p.pos, stop := none, size := 0, parent := p.toksuper }]
    count := p.count + 1 }

/-- The parser behind an opening bracket and the white space that follows it.
-/
theorem reaches_inside {c : UInt8} {type : JsmnType}
    (hc : c = lbrace ∧ type = .object ∨ c = lbracket ∧ type = .array) (b : Blank)
    (p : JsmnParser) (rest : List UInt8) (hroom : p.tokens.length < num) :
    Reaches num (c :: (b.bytes ++ rest)) p rest (p.inside type b) := by
  have h := (reaches_open hc p (b.bytes ++ rest) hroom).trans (reaches_blank b _ rest)
  convert h using 1
  simp [JsmnParser.inside, JsmnParser.skip, JsmnParser.add, JsmnParser.enter]

/-- The closing bracket, behind `n` children with the tokens `ts`. -/
theorem reaches_outside {c : UInt8} {type : JsmnType} {s : Option ℕ} {pos n m : ℕ}
    (hc : c = rbrace ∧ type = .object ∨ c = rbracket ∧ type = .array) (b : Blank)
    (p : JsmnParser) (rest : List UInt8)
    (hts : Hangs (some p.tokens.length) (p.tokens.length + 1) ts) :
    Reaches num (c :: rest)
      { pos := pos, toksuper := s, count := m
        tokens := bumpBy (p.inside type b).tokens p.tokens.length n ++ ts } rest
      { pos := pos + 1, toksuper := p.toksuper, count := m
        tokens := bumpSize p.tokens p.toksuper ++
          { type := type, start := p.pos, stop := some (pos + 1), size := n
            parent := p.toksuper } :: ts } := by
  have hlen : p.tokens.length = (bumpSize p.tokens p.toksuper).length := by simp
  have hobj := bumpBy_last (bumpSize p.tokens p.toksuper) []
    { type := type, start := p.pos, stop := none, size := 0, parent := p.toksuper } n
  rw [← hlen] at hobj
  rw [hlen] at hts
  have htokens : bumpBy (p.inside type b).tokens p.tokens.length n ++ ts =
      bumpSize p.tokens p.toksuper ++
        { type := type, start := p.pos, stop := none, size := 0 + n, parent := p.toksuper } ::
          ts := by
    simp [JsmnParser.inside, hobj]
  have h : Reaches num _ _ rest _ := reaches_close hc
    { pos := pos, toksuper := s, count := m
      tokens := bumpBy (p.inside type b).tokens p.tokens.length n ++ ts } rest htokens rfl rfl hts
  simpa using h

/-- The parser behind an object, from the one behind its members. -/
theorem past_object (p : JsmnParser) (b : Blank) (ms : Members) : p.past (.object b ms) =
    { pos := (p.inside .object b).pos + ms.render.length + 1
      toksuper := p.toksuper
      tokens := bumpSize p.tokens p.toksuper ++
        { type := .object, start := p.pos
          stop := some ((p.inside .object b).pos + ms.render.length + 1), size := ms.count
          parent := p.toksuper } ::
          ms.tokens (p.inside .object b).pos (p.tokens.length + 1) p.tokens.length
      count := (p.inside .object b).count + ms.size } := by
  simp only [JsmnParser.past, JsmnParser.inside, Value.render, Value.tokens, Value.size,
    List.length_cons, List.length_append, JsmnParser.mk.injEq, true_and, List.length_nil]
  omega

/-- The parser behind an array, from the one behind its elements. -/
theorem past_array (p : JsmnParser) (b : Blank) (es : Elements) : p.past (.array b es) =
    { pos := (p.inside .array b).pos + es.render.length + 1
      toksuper := p.toksuper
      tokens := bumpSize p.tokens p.toksuper ++
        { type := .array, start := p.pos
          stop := some ((p.inside .array b).pos + es.render.length + 1), size := es.count
          parent := p.toksuper } ::
          es.tokens (p.inside .array b).pos (p.tokens.length + 1) p.tokens.length
      count := (p.inside .array b).count + es.size } := by
  simp only [JsmnParser.past, JsmnParser.inside, Value.render, Value.tokens, Value.size,
    List.length_cons, List.length_append, JsmnParser.mk.injEq, true_and, List.length_nil]
  omega

/-- Members have a comma before them, unless there are none. -/
theorem Members.nil_or_sep (ms : Members) : ms = .nil ∨ ms.sep = [comma] := by
  cases ms with
  | nil => exact Or.inl rfl
  | cons => exact Or.inr rfl

theorem Elements.nil_or_sep (es : Elements) : es = .nil ∨ es.sep = [comma] := by
  cases es with
  | nil => exact Or.inl rfl
  | cons => exact Or.inr rfl

mutual

/-- **The tokenizer runs over a value and leaves its tokens.** -/
theorem reaches_value (v : Value) (p : JsmnParser) (rest : List UInt8) (hrest : Delimits rest)
    (hroom : p.tokens.length + v.size ≤ num) :
    Reaches num (v.render ++ rest) p rest (p.past v) := by
  cases v with
  | string t =>
      have h : Reaches num _ p rest _ := reaches_text t p rest (by
        rw [Value.size] at hroom
        omega)
      rw [past_string, Value.render, List.cons_append, List.append_assoc]
      exact h
  | primitive w =>
      rw [Value.size] at hroom
      exact reaches_word w p hrest (by omega)
  | object b ms =>
      rw [Value.size] at hroom
      have hlen : (p.inside .object b).tokens.length = p.tokens.length + 1 := by
        simp [JsmnParser.inside]
      -- bracket, members, bracket: the members run from behind the open object
      obtain ⟨s, hms⟩ := reaches_members ms (p.inside .object b) p.tokens.length
        (rbrace :: rest) (delimits_cons (by decide) _) rfl (by omega) (by omega)
      rw [hlen] at hms
      have h := ((reaches_inside (Or.inl ⟨rfl, rfl⟩) b p _ (by omega)).trans hms).trans
        (reaches_outside (Or.inl ⟨rfl, rfl⟩) b p rest (ms.hangs _ _ _))
      rw [past_object, Value.render, List.cons_append, List.append_assoc, List.append_assoc]
      exact h
  | array b es =>
      rw [Value.size] at hroom
      have hlen : (p.inside .array b).tokens.length = p.tokens.length + 1 := by
        simp [JsmnParser.inside]
      have hget : (p.inside .array b).tokens[p.tokens.length]? = some
          { type := .array, start := p.pos, stop := none, size := 0, parent := p.toksuper } := by
        rw [JsmnParser.inside, List.getElem?_append_right (by simp)]
        simp
      have hes := reaches_elements es (p.inside .array b) p.tokens.length
        (rbracket :: rest) (delimits_cons (by decide) _) rfl hget rfl (by omega)
      rw [hlen] at hes
      have h := ((reaches_inside (Or.inr ⟨rfl, rfl⟩) b p _ (by omega)).trans hes).trans
        (reaches_outside (Or.inr ⟨rfl, rfl⟩) b p rest (es.hangs _ _ _))
      rw [past_array, Value.render, List.cons_append, List.append_assoc, List.append_assoc]
      exact h

theorem reaches_members (ms : Members) (p : JsmnParser) (o : ℕ) (rest : List UInt8)
    (hrest : Delimits rest) (hsuper : p.toksuper = some o) (ho : o < p.tokens.length)
    (hroom : p.tokens.length + ms.size ≤ num) :
    ∃ s, Reaches num (ms.render ++ rest) p rest
      { pos := p.pos + ms.render.length
        toksuper := s
        tokens := bumpBy p.tokens o ms.count ++ ms.tokens p.pos p.tokens.length o
        count := p.count + ms.size } := by
  cases ms with
  | nil =>
      refine ⟨p.toksuper, ?_⟩
      simp only [Members.render, Members.count, Members.tokens, Members.size, bumpBy_zero,
        List.append_nil, List.length_nil, Nat.add_zero, List.nil_append]
      exact Reaches.refl _ _
  | cons b₁ key b₂ b₃ v b₄ ms =>
      rw [Members.size] at hroom
      have hlen : (p.atKey o b₁ key b₂ b₃).tokens.length = p.tokens.length + 1 := by
        simp [JsmnParser.atKey]
      have hval := reaches_value v (p.atKey o b₁ key b₂ b₃)
        (b₄.bytes ++ (ms.sep ++ (ms.render ++ rest)))
        (delimits_blank b₄ (delimits_members ms hrest)) (by omega)
      have hmem := (reaches_key b₁ key b₂ b₃ hsuper (by omega) _).trans
        (hval.trans (reaches_blank b₄ _ _))
      have htokens := past_atKey_tokens p o b₁ key b₂ b₃ v
      -- a last member is followed by no comma, so its key stays open
      rcases ms.nil_or_sep with rfl | hsep
      · refine ⟨some p.tokens.length, ?_⟩
        simp only [Members.render, Members.sep, Members.count, Members.tokens, Members.size,
          List.append_nil, List.nil_append, List.append_assoc, List.cons_append] at hmem ⊢
        convert hmem using 1
        rw [JsmnParser.skip, htokens]
        simp [JsmnParser.past, JsmnParser.atKey, valuePos, keyPos, keyTok]
        omega
      · have hcomma : Reaches num (ms.sep ++ (ms.render ++ rest))
            (((p.atKey o b₁ key b₂ b₃).past v).skip b₄.bytes.length) (ms.render ++ rest)
            (p.nextMember o b₁ key b₂ b₃ b₄ v) := by
          rw [hsep, ← leave_skip_eq]
          exact reaches_comma _ _
        have hlen : (p.nextMember o b₁ key b₂ b₃ b₄ v).tokens.length =
            p.tokens.length + 1 + v.size := by
          rw [JsmnParser.nextMember, List.length_append, List.length_cons, length_bumpBy,
            v.length_tokens]
          omega
        obtain ⟨s, hms⟩ := reaches_members ms (p.nextMember o b₁ key b₂ b₃ b₄ v) o rest hrest rfl
          (by omega) (by omega)
        refine ⟨s, ?_⟩
        rw [hlen] at hms
        have h := (hmem.trans hcomma).trans hms
        have hpos : (p.nextMember o b₁ key b₂ b₃ b₄ v).pos + ms.render.length =
            p.pos + (Members.cons b₁ key b₂ b₃ v b₄ ms).render.length := by
          simp [JsmnParser.nextMember, Members.render, valuePos, keyPos, hsep]
          omega
        have hcount : (p.nextMember o b₁ key b₂ b₃ b₄ v).count + ms.size =
            p.count + (Members.cons b₁ key b₂ b₃ v b₄ ms).size := by
          simp only [JsmnParser.nextMember, Members.size]
          omega
        rw [hpos, hcount] at h
        -- the tokens of the head and of the rest are those of the whole
        have htoks : bumpBy (p.nextMember o b₁ key b₂ b₃ b₄ v).tokens o ms.count ++
              ms.tokens (p.nextMember o b₁ key b₂ b₃ b₄ v).pos (p.tokens.length + 1 + v.size) o =
            bumpBy p.tokens o (Members.cons b₁ key b₂ b₃ v b₄ ms).count ++
              (Members.cons b₁ key b₂ b₃ v b₄ ms).tokens p.pos p.tokens.length o := by
          rw [JsmnParser.nextMember, bumpBy_append _ _ (by simpa using ho), bumpBy_bumpBy,
            Nat.add_comm 1, List.append_assoc, List.cons_append, Members.count, Members.tokens,
            hsep]
          rfl
        rw [htoks] at h
        simp only [Members.render, List.append_assoc, List.cons_append] at h ⊢
        exact h

theorem reaches_elements (es : Elements) (p : JsmnParser) (a : ℕ) (rest : List UInt8)
    (hrest : Delimits rest) (hsuper : p.toksuper = some a) {t : JsmnTok}
    (ht : p.tokens[a]? = some t) (htype : t.type = .array)
    (hroom : p.tokens.length + es.size ≤ num) :
    Reaches num (es.render ++ rest) p rest
      { pos := p.pos + es.render.length
        toksuper := some a
        tokens := bumpBy p.tokens a es.count ++ es.tokens p.pos p.tokens.length a
        count := p.count + es.size } := by
  cases es with
  | nil =>
      simp only [Elements.render, Elements.count, Elements.tokens, Elements.size, bumpBy_zero,
        List.append_nil, List.length_nil, Nat.add_zero, List.nil_append, ← hsuper]
      exact Reaches.refl _ _
  | cons b₁ v b₂ es =>
      rw [Elements.size] at hroom
      have hval := reaches_value v (p.skip b₁.bytes.length)
        (b₂.bytes ++ (es.sep ++ (es.render ++ rest)))
        (delimits_blank b₂ (delimits_elements es hrest)) (by
          change p.tokens.length + _ ≤ _
          omega)
      have helem := (reaches_blank b₁ _ _).trans (hval.trans (reaches_blank b₂ _ _))
      have ha : a < p.tokens.length := (List.getElem?_eq_some_iff.mp ht).1
      -- the array stays open behind the last element as behind any other
      rcases es.nil_or_sep with rfl | hsep
      · simp only [Elements.render, Elements.sep, Elements.count, Elements.tokens, Elements.size,
          List.append_nil, List.nil_append, List.append_assoc] at helem ⊢
        convert helem using 1
        simp [JsmnParser.past, JsmnParser.skip, hsuper, bumpSize_some]
        omega
      · obtain ⟨t', ht', htype'⟩ := nextElem_getElem? b₁ v b₂ ht
        have hnext := leave_nextElem hsuper ht htype b₁ v b₂
        have hcomma : Reaches num (es.sep ++ (es.render ++ rest))
            (((p.skip b₁.bytes.length).past v).skip b₂.bytes.length) (es.render ++ rest)
            (p.nextElem a b₁ v b₂) := by
          rw [hsep, ← hnext]
          exact reaches_comma _ _
        have hlen : (p.nextElem a b₁ v b₂).tokens.length = p.tokens.length + v.size := by
          rw [JsmnParser.nextElem, List.length_append, length_bumpBy, v.length_tokens]
        have hes := reaches_elements es (p.nextElem a b₁ v b₂) a rest hrest rfl ht'
          (htype'.trans htype) (by omega)
        rw [hlen] at hes
        have h := (helem.trans hcomma).trans hes
        have hpos : (p.nextElem a b₁ v b₂).pos + es.render.length =
            p.pos + (Elements.cons b₁ v b₂ es).render.length := by
          simp [JsmnParser.nextElem, Elements.render, hsep]
          omega
        have hcount : (p.nextElem a b₁ v b₂).count + es.size =
            p.count + (Elements.cons b₁ v b₂ es).size := by
          simp only [JsmnParser.nextElem, Elements.size]
          omega
        -- the tokens of the head and of the rest are those of the whole
        have htoks : bumpBy (p.nextElem a b₁ v b₂).tokens a es.count ++
              es.tokens (p.nextElem a b₁ v b₂).pos (p.tokens.length + v.size) a =
            bumpBy p.tokens a (Elements.cons b₁ v b₂ es).count ++
              (Elements.cons b₁ v b₂ es).tokens p.pos p.tokens.length a := by
          rw [JsmnParser.nextElem, bumpBy_append _ _ (by simpa using ha), bumpBy_bumpBy,
            Nat.add_comm 1, List.append_assoc, Elements.count, Elements.tokens, hsep]
          rfl
        rw [hpos, hcount, htoks] at h
        simp only [Elements.render, List.append_assoc] at h ⊢
        exact h

end

/-! ## The run over a document -/

theorem Value.stop_ne_none {v : Value} {pos i : ℕ} {parent : Option ℕ} {t : JsmnTok}
    (h : t ∈ v.tokens pos i parent) : t.stop ≠ none := by
  obtain ⟨j, hj, rfl⟩ := List.mem_iff_getElem.mp h
  exact (v.hangs pos i parent j _ (List.getElem?_eq_getElem hj)).1

/-- **`jsmn_parse` over the text of a document leaves the document's
tokens.** The text is the whole of it: what stands behind it in the block
is not read. -/
theorem jsmnParse_render {d : Document} (tail : List UInt8) (hroom : d.value.size ≤ num) :
    jsmnParse (d.render ++ tail) d.render.length (some num) =
      .ok (d.value.size, d.tokens) := by
  have hdelim : Delimits d.behind.bytes := by
    have hnil : Delimits [] := by
      intro c hc
      cases hc
    have := delimits_blank d.behind hnil
    rwa [List.append_nil] at this
  have hrun : Reaches num d.render jsmnInit []
      (((jsmnInit.skip d.before.bytes.length).past d.value).skip d.behind.bytes.length) := by
    refine (reaches_blank d.before jsmnInit _).trans
      ((reaches_value d.value _ _ hdelim ?_).trans ?_)
    · change 0 + d.value.size ≤ num
      omega
    · have : Reaches num _ _ [] _ := reaches_blank d.behind
        ((jsmnInit.skip d.before.bytes.length).past d.value) []
      rwa [List.append_nil] at this
  obtain ⟨fuel, -, hloop⟩ := hrun d.render.length (Nat.le_refl _)
  have hend : jsmnLoop false (some num) fuel []
      (((jsmnInit.skip d.before.bytes.length).past d.value).skip d.behind.bytes.length) = .ok
      (((jsmnInit.skip d.before.bytes.length).past d.value).skip d.behind.bytes.length) := by
    cases fuel <;> rfl
  have htokens : (((jsmnInit.skip d.before.bytes.length).past d.value).skip
      d.behind.bytes.length).tokens = d.tokens := by
    simp [JsmnParser.past, JsmnParser.skip, jsmnInit, bumpSize, Document.tokens]
  have hover : decide ((d.render ++ tail).length < d.render.length) = false := by simp
  -- an object or array left open would be an error
  have hclosed : ¬ d.tokens.any (·.stop = none) = true := by
    intro h
    obtain ⟨t, ht, hstop⟩ := List.any_eq_true.mp h
    exact Value.stop_ne_none ht (of_decide_eq_true hstop)
  rw [jsmnParse, List.take_left, hover, hloop, hend]
  change (if _ then _ else _) = _
  rw [htokens, if_neg hclosed]
  simp [JsmnParser.past, JsmnParser.skip, jsmnInit]

end Jsmn

end WeatherTerminal
