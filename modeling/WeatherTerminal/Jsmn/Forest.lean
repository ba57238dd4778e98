import WeatherTerminal.Common.Run
import WeatherTerminal.Jsmn.Model.Tokenizer
import Mathlib.Data.List.GetD
import Mathlib.Tactic.Common
/-!
# jsmn — the token array is a forest

What one round of the tokenizer can do is said once (`JsmnStep`), and
every fact about a whole parse is an invariant of it (`jsmnLoop_induct`).
Two are carried here. `IsForest`: a token's parent stands before it, the
first child of a token stands right behind it, and `size` counts the
children. `Laid`: a string or primitive lies inside the text, holds no
NUL, and ends before the next one starts. Both hold of every text the
tokenizer accepts, well-formed JSON or not.
-/

namespace WeatherTerminal

namespace Jsmn

variable {beyond : Bool} {num : ℕ} {c : UInt8} {cs : List UInt8} {p p' : JsmnParser} {n : ℕ}

/-! ## What a round does -/

/-- What a closing bracket does to the parser: it closes an open token of its
kind, or there is none. -/
inductive Closes (p : JsmnParser) (type : JsmnType) : JsmnParser → Prop
  /-- It closes an open token of its kind. -/
  | shut {i : ℕ} {t : JsmnTok} : p.tokens[i]? = some t → t.stop = none → t.type = type →
      Closes p type { p with
        tokens := p.tokens.set i { t with stop := some (p.pos + 1) }
        toksuper := t.parent }
  /-- Nothing is open on the way up, and nothing changes. -/
  | stray : Closes p type p

/-- **What one round of the loop does** with a token array of `num`
tokens. -/
inductive JsmnStep (beyond : Bool) (num : ℕ) (c : UInt8) (cs : List UInt8) (p : JsmnParser) :
    JsmnParser → ℕ → Prop
  | opened {type : JsmnType} : c = lbrace ∧ type = .object ∨ c = lbracket ∧ type = .array →
      p.tokens.length < num → JsmnStep beyond num c cs p (p.add type p.pos none).enter 1
  | closed {type : JsmnType} {p' : JsmnParser} :
      c = rbrace ∧ type = .object ∨ c = rbracket ∧ type = .array →
      Closes p type p' → JsmnStep beyond num c cs p p' 1
  | string {m : ℕ} : c = quote → scanString beyond 0 cs = .ok m → p.tokens.length < num →
      JsmnStep beyond num c cs p (p.add .string (p.pos + 1) (some (p.pos + 1 + m))) (m + 2)
  | space : isSpace c → JsmnStep beyond num c cs p p 1
  | colon : c = Jsmn.colon → JsmnStep beyond num c cs p p.enter 1
  | comma : c = Jsmn.comma → JsmnStep beyond num c cs p p.leave 1
  | primitive {n : ℕ} : endsPrimitive c = false → scanPrimitive beyond (c :: cs) = .ok n →
      p.tokens.length < num →
      JsmnStep beyond num c cs p (p.add .primitive p.pos (some (p.pos + n))) n

/-- A token that is pushed had room among the tokens, and is the last of them.
-/
theorem push_some {type : JsmnType} {start : ℕ} {stop : Option ℕ}
    (h : p.push (some num) type start stop = .ok p') :
    p.tokens.length < num ∧ p' = p.add type start stop := by
  change (if num ≤ p.tokens.length then _ else _) = _ at h
  split at h
  · cases h
  · exact ⟨by omega, (Except.ok.inj h).symm⟩

/-- The loop that looks for the open token goes up from token to parent: it
closes one of its kind, or changes nothing. -/
theorem closeFrom_ok {type : JsmnType} {pos : ℕ} {tokens : List JsmnTok} {s : Option ℕ} :
    ∀ {fuel i : ℕ} {r : List JsmnTok × Option ℕ},
      closeFrom type pos tokens s fuel i = .ok r →
      (∃ j t, tokens[j]? = some t ∧ t.stop = none ∧ t.type = type ∧
        r = (tokens.set j { t with stop := some (pos + 1) }, t.parent)) ∨ r = (tokens, s) := by
  intro fuel
  induction fuel with
  | zero => intro i r h; cases h
  | succ fuel ih =>
      intro i r h
      unfold closeFrom at h
      split at h
      · cases h
      · rename_i t ht
        by_cases hopen : t.stop = none
        · rw [if_pos hopen] at h
          split at h
          · cases h
          · rename_i hty
            exact Or.inl ⟨i, t, ht, hopen, by simpa using hty, (Except.ok.inj h).symm⟩
        · rw [if_neg hopen] at h
          split at h
          · split at h
            · cases h
            · exact Or.inr (Except.ok.inj h).symm
          · exact ih h

/-- A bracket that closes without an error closes the token that is open. -/
theorem closes_of_close {type : JsmnType} (h : p.close type = .ok p') : Closes p type p' := by
  unfold JsmnParser.close at h
  split at h
  · cases h
  · obtain ⟨r, hr, rfl⟩ : ∃ r, closeFrom type p.pos p.tokens p.toksuper p.tokens.length
        (p.tokens.length - 1) = .ok r ∧ p' = { p with tokens := r.1, toksuper := r.2 } := by
      cases hc : closeFrom type p.pos p.tokens p.toksuper p.tokens.length
        (p.tokens.length - 1) with
      | error e => rw [hc] at h; cases h
      | ok r => rw [hc] at h; exact ⟨r, rfl, (Except.ok.inj h).symm⟩
    rcases closeFrom_ok hr with ⟨j, t, ht, hopen, hty, rfl⟩ | rfl
    · exact Closes.shut ht hopen hty
    · exact Closes.stray

/-- A round that succeeds is one of the rounds the tokenizer can make. -/
theorem jsmnStep_ok (h : jsmnStep beyond (some num) c cs p = .ok (p', n)) :
    JsmnStep beyond num c cs p p' n := by
  unfold jsmnStep at h
  -- one constructor for each branch, in the order of the source
  split at h
  · rename_i hc
    obtain ⟨q, hq, h⟩ := exists_of_bind_eq_ok h
    obtain ⟨hlt, rfl⟩ := push_some hq
    obtain ⟨rfl, rfl⟩ := Prod.mk.inj (Except.ok.inj h)
    refine JsmnStep.opened ?_ hlt
    rcases hc with rfl | rfl
    · exact Or.inl ⟨rfl, by simp⟩
    · exact Or.inr ⟨rfl, by decide⟩
  split at h
  · rename_i hc
    rw [if_neg (by simp)] at h
    obtain ⟨q, hq, h⟩ := exists_of_bind_eq_ok h
    obtain ⟨rfl, rfl⟩ := Prod.mk.inj (Except.ok.inj h)
    refine JsmnStep.closed ?_ (closes_of_close hq)
    rcases hc with rfl | rfl
    · exact Or.inl ⟨rfl, by simp⟩
    · exact Or.inr ⟨rfl, by decide⟩
  split at h
  · rename_i hc
    obtain ⟨m, hm, h⟩ := exists_of_bind_eq_ok h
    obtain ⟨q, hq, h⟩ := exists_of_bind_eq_ok h
    obtain ⟨hlt, rfl⟩ := push_some hq
    obtain ⟨rfl, rfl⟩ := Prod.mk.inj (Except.ok.inj h)
    exact JsmnStep.string hc hm hlt
  split at h
  · rename_i hc
    obtain ⟨rfl, rfl⟩ := Prod.mk.inj (Except.ok.inj h)
    exact JsmnStep.space hc
  split at h
  · rename_i hc
    obtain ⟨rfl, rfl⟩ := Prod.mk.inj (Except.ok.inj h)
    exact JsmnStep.colon hc
  split at h
  · rename_i hc
    obtain ⟨rfl, rfl⟩ := Prod.mk.inj (Except.ok.inj h)
    exact JsmnStep.comma hc
  · obtain ⟨m, hm, h⟩ := exists_of_bind_eq_ok h
    obtain ⟨q, hq, h⟩ := exists_of_bind_eq_ok h
    obtain ⟨hlt, rfl⟩ := push_some hq
    obtain ⟨rfl, rfl⟩ := Prod.mk.inj (Except.ok.inj h)
    refine JsmnStep.primitive ?_ hm hlt
    simp_all [endsPrimitive]

/-! ## Invariants of a parse -/

/-- Adding a token leaves the parser where it is in the text. -/
@[simp] theorem add_pos (type : JsmnType) (start : ℕ) (stop : Option ℕ) :
    (p.add type start stop).pos = p.pos := rfl

/-- So does making it the one that takes the next tokens. -/
@[simp] theorem enter_pos : p.enter.pos = p.pos := rfl

@[simp] theorem leave_pos : p.leave.pos = p.pos := by
  unfold JsmnParser.leave
  repeat' split
  all_goals rfl

@[simp] theorem leave_tokens : p.leave.tokens = p.tokens := by
  unfold JsmnParser.leave
  repeat' split
  all_goals rfl

/-- A round leaves the position to the loop, which moves it behind what the
round has taken. -/
theorem JsmnStep.pos_eq (h : JsmnStep beyond num c cs p p' n) : p'.pos = p.pos := by
  cases h with
  | closed _ hc => cases hc <;> rfl
  | _ => simp

/-- **An invariant every round keeps holds at the end of the loop.** -/
theorem jsmnLoop_induct {Inv : JsmnParser → Prop} {text : List UInt8}
    (hstep : ∀ p c cs p' n, text.drop p.pos = c :: cs → c ≠ 0 → Inv p →
      JsmnStep beyond num c cs p p' n → Inv (p'.skip n)) :
    ∀ {fuel : ℕ} {rest : List UInt8} {p q : JsmnParser}, text.drop p.pos = rest → Inv p →
      jsmnLoop beyond (some num) fuel rest p = .ok q → Inv q := by
  intro fuel
  induction fuel with
  | zero =>
      intro rest p q _ hp h
      cases rest with
      | nil =>
          unfold jsmnLoop at h
          split at h
          · cases h
          · exact Except.ok.inj h ▸ hp
      | cons c cs => cases h
  | succ fuel ih =>
      intro rest p q hrest hp h
      cases rest with
      | nil =>
          unfold jsmnLoop at h
          split at h
          · cases h
          · exact Except.ok.inj h ▸ hp
      | cons c cs =>
          unfold jsmnLoop at h
          split at h
          · exact Except.ok.inj h ▸ hp
          · -- the step lemma, and the rest of the text for the rest of the run
            rename_i hc
            obtain ⟨⟨p', n⟩, hs, h⟩ := exists_of_bind_eq_ok h
            have hs := jsmnStep_ok hs
            refine ih ?_ (hstep p c cs p' n hrest hc hp hs) h
            rw [JsmnParser.skip, hs.pos_eq, ← List.drop_drop, hrest]

/-! ## The forest -/

/-- **The token array is a forest**, laid out in the order of the text. -/
structure IsForest (tokens : List JsmnTok) : Prop where
  parent_lt : ∀ {i : ℕ} {t : JsmnTok} {j : ℕ}, tokens[i]? = some t → t.parent = some j → j < i
  first_child : ∀ {i : ℕ} {t : JsmnTok} {j : ℕ}, tokens[i]? = some t → t.parent = some j →
    ∃ u, tokens[j + 1]? = some u ∧ u.parent = some j
  size_eq : ∀ {i : ℕ} {t : JsmnTok}, tokens[i]? = some t →
    t.size = tokens.countP (·.parent = some i)

/-- The forest of a parser at work. `toksuper` is a token, and has its
first child right behind it once it has one. -/
structure Grows (p : JsmnParser) : Prop where
  forest : IsForest p.tokens
  super_lt : ∀ {s : ℕ}, p.toksuper = some s → s < p.tokens.length
  super_first : ∀ {s : ℕ}, p.toksuper = some s → s + 1 = p.tokens.length ∨
    ∃ u, p.tokens[s + 1]? = some u ∧ u.parent = some s
  count_eq : p.count = p.tokens.length

/-- Counting a child changes the size of its parent and nothing else. -/
theorem bumpSize_getElem? (tokens : List JsmnTok) (s : Option ℕ) (i : ℕ) :
    (bumpSize tokens s)[i]? =
      tokens[i]?.map fun t => if s = some i then { t with size := t.size + 1 } else t := by
  cases s with
  | none => simp [bumpSize]
  | some s =>
      rw [bumpSize, List.getElem?_modify]
      by_cases h : s = i
      · simp [h]
      · have : ¬ some s = some i := fun h' => h (Option.some.inj h')
        simp [h]

@[simp] theorem bumpSize_length (tokens : List JsmnTok) (s : Option ℕ) :
    (bumpSize tokens s).length = tokens.length := by
  cases s <;> simp [bumpSize]

/-- Counting children does not see the sizes, only which parent each token
has. -/
theorem countP_parent_eq {ts us : List JsmnTok} (h : ts.map (·.parent) = us.map (·.parent))
    (j : Option ℕ) : ts.countP (·.parent = j) = us.countP (·.parent = j) := by
  have hmap : ∀ l : List JsmnTok,
      l.countP (·.parent = j) = (l.map (·.parent)).countP (· = j) := fun l => by
    rw [List.countP_map]; rfl
  rw [hmap, hmap, h]

/-- Two arrays have the same parents where each of their tokens has. -/
theorem map_parent_eq {ts us : List JsmnTok}
    (h : ∀ i : ℕ, ts[i]?.map (·.parent) = us[i]?.map (·.parent)) :
    ts.map (·.parent) = us.map (·.parent) :=
  List.ext_getElem? fun i => by simpa using h i

theorem bumpSize_map_parent (tokens : List JsmnTok) (s : Option ℕ) :
    (bumpSize tokens s).map (·.parent) = tokens.map (·.parent) := by
  refine map_parent_eq fun i => ?_
  rw [bumpSize_getElem?, Option.map_map]
  congr 1
  funext t
  simp only [Function.comp]
  split <;> rfl

/-- What a token array looks like after one token more. -/
theorem add_getElem? {type : JsmnType} {start : ℕ} {stop : Option ℕ} {i : ℕ} {t : JsmnTok}
    (h : (p.add type start stop).tokens[i]? = some t) :
    (∃ u, p.tokens[i]? = some u ∧
      t = if p.toksuper = some i then { u with size := u.size + 1 } else u) ∨
    i = p.tokens.length ∧ t = ⟨type, start, stop, 0, p.toksuper⟩ := by
  rw [JsmnParser.add, List.getElem?_append, bumpSize_length] at h
  split at h
  · rw [bumpSize_getElem?, Option.map_eq_some_iff] at h
    obtain ⟨u, hu, rfl⟩ := h
    exact Or.inl ⟨u, hu, rfl⟩
  · rename_i hi
    rw [List.getElem?_singleton] at h
    split at h
    · exact Or.inr ⟨by omega, (Option.some.inj h).symm⟩
    · cases h

/-- An old token keeps its parent when another is added behind it. -/
theorem add_getElem?_old (type : JsmnType) (start : ℕ) (stop : Option ℕ) {i : ℕ} {u : JsmnTok}
    (h : p.tokens[i]? = some u) :
    ∃ t, (p.add type start stop).tokens[i]? = some t ∧ t.parent = u.parent := by
  have hi : i < p.tokens.length := (List.getElem?_eq_some_iff.mp h).1
  refine ⟨if p.toksuper = some i then { u with size := u.size + 1 } else u, ?_, by split <;> rfl⟩
  rw [JsmnParser.add, List.getElem?_append_left (by rwa [bumpSize_length]), bumpSize_getElem?, h]
  rfl

/-- The token that is added is the last one, a child of `toksuper` without
children. -/
theorem add_getElem?_new (type : JsmnType) (start : ℕ) (stop : Option ℕ) :
    (p.add type start stop).tokens[p.tokens.length]? = some ⟨type, start, stop, 0, p.toksuper⟩ := by
  rw [JsmnParser.add, List.getElem?_append_right (by simp), bumpSize_length]
  simp

@[simp] theorem add_tokens_length (type : JsmnType) (start : ℕ) (stop : Option ℕ) :
    (p.add type start stop).tokens.length = p.tokens.length + 1 := by
  simp [JsmnParser.add]

/-- **One token more keeps the forest**, being a child of a token before it,
or a root. -/
theorem Grows.add (hp : Grows p) (type : JsmnType) (start : ℕ) (stop : Option ℕ) :
    Grows (p.add type start stop) where
  forest.parent_lt := by
    intro i t j ht hj
    rcases add_getElem? ht with ⟨u, hu, rfl⟩ | ⟨rfl, rfl⟩
    · exact hp.forest.parent_lt hu (by split at hj <;> exact hj)
    · exact hp.super_lt hj
  forest.first_child := by
    intro i t j ht hj
    rcases add_getElem? ht with ⟨u, hu, rfl⟩ | ⟨rfl, rfl⟩
    · obtain ⟨v, hv, hvj⟩ := hp.forest.first_child hu (by split at hj <;> exact hj)
      obtain ⟨w, hw, hwv⟩ := add_getElem?_old type start stop hv
      exact ⟨w, hw, hwv.trans hvj⟩
    · rcases hp.super_first hj with hlast | ⟨v, hv, hvj⟩
      · exact ⟨_, hlast ▸ add_getElem?_new type start stop, hj⟩
      · obtain ⟨w, hw, hwv⟩ := add_getElem?_old type start stop hv
        exact ⟨w, hw, hwv.trans hvj⟩
  forest.size_eq := by
    intro i t ht
    -- the new token is a child of the open one, and of no other
    have hcount : (p.add type start stop).tokens.countP (·.parent = some i) =
        p.tokens.countP (·.parent = some i) + if p.toksuper = some i then 1 else 0 := by
      rw [JsmnParser.add, List.countP_append,
        countP_parent_eq (bumpSize_map_parent p.tokens p.toksuper)]
      simp [List.countP_singleton]
    rw [hcount]
    rcases add_getElem? ht with ⟨u, hu, rfl⟩ | ⟨rfl, rfl⟩
    · rw [← hp.forest.size_eq hu]
      split <;> rfl
    · have hnone : p.tokens.countP (·.parent = some p.tokens.length) = 0 := by
        rw [List.countP_eq_zero]
        intro u hu hpar
        obtain ⟨k, hk, rfl⟩ := List.mem_iff_getElem.mp hu
        have := hp.forest.parent_lt (List.getElem?_eq_getElem hk) (of_decide_eq_true hpar)
        omega
      have hsuper : p.toksuper ≠ some p.tokens.length := fun h =>
        Nat.lt_irrefl _ (hp.super_lt h)
      simp [hnone, hsuper]
  super_lt := by
    intro s hs
    have := hp.super_lt hs
    rw [add_tokens_length]
    omega
  super_first := by
    intro s hs
    rcases hp.super_first hs with hlast | ⟨v, hv, hvs⟩
    · exact Or.inr ⟨_, hlast ▸ add_getElem?_new type start stop, hs⟩
    · obtain ⟨w, hw, hwv⟩ := add_getElem?_old type start stop hv
      exact Or.inr ⟨w, hw, hwv.trans hvs⟩
  count_eq := by
    rw [add_tokens_length, ← hp.count_eq]
    rfl

/-- Making the last token `toksuper` keeps it, for that is a token or none. -/
theorem Grows.enter (hp : Grows p) : Grows p.enter where
  forest := hp.forest
  super_lt := by
    intro s hs
    simp only [JsmnParser.enter] at hs ⊢
    split at hs
    · cases hs
    · obtain rfl := Option.some.inj hs
      omega
  super_first := by
    intro s hs
    simp only [JsmnParser.enter] at hs ⊢
    split at hs
    · cases hs
    · obtain rfl := Option.some.inj hs
      exact Or.inl (by omega)
  count_eq := hp.count_eq

/-- So does making the parent of a token `toksuper`, which is a token before
it or none. -/
theorem Grows.climb (hp : Grows p) {i : ℕ} {t : JsmnTok} (ht : p.tokens[i]? = some t) :
    Grows { p with toksuper := t.parent } where
  forest := hp.forest
  super_lt := by
    intro s hs
    have := hp.forest.parent_lt ht hs
    have := (List.getElem?_eq_some_iff.mp ht).1
    simp only
    omega
  super_first := fun hs => Or.inr (hp.forest.first_child ht hs)
  count_eq := hp.count_eq

theorem Grows.leave (hp : Grows p) : Grows p.leave := by
  unfold JsmnParser.leave
  split
  · exact hp
  · split
    · exact hp
    · rename_i t ht
      split
      · exact hp.climb ht
      · exact hp

/-- And so does setting the end of a token, which is no part of the forest. -/
theorem Grows.setStop (hp : Grows p) {i : ℕ} {t : JsmnTok} (ht : p.tokens[i]? = some t)
    (stop : Option ℕ) : Grows { p with tokens := p.tokens.set i { t with stop := stop } } := by
  have hi : i < p.tokens.length := (List.getElem?_eq_some_iff.mp ht).1
  -- the array differs from the old one in ends only
  have hset : ∀ {k : ℕ} {u : JsmnTok}, (p.tokens.set i { t with stop := stop })[k]? = some u →
      ∃ v, p.tokens[k]? = some v ∧ u.parent = v.parent ∧ u.size = v.size := by
    intro k u hu
    rw [List.getElem?_set] at hu
    split at hu
    · rename_i hik
      obtain rfl := Option.some.inj hu
      exact ⟨t, hik ▸ ht, rfl, rfl⟩
    · exact ⟨u, hu, rfl, rfl⟩
  have hold : ∀ {k : ℕ} {v : JsmnTok}, p.tokens[k]? = some v →
      ∃ u, (p.tokens.set i { t with stop := stop })[k]? = some u ∧ u.parent = v.parent := by
    intro k v hv
    by_cases hik : i = k
    · subst hik
      rw [ht] at hv
      obtain rfl := Option.some.inj hv
      exact ⟨{ t with stop := stop }, List.getElem?_set_self hi, rfl⟩
    · exact ⟨v, by rw [List.getElem?_set_ne hik]; exact hv, rfl⟩
  have hmap : (p.tokens.set i { t with stop := stop }).map (·.parent) =
      p.tokens.map (·.parent) := by
    refine map_parent_eq fun k => ?_
    by_cases hik : i = k
    · subst hik
      rw [List.getElem?_set_self hi, ht]
      rfl
    · rw [List.getElem?_set_ne hik]
  refine ⟨⟨?_, ?_, ?_⟩, ?_, ?_, ?_⟩
  · intro k u j hu hj
    obtain ⟨v, hv, hpar, -⟩ := hset hu
    exact hp.forest.parent_lt hv (hpar ▸ hj)
  · intro k u j hu hj
    obtain ⟨v, hv, hpar, -⟩ := hset hu
    obtain ⟨w, hw, hwj⟩ := hp.forest.first_child hv (hpar ▸ hj)
    obtain ⟨w', hw', hww⟩ := hold hw
    exact ⟨w', hw', hww.trans hwj⟩
  · intro k u hu
    obtain ⟨v, hv, -, hsize⟩ := hset hu
    rw [hsize, hp.forest.size_eq hv, countP_parent_eq hmap]
  · intro s hs
    rw [List.length_set]
    exact hp.super_lt hs
  · intro s hs
    rw [List.length_set]
    rcases hp.super_first hs with hlast | ⟨v, hv, hvs⟩
    · exact Or.inl hlast
    · obtain ⟨u, hu, huv⟩ := hold hv
      exact Or.inr ⟨u, hu, huv.trans hvs⟩
  · rw [List.length_set]
    exact hp.count_eq

/-- **Every round keeps the forest**, by cases on what the round does. -/
theorem Grows.step (hp : Grows p) (h : JsmnStep beyond num c cs p p' n) : Grows p' := by
  cases h with
  | opened => exact (hp.add _ _ _).enter
  | closed _ hc =>
      cases hc with
      | stray => exact hp
      | @shut i t ht =>
          have hi : i < p.tokens.length := (List.getElem?_eq_some_iff.mp ht).1
          have hset : (p.tokens.set i { t with stop := some (p.pos + 1) })[i]? = some _ :=
            List.getElem?_set_self hi
          have h := (hp.setStop ht (some (p.pos + 1))).climb hset
          exact h
  | string => exact hp.add _ _ _
  | space => exact hp
  | colon => exact hp.enter
  | comma => exact hp.leave
  | primitive => exact hp.add _ _ _

/-! ## The layout of the scalars -/

/-- A string or primitive, the tokens that carry a text. -/
def JsmnTok.isScalar (t : JsmnTok) : Bool := t.type = .string || t.type = .primitive

/-- The bytes a token covers, from its start to its end, without the quotes of
a string. -/
def JsmnTok.raw (js : List UInt8) (t : JsmnTok) : List UInt8 :=
  (js.drop t.start).take (t.stop.getD 0 - t.start)

/-- A scalar with its end, inside the text and free of NULs. -/
structure Covers (text : List UInt8) (t : JsmnTok) (e : ℕ) : Prop where
  stop_eq : t.stop = some e
  start_le : t.start ≤ e
  le_length : e ≤ text.length
  zero_notMem : 0 ∉ t.raw text

/-- **The scalars cover disjoint stretches of the text**, in the order of
the array, with a byte between any two of them. -/
structure IsLaid (text : List UInt8) (tokens : List JsmnTok) : Prop where
  covers : ∀ {i : ℕ} {t : JsmnTok}, tokens[i]? = some t → t.isScalar → ∃ e, Covers text t e
  apart : ∀ {i j : ℕ} {a b : JsmnTok} {e : ℕ}, i < j → tokens[i]? = some a →
    tokens[j]? = some b → a.isScalar → b.isScalar → a.stop = some e → e < b.start

/-- The layout of a parser at work: no scalar reaches past its position,
and one that reaches it was ended by the byte there. -/
structure Lays (text : List UInt8) (p : JsmnParser) : Prop where
  laid : IsLaid text p.tokens
  behind : ∀ {i : ℕ} {t : JsmnTok} {e : ℕ}, p.tokens[i]? = some t → t.isScalar →
    t.stop = some e → e ≤ p.pos ∧
      (e = p.pos → ∀ c, text[p.pos]? = some c → c = 0 ∨ endsPrimitive c)

/-- A string that is scanned ends in the text, and there is no NUL in it. -/
theorem scanString_ok {hex m : ℕ} {cs : List UInt8} (h : scanString beyond hex cs = .ok m) :
    m ≤ cs.length ∧ 0 ∉ cs.take m := by
  fun_induction scanString beyond hex cs generalizing m with
  | case1 | case2 | case4 | case5 | case7 | case10 => cases h
  | case3 hex c cs hc _ ih | case11 c cs hc _ _ ih =>
      obtain ⟨k, hk, rfl⟩ := exists_of_map_eq_ok h
      obtain ⟨hle, hz⟩ := ih hk
      exact ⟨by simpa using hle, by simpa [hz] using Ne.symm hc⟩
  | case6 =>
      obtain rfl := Except.ok.inj h
      exact ⟨by simp, by simp⟩
  | case8 e cs he _ _ ih =>
      obtain ⟨k, hk, rfl⟩ := exists_of_map_eq_ok h
      obtain ⟨hle, hz⟩ := ih hk
      have he0 : 0 ≠ e := by
        rintro rfl
        exact absurd he (by decide)
      have hb : (0 : UInt8) ≠ backslash := by decide
      exact ⟨by simpa using hle, by simp [hz, he0, hb]⟩
  | case9 cs _ _ _ ih =>
      obtain ⟨k, hk, rfl⟩ := exists_of_map_eq_ok h
      obtain ⟨hle, hz⟩ := ih hk
      have hb : (0 : UInt8) ≠ backslash := by decide
      exact ⟨by simpa using hle, by simp [hz, hb]⟩

/-- A primitive that is scanned ends in the text before a byte that may end
it, and there is no NUL in it. -/
theorem scanPrimitive_ok {m : ℕ} {cs : List UInt8} (h : scanPrimitive beyond cs = .ok m) :
    m ≤ cs.length ∧ 0 ∉ cs.take m ∧ ∀ c, cs[m]? = some c → c = 0 ∨ endsPrimitive c := by
  fun_induction scanPrimitive beyond cs generalizing m with
  | case1 | case5 => cases h
  | case2 | case3 | case4 =>
      obtain rfl := Except.ok.inj h
      simp_all
  | case6 c cs hc he _ ih =>
      obtain ⟨k, hk, rfl⟩ := exists_of_map_eq_ok h
      obtain ⟨hle, hz, hend⟩ := ih hk
      exact ⟨by simpa using hle, by simpa [hz] using Ne.symm hc, by simpa using hend⟩

variable {text : List UInt8}

/-- Moving on without a new scalar keeps the layout, whatever else becomes of
the tokens. -/
theorem Lays.move (hp : Lays text p) (hlt : p.pos < p'.pos)
    (hold : ∀ {i : ℕ} {t : JsmnTok}, p'.tokens[i]? = some t → t.isScalar →
      ∃ u, p.tokens[i]? = some u ∧ u.isScalar ∧ u.start = t.start ∧ u.stop = t.stop) :
    Lays text p' := by
  refine ⟨⟨?_, ?_⟩, ?_⟩
  · intro i t ht hs
    obtain ⟨u, hu, hus, hstart, hstop⟩ := hold ht hs
    obtain ⟨e, he, hle, hlen, hz⟩ := hp.laid.covers hu hus
    rw [JsmnTok.raw, hstart, hstop] at hz
    exact ⟨e, hstop ▸ he, hstart ▸ hle, hlen, hz⟩
  · intro i j a b e hij ha hb has hbs he
    obtain ⟨u, hu, hus, -, hustop⟩ := hold ha has
    obtain ⟨v, hv, hvs, hvstart, -⟩ := hold hb hbs
    exact hvstart ▸ hp.laid.apart hij hu hv hus hvs (hustop.trans he)
  · intro i t e ht hs he
    obtain ⟨u, hu, hus, -, hstop⟩ := hold ht hs
    have := (hp.behind hu hus (hstop.trans he)).1
    exact ⟨by omega, fun h => by omega⟩

/-- **One scalar more keeps the layout**, where it starts behind every
scalar there is. -/
theorem Lays.add_scalar (hp : Lays text p) (type : JsmnType) {start e q : ℕ}
    (hstart : start ≤ e) (hle : e ≤ text.length)
    (hz : 0 ∉ (text.drop start).take (e - start))
    (hbefore : ∀ {i : ℕ} {t : JsmnTok} {e' : ℕ}, p.tokens[i]? = some t → t.isScalar →
      t.stop = some e' → e' < start)
    (hq : e ≤ q) (hend : e = q → ∀ c, text[q]? = some c → c = 0 ∨ endsPrimitive c) :
    Lays text { p.add type start (some e) with pos := q } := by
  -- an old token keeps its span, whatever happened to its size
  have hold : ∀ {i : ℕ} {t u : JsmnTok}, t = (if p.toksuper = some i then
      { u with size := u.size + 1 } else u) →
      t.isScalar = u.isScalar ∧ t.start = u.start ∧ t.stop = u.stop := by
    intro i t u h
    subst h
    split <;> exact ⟨rfl, rfl, rfl⟩
  refine ⟨⟨?_, ?_⟩, ?_⟩
  · intro i t ht hs
    rcases add_getElem? ht with ⟨u, hu, h⟩ | ⟨rfl, rfl⟩
    · obtain ⟨hsc, hst, hsp⟩ := hold h
      obtain ⟨e', he', hle', hlen, hz'⟩ := hp.laid.covers hu (hsc ▸ hs)
      rw [JsmnTok.raw, ← hst, ← hsp] at hz'
      exact ⟨e', hsp ▸ he', hst ▸ hle', hlen, hz'⟩
    · exact ⟨e, rfl, hstart, hle, hz⟩
  · intro i j a b e' hij ha hb has hbs he'
    rcases add_getElem? ha with ⟨u, hu, h⟩ | ⟨rfl, rfl⟩
    · obtain ⟨hsc, -, hsp⟩ := hold h
      rcases add_getElem? hb with ⟨v, hv, h'⟩ | ⟨rfl, rfl⟩
      · obtain ⟨hsc', hst', -⟩ := hold h'
        exact hst' ▸ hp.laid.apart hij hu hv (hsc ▸ has) (hsc' ▸ hbs) (hsp ▸ he')
      · exact hbefore hu (hsc ▸ has) (hsp ▸ he')
    · have := (List.getElem?_eq_some_iff.mp hb).1
      rw [add_tokens_length] at this
      omega
  · intro i t e' ht hs he'
    rcases add_getElem? ht with ⟨u, hu, h⟩ | ⟨rfl, rfl⟩
    · obtain ⟨hsc, -, hsp⟩ := hold h
      have := hbefore hu (hsc ▸ hs) (hsp ▸ he')
      exact ⟨by simp only; omega, fun h => by simp only at h; omega⟩
    · obtain rfl := Option.some.inj he'
      exact ⟨hq, hend⟩

/-- **Every round keeps the layout**, by cases on what the round does. -/
theorem Lays.step (hp : Lays text p) (hrest : text.drop p.pos = c :: cs) (hc : c ≠ 0)
    (h : JsmnStep beyond num c cs p p' n) : Lays text (p'.skip n) := by
  have hlen : p.pos + cs.length + 1 = text.length := by
    have := congrArg List.length hrest
    simp at this
    omega
  have hhead : text[p.pos]? = some c := by
    rw [← Nat.add_zero p.pos, ← List.getElem?_drop, hrest]
    rfl
  cases h with
  | @opened type htype =>
      refine hp.move (by simp [JsmnParser.skip]) fun {i t} ht hs => ?_
      rcases add_getElem? ht with ⟨u, hu, rfl⟩ | ⟨rfl, rfl⟩
      · refine ⟨u, hu, ?_⟩
        split at hs <;> split <;> exact ⟨hs, rfl, rfl⟩
      · rcases htype with ⟨-, rfl⟩ | ⟨-, rfl⟩ <;> cases hs
  | closed _ hcl =>
      cases hcl with
      | stray => exact hp.move (by simp [JsmnParser.skip]) fun ht hs => ⟨_, ht, hs, rfl, rfl⟩
      | @shut i t ht hopen =>
          refine hp.move (by simp [JsmnParser.skip]) fun {k u} hu hs => ?_
          simp only [JsmnParser.skip] at hu
          rw [List.getElem?_set] at hu
          split at hu
          · -- an open token is no scalar
            rw [if_pos (List.getElem?_eq_some_iff.mp ht).1] at hu
            obtain rfl := Option.some.inj hu
            obtain ⟨e, he, -⟩ := hp.laid.covers ht hs
            rw [hopen] at he
            cases he
          · exact ⟨u, hu, hs, rfl, rfl⟩
  | @string m _ hm =>
      obtain ⟨hle, hz⟩ := scanString_ok hm
      have hcs : text.drop (p.pos + 1) = cs := by rw [← List.drop_drop, hrest]; rfl
      refine hp.add_scalar .string (by omega) (by omega) ?_ ?_ (by simp; omega)
        (fun h => by simp at h; omega)
      · rw [hcs, Nat.add_sub_cancel_left]
        exact hz
      · intro i t e' ht hs he'
        have := (hp.behind ht hs he').1
        omega
  | space => exact hp.move (by simp [JsmnParser.skip]) fun ht hs => ⟨_, ht, hs, rfl, rfl⟩
  | colon => exact hp.move (by simp [JsmnParser.skip]) fun ht hs => ⟨_, ht, hs, rfl, rfl⟩
  | comma =>
      exact hp.move (by simp [JsmnParser.skip]) fun ht hs =>
        ⟨_, by simpa [JsmnParser.skip] using ht, hs, rfl, rfl⟩
  | primitive hce hn =>
      obtain ⟨hle, hz, hend⟩ := scanPrimitive_ok hn
      refine hp.add_scalar .primitive (by omega) (by simp at hle; omega) ?_ ?_ (Nat.le_refl _) ?_
      · rw [hrest, Nat.add_sub_cancel_left]
        exact hz
      · intro i t e' ht hs he'
        obtain ⟨hle', hat⟩ := hp.behind ht hs he'
        -- a scalar that reached the position would have been ended by `c`
        rcases Nat.eq_or_lt_of_le hle' with heq | hlt
        · rcases hat heq c hhead with h | h
          · exact absurd h hc
          · rw [hce] at h; cases h
        · exact hlt
      · intro _ d hd
        refine hend d ?_
        rw [← hrest, List.getElem?_drop]
        exact hd

/-! ## What an accepted text leaves -/

/-- A parser that has just been made has no tokens, which are a forest. -/
theorem jsmnInit_grows : Grows jsmnInit :=
  ⟨⟨by simp [jsmnInit], by simp [jsmnInit], by simp [jsmnInit]⟩, by simp [jsmnInit],
    by simp [jsmnInit], rfl⟩

theorem jsmnInit_lays : Lays text jsmnInit :=
  ⟨⟨by simp [jsmnInit], by simp [jsmnInit]⟩, by simp [jsmnInit]⟩

/-- A scalar of the first `len` bytes is one of the whole block. -/
theorem Covers.of_take {js : List UInt8} {len e : ℕ} {t : JsmnTok} (h : Covers (js.take len) t e) :
    Covers js t e := by
  have hle := h.le_length
  have hstart := h.start_le
  rw [List.length_take] at hle
  refine ⟨h.stop_eq, hstart, by omega, ?_⟩
  have hz := h.zero_notMem
  rw [JsmnTok.raw, h.stop_eq, List.drop_take, List.take_take, Option.getD_some,
    Nat.min_eq_left (by omega)] at hz
  rw [JsmnTok.raw, h.stop_eq]
  exact hz

/-- **What `jsmn_parse` leaves of a text it accepts**: a forest of closed
tokens, the scalars in their order. -/
structure Accepted (js : List UInt8) (tokens : List JsmnTok) : Prop where
  forest : IsForest tokens
  laid : IsLaid js tokens
  closed : ∀ t ∈ tokens, t.stop ≠ none

/-- A text that is accepted is left so, and the count is that of the tokens.
-/
theorem jsmnParse_ok {js : List UInt8} {len count : ℕ} {tokens : List JsmnTok}
    (h : jsmnParse js len (some num) = .ok (count, tokens)) :
    count = tokens.length ∧ Accepted js tokens := by
  obtain ⟨q, hq, h⟩ := exists_of_bind_eq_ok h
  split at h
  · cases h
  · rename_i hclosed
    obtain ⟨rfl, rfl⟩ := Prod.mk.inj (Except.ok.inj h)
    have hgrows : Grows q := jsmnLoop_induct (fun p c cs p' n _ _ hp hs => by
      have := hp.step hs
      exact ⟨this.forest, this.super_lt, this.super_first, this.count_eq⟩)
      rfl jsmnInit_grows hq
    have hlays : Lays (js.take len) q :=
      jsmnLoop_induct (fun p c cs p' n hrest hc hp hs => hp.step hrest hc hs) rfl jsmnInit_lays hq
    refine ⟨hgrows.count_eq, hgrows.forest, ⟨fun ht hs => ?_, hlays.laid.apart⟩,
      fun t ht hstop => hclosed ?_⟩
    · obtain ⟨e, he⟩ := hlays.laid.covers ht hs
      exact ⟨e, he.of_take⟩
    · exact List.any_eq_true.mpr ⟨t, ht, by simp [hstop]⟩

/-! ## The tokenizer always ends

Every round takes a byte at least, and the walk of a closing bracket goes
down: the fuel of neither loop ever runs out, no parent link leaves the
array, and a byte past the block is read only where `len` says there is
one. -/

/-- How a parse may end without a count: by an error code, or by reading on
where the length leads beyond the block. -/
def Halt.Regular (beyond : Bool) (e : Halt) : Prop := e ≠ .wild ∧ (e = .overread → beyond = true)

/-- An error code is a regular end. -/
theorem regular_err (e : JsmnErr) : (Halt.err e).Regular beyond := ⟨by simp, by simp⟩

theorem regular_ranOut (e : JsmnErr) : (ranOut beyond e).Regular beyond := by
  unfold ranOut
  split
  · rename_i h
    exact ⟨by simp, fun _ => h⟩
  · exact regular_err e

/-- A string that is not scanned to its end ends the parse regularly. -/
theorem scanString_regular {hex : ℕ} {cs : List UInt8} {e : Halt}
    (h : scanString beyond hex cs = .error e) : e.Regular beyond := by
  fun_induction scanString beyond hex cs with
  | case1 | case7 => exact Except.error.inj h ▸ regular_ranOut _
  | case2 | case4 | case5 | case10 => exact Except.error.inj h ▸ regular_err _
  | case6 => cases h
  | case3 _ _ _ _ _ ih | case8 _ _ _ _ _ ih | case9 _ _ _ _ ih | case11 _ _ _ _ _ ih =>
      exact ih (error_of_map_eq_error h)

theorem scanPrimitive_regular {cs : List UInt8} {e : Halt}
    (h : scanPrimitive beyond cs = .error e) : e.Regular beyond := by
  fun_induction scanPrimitive beyond cs with
  | case1 hover => exact Except.error.inj h ▸ ⟨by simp, fun _ => hover⟩
  | case2 | case3 | case4 => cases h
  | case5 => exact Except.error.inj h ▸ regular_err _
  | case6 _ _ _ _ _ ih => exact ih (error_of_map_eq_error h)

/-- So does a token for which there is no room. -/
theorem push_regular {pool : Option ℕ} {type : JsmnType} {start : ℕ} {stop : Option ℕ}
    {e : Halt} (h : p.push pool type start stop = .error e) : e.Regular beyond := by
  unfold JsmnParser.push at h
  split at h
  · cases h
  · split at h
    · exact Except.error.inj h ▸ regular_err _
    · cases h

/-- The walk up the parent links goes down in the array. -/
theorem closeFrom_regular {type : JsmnType} {pos : ℕ} {tokens : List JsmnTok} {s : Option ℕ}
    {e : Halt} (hf : IsForest tokens) :
    ∀ {fuel i : ℕ}, i < fuel → i < tokens.length →
      closeFrom type pos tokens s fuel i = .error e → e.Regular beyond := by
  intro fuel
  induction fuel with
  | zero => intro i hi; omega
  | succ fuel ih =>
      intro i hi hlen h
      unfold closeFrom at h
      rw [List.getElem?_eq_getElem hlen] at h
      dsimp only at h
      split at h
      · split at h
        · exact Except.error.inj h ▸ regular_err _
        · cases h
      · split at h
        · split at h
          · exact Except.error.inj h ▸ regular_err _
          · cases h
        · rename_i j hj
          have hlt := hf.parent_lt (List.getElem?_eq_getElem hlen) hj
          exact ih (by omega) (by omega) h

/-- So does a bracket without its token, as long as the tokens are a forest.
-/
theorem close_regular {type : JsmnType} {e : Halt} (hf : IsForest p.tokens)
    (h : p.close type = .error e) : e.Regular beyond := by
  unfold JsmnParser.close at h
  split at h
  · exact Except.error.inj h ▸ regular_err _
  · exact closeFrom_regular hf (by omega) (by omega) (error_of_map_eq_error h)

/-- **No round leads out of the tokens**, as long as they are a forest. -/
theorem jsmnStep_regular {pool : Option ℕ} {e : Halt} (hf : IsForest p.tokens)
    (h : jsmnStep beyond pool c cs p = .error e) : e.Regular beyond := by
  unfold jsmnStep at h
  split at h
  · rcases error_of_bind_eq_error h with h | ⟨_, _, h⟩
    · exact push_regular h
    · cases h
  split at h
  · split at h
    · cases h
    rcases error_of_bind_eq_error h with h | ⟨_, _, h⟩
    · exact close_regular hf h
    · cases h
  split at h
  · rcases error_of_bind_eq_error h with h | ⟨_, _, h⟩
    · exact scanString_regular h
    · rcases error_of_bind_eq_error h with h | ⟨_, _, h⟩
      · exact push_regular h
      · cases h
  iterate 3
    split at h
    · cases h
  rcases error_of_bind_eq_error h with h | ⟨_, _, h⟩
  · exact scanPrimitive_regular h
  · rcases error_of_bind_eq_error h with h | ⟨_, _, h⟩
    · exact push_regular h
    · cases h

/-- The null array stays empty, for no token is stored where there is none to
store it in. -/
theorem jsmnStep_null (h : jsmnStep beyond none c cs p = .ok (p', n)) : p'.tokens = p.tokens := by
  unfold jsmnStep at h
  split at h
  · obtain ⟨q, hq, h⟩ := exists_of_bind_eq_ok h
    obtain rfl := Except.ok.inj hq
    rw [← (Prod.mk.inj (Except.ok.inj h)).1]
    rfl
  split at h
  · rw [← (Prod.mk.inj (Except.ok.inj h)).1]
  split at h
  · obtain ⟨m, hm, h⟩ := exists_of_bind_eq_ok h
    obtain ⟨q, hq, h⟩ := exists_of_bind_eq_ok h
    obtain rfl := Except.ok.inj hq
    rw [← (Prod.mk.inj (Except.ok.inj h)).1]
  split at h
  · rw [← (Prod.mk.inj (Except.ok.inj h)).1]
  split at h
  · rw [← (Prod.mk.inj (Except.ok.inj h)).1]
    rfl
  split at h
  · rw [← (Prod.mk.inj (Except.ok.inj h)).1, leave_tokens]
  · obtain ⟨m, hm, h⟩ := exists_of_bind_eq_ok h
    obtain ⟨q, hq, h⟩ := exists_of_bind_eq_ok h
    obtain rfl := Except.ok.inj hq
    rw [← (Prod.mk.inj (Except.ok.inj h)).1]

/-- Every round takes a byte at least, so the loop comes to the end of the
text. -/
theorem jsmnStep_takes {pool : Option ℕ} (hc : c ≠ 0)
    (h : jsmnStep beyond pool c cs p = .ok (p', n)) : 0 < n := by
  unfold jsmnStep at h
  split at h
  · obtain ⟨_, _, h⟩ := exists_of_bind_eq_ok h
    exact (Prod.mk.inj (Except.ok.inj h)).2 ▸ Nat.one_pos
  split at h
  · split at h
    · exact (Prod.mk.inj (Except.ok.inj h)).2 ▸ Nat.one_pos
    obtain ⟨_, _, h⟩ := exists_of_bind_eq_ok h
    exact (Prod.mk.inj (Except.ok.inj h)).2 ▸ Nat.one_pos
  split at h
  · obtain ⟨_, _, h⟩ := exists_of_bind_eq_ok h
    obtain ⟨_, _, h⟩ := exists_of_bind_eq_ok h
    exact (Prod.mk.inj (Except.ok.inj h)).2 ▸ Nat.succ_pos _
  iterate 3
    split at h
    · exact (Prod.mk.inj (Except.ok.inj h)).2 ▸ Nat.one_pos
  obtain ⟨m, hm, h⟩ := exists_of_bind_eq_ok h
  obtain ⟨_, _, h⟩ := exists_of_bind_eq_ok h
  obtain rfl := (Prod.mk.inj (Except.ok.inj h)).2
  -- a byte that starts a primitive does not end it
  unfold scanPrimitive at hm
  have hce : endsPrimitive c = false := by simp_all [endsPrimitive]
  rw [if_neg hc, if_neg (by simp [hce])] at hm
  split at hm
  · cases hm
  · obtain ⟨_, _, rfl⟩ := exists_of_map_eq_ok hm
    exact Nat.succ_pos _

/-- The loop ends regularly, by induction over the bytes that are left. -/
theorem jsmnLoop_regular {pool : Option ℕ} {e : Halt} :
    ∀ {fuel : ℕ} {rest : List UInt8} {p : JsmnParser}, rest.length ≤ fuel →
      (if pool = none then p.tokens = [] else Grows p) →
      jsmnLoop beyond pool fuel rest p = .error e → e.Regular beyond := by
  have hnil : ∀ {fuel : ℕ} {p : JsmnParser}, jsmnLoop beyond pool fuel [] p = .error e →
      e.Regular beyond := by
    intro fuel p h
    unfold jsmnLoop at h
    split at h
    · rename_i hover
      exact Except.error.inj h ▸ ⟨by simp, fun _ => hover⟩
    · cases h
  intro fuel
  induction fuel with
  | zero =>
      intro rest p hlen _ h
      obtain rfl : rest = [] := List.length_eq_zero_iff.mp (by omega)
      exact hnil h
  | succ fuel ih =>
      intro rest p hlen hp h
      cases rest with
      | nil => exact hnil h
      | cons c cs =>
          unfold jsmnLoop at h
          split at h
          · cases h
          rename_i hc
          -- the step fails, or the rest of the run does
          rcases error_of_bind_eq_error h with h | ⟨⟨p', n⟩, hs, h⟩
          · refine jsmnStep_regular ?_ h
            split at hp
            · rw [hp]
              exact ⟨by simp, by simp, by simp⟩
            · exact hp.forest
          · have hn := jsmnStep_takes hc hs
            refine ih (by simp at hlen ⊢; omega) ?_ h
            split at hp
            · rename_i hpool
              rw [if_pos hpool]
              subst hpool
              exact (jsmnStep_null hs).trans hp
            · rename_i hpool
              rw [if_neg hpool]
              obtain ⟨num, rfl⟩ := Option.ne_none_iff_exists'.mp hpool
              have := hp.step (jsmnStep_ok hs)
              exact ⟨this.forest, this.super_lt, this.super_first, this.count_eq⟩

/-- **A parse ends with a count or regularly**, whatever the text and the
tokens provided. -/
theorem jsmnParse_regular {js : List UInt8} {len : ℕ} {pool : Option ℕ} {e : Halt}
    (h : jsmnParse js len pool = .error e) : e.Regular (js.length < len) := by
  rcases error_of_bind_eq_error h with h | ⟨q, _, h⟩
  · refine jsmnLoop_regular (Nat.le_refl _) ?_ h
    split
    · rfl
    · exact jsmnInit_grows
  · split at h
    · exact Except.error.inj h ▸ regular_err _
    · cases h

/-- **The tokenizer ends on every text**, with a count or an error code
where `len` stays within the block. -/
theorem jsmnParse_total {js : List UInt8} {len : ℕ} (hlen : len ≤ js.length)
    (pool : Option ℕ) :
    (∃ r, jsmnParse js len pool = .ok r) ∨ ∃ e, jsmnParse js len pool = .error (.err e) := by
  cases h : jsmnParse js len pool with
  | ok r => exact Or.inl ⟨r, rfl⟩
  | error e =>
      obtain ⟨hwild, hover⟩ := jsmnParse_regular h
      cases e with
      | err e => exact Or.inr ⟨e, rfl⟩
      | overread => simp [Nat.not_lt.mpr hlen] at hover
      | wild => exact absurd rfl hwild

end Jsmn

end WeatherTerminal
