import WeatherTerminal.Weather.Extract
import WeatherTerminal.Weather.Format
/-!
# Weather — from the tokens to the record

The lookups and the copying behind them. Where all twenty texts can be
read the record gets them; where one cannot, the run ends in the use of
something absent, an item no lookup filled or a null string.

The date is cut in the buffer the other strings are in. That none of them
is hit is a matter of layout: a text in front of the date ends before it,
and a text behind it has a key of at least two bytes between the date and
itself.
-/

namespace WeatherTerminal

namespace Weather

open Jsmn

variable {n : ℕ} {js₀ : List UInt8} {tokens : List JsmnTok} {js : Block n}

/-! ## Where the texts are -/

/-- Every key has two bytes at least, so that the date is not cut into one. -/
theorem Field.two_le_length_key (f : Field) : 2 ≤ f.key.length := by
  rcases f with - | - | - | - | - | - | - | - | (- | - | -) | (- | - | -) | (- | - | -) |
    (- | - | -) <;> decide

/-- No other text is looked up by the key of the date. -/
theorem Field.eq_date_of_key {f : Field} (h : f.key = Field.date.key) : f = .date := by
  revert h
  rcases f with - | - | - | - | - | - | - | - | (- | - | -) | (- | - | -) | (- | - | -) |
    (- | - | -) <;> decide

/-- **No text lies where the date is cut**: it ends before the date starts, or
starts more than three bytes behind its end. -/
theorem apart_date {ks : Reply ℕ} {t : Reply JsmnTok} {texts : Reply (List UInt8)}
    (hacc : Accepted js₀ tokens)
    (hks : ∀ f : Field, nodeAt js₀ tokens 0 f.path = some (ks f))
    (ht : ∀ f, scalarOf tokens (ks f) = some (t f)) (htexts : ∀ f, (t f).raw js₀ = texts f)
    {f : Field} (hf : f ≠ .date) :
    (t f).start + (texts f).length < (t .date).start ∨
      (t .date).start + (texts .date).length + 3 < (t f).start := by
  obtain ⟨hf₁, hfs⟩ := scalarOf_spec hacc.forest (ht f)
  obtain ⟨hd₁, hds⟩ := scalarOf_spec hacc.forest (ht .date)
  obtain ⟨ef, hef⟩ := hacc.laid.covers hf₁ hfs
  obtain ⟨ed, hed⟩ := hacc.laid.covers hd₁ hds
  have hlenf := length_raw hef
  have hlend := length_raw hed
  rw [htexts] at hlenf hlend
  obtain ⟨_, -, hmember⟩ := nodeAt_append (hks f)
  obtain ⟨key, o, u, hkey, hstring, hraw, hparent, hu, hobject⟩ := key_spec hmember
  obtain ⟨_, -, hmember'⟩ := nodeAt_append (hks .date)
  obtain ⟨dkey, -, -, hdkey, hdstring, hdraw, -⟩ := key_spec hmember'
  -- two texts lie in the order of their keys
  rcases Nat.lt_trichotomy (ks f) (ks .date) with hlt | heq | hgt
  · have := hacc.laid.apart (Nat.succ_lt_succ hlt) hf₁ hd₁ hfs hds hef.stop_eq
    exact Or.inl (by omega)
  · -- one key for two texts, so one text
    rw [heq, hdkey] at hkey
    obtain rfl := Option.some.inj hkey
    exact absurd (Field.eq_date_of_key (hraw.symm.trans hdraw)) hf
  · -- the date is no key: what it lies in is a string
    have hvalue : (t .date).parent = some (ks .date) := by
      obtain ⟨v, hv, -⟩ := Option.bind_eq_some_iff.mp (ht .date)
      obtain ⟨-, w, -, -, -, -, hw, hpar⟩ := valueOf_spec hacc.forest hv
      rw [hd₁] at hw
      exact Option.some.inj hw ▸ hpar
    have hne : ks f ≠ ks .date + 1 := by
      intro heq
      rw [heq, hd₁] at hkey
      obtain rfl := Option.some.inj hkey
      obtain rfl := Option.some.inj (hvalue.symm.trans hparent)
      rw [hdkey] at hu
      obtain rfl := Option.some.inj hu
      rw [hdstring] at hobject
      cases hobject
    have hks : key.isScalar := by simp [JsmnTok.isScalar, hstring]
    obtain ⟨ek, hek⟩ := hacc.laid.covers hkey hks
    have hlenk := length_raw hek
    rw [hraw] at hlenk
    have htwo := f.two_le_length_key
    have hbefore := hacc.laid.apart (show ks .date + 1 < ks f by omega) hd₁ hkey hds hks hed.stop_eq
    have hbehind := hacc.laid.apart (Nat.lt_succ_self (ks f)) hkey hf₁ hks hfs hek.stop_eq
    exact Or.inr (by omega)

/-! ## The run from the lookups on -/

/-- **The lookups of a reply** come to strings that hold its texts. -/
theorem strings_of_texts {texts : Reply (List UInt8)} (hacc : Accepted js.bytes tokens)
    (hne : tokens ≠ []) (htexts : ∀ f : Field, textAt js.bytes tokens f.path = some (texts f)) :
    ∃ strings js' p, weatherLookups (some tokens) (some (jsmnItemInit 0 0 tokens.length)) js =
        .ok (strings, js') ∧ Strings js' strings p texts := by
  choose ks hks htext using fun f => Option.bind_eq_some_iff.mp (htexts f)
  choose t ht hraw using fun f => Option.map_eq_some_iff.mp (htext f)
  obtain ⟨strings, js', hrun, hlater, hfetched⟩ := weatherLookups_fetched hacc hne hks
  have hsome : ∀ f, strings f = some (t f).start := by
    intro f
    rw [(hfetched f).1, ht f, Option.map_some]
  refine ⟨strings, js', fun f => (t f).start, hrun, hsome, fun f => ?_,
    fun f hf => apart_date hacc hks ht hraw hf⟩
  have hcstr := cstr_of_fetched hacc hlater.1 (hfetched f)
  rw [hsome f, htext f] at hcstr
  exact Option.some.inj hcstr

/-- **The strings of a reply** are fetched, each where its text starts in the
buffer. -/
theorem strings_of_replyOf {len : ℕ} {texts : Reply (List UInt8)}
    (h : ReplyOf js.bytes len texts) :
    ∃ count tokens, jsmnParse js.bytes len (some numTokens) = .ok (count, tokens) ∧
      ∃ strings js' p, weatherLookups (some tokens) (some (jsmnItemInit 0 0 count)) js =
        .ok (strings, js') ∧ Strings js' strings p texts := by
  obtain ⟨count, tokens, hparse, htexts⟩ := h
  obtain ⟨rfl, hacc⟩ := jsmnParse_ok hparse
  have hne : tokens ≠ [] := by
    rintro rfl
    obtain ⟨k, -, hk⟩ := Option.bind_eq_some_iff.mp (htexts .name)
    obtain ⟨t, ht, -⟩ := Option.map_eq_some_iff.mp hk
    obtain ⟨hget, -⟩ := scalarOf_spec hacc.forest ht
    cases hget
  exact ⟨_, tokens, hparse, strings_of_texts hacc hne htexts⟩

/-- There is no NUL in the texts of a reply that is accepted. -/
theorem zero_notMem_of_replyOf {js : List UInt8} {len : ℕ} {texts : Reply (List UInt8)}
    (h : ReplyOf js len texts) (f : Field) : 0 ∉ texts f := by
  obtain ⟨count, tokens, hparse, htext⟩ := h
  obtain ⟨-, hacc⟩ := jsmnParse_ok hparse
  obtain ⟨k, -, hk⟩ := Option.bind_eq_some_iff.mp (htext f)
  obtain ⟨t, ht, hraw⟩ := Option.map_eq_some_iff.mp hk
  obtain ⟨hget, hs⟩ := scalarOf_spec hacc.forest ht
  obtain ⟨e, he⟩ := hacc.laid.covers hget hs
  exact hraw ▸ he.zero_notMem

/-- **A reply fills the record**, each member with what is written of its
texts. -/
theorem fills_of_texts {texts : Reply (List UInt8)} (hacc : Accepted js.bytes tokens)
    (hne : tokens ≠ []) (htexts : ∀ f : Field, textAt js.bytes tokens f.path = some (texts f)) :
    ∃ strings js', weatherLookups (some tokens) (some (jsmnItemInit 0 0 tokens.length)) js =
        .ok (strings, js') ∧
      ∀ (stray : List UInt8) (w : WeatherInfo), formatReply strings js' stray w =
        .ok (writeAll (Member.written stray texts) writeOrder w) := by
  obtain ⟨strings, js', _, hrun, hstrings⟩ := strings_of_texts hacc hne htexts
  exact ⟨strings, js', hrun, fun stray w => formatReply_eq stray hstrings⟩

/-- **And where a text is missing** the run ends in the use of something
that is not there. -/
theorem stops_of_missing (hacc : Accepted js.bytes tokens) (hne : tokens ≠ [])
    (htexts : ¬ ∃ texts : Reply (List UInt8),
      ∀ f : Field, textAt js.bytes tokens f.path = some (texts f)) :
    (weatherLookups (some tokens) (some (jsmnItemInit 0 0 tokens.length)) js =
        .error .unfilledItem) ∨
      ∃ strings js', weatherLookups (some tokens) (some (jsmnItemInit 0 0 tokens.length)) js =
          .ok (strings, js') ∧
        ∀ (stray : List UInt8) (w : WeatherInfo),
          formatReply strings js' stray w = .error .nullString := by
  -- a key is missing, which stops the lookups, or a text, which stops the copying
  by_cases hkeys : ∃ ks : Reply ℕ, ∀ f : Field, nodeAt js.bytes tokens 0 f.path = some (ks f)
  · obtain ⟨ks, hks⟩ := hkeys
    obtain ⟨strings, js', hrun, -, hfetched⟩ := weatherLookups_fetched hacc hne hks
    have hnull : ∃ f, strings f = none := by
      by_contra hall
      push Not at hall
      have hscalar : ∀ f, ∃ t, scalarOf tokens (ks f) = some t := by
        intro f
        have h := hall f
        rw [(hfetched f).1] at h
        exact Option.ne_none_iff_exists'.mp fun hn => h (by rw [hn]; rfl)
      choose t ht using hscalar
      refine htexts ⟨fun f => (t f).raw js.bytes, fun f => ?_⟩
      rw [textAt, hks f, Option.bind_some, textOf, ht f, Option.map_some]
    obtain ⟨f, hf⟩ := hnull
    exact Or.inr ⟨strings, js', hrun, fun stray w => formatReply_null hf⟩
  · exact Or.inl (weatherLookups_stops hacc hne hkeys)

end Weather

end WeatherTerminal
