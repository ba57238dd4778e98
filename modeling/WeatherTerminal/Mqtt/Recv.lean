import WeatherTerminal.Jsmn.Tail
import WeatherTerminal.Jsmn.Walk
import WeatherTerminal.Mqtt.Model.Recv
/-!
# MQTT — what the handler does with a message

The handler checks the count of tokens and nothing behind it. A message
that names both LEDs is done as it says; one that is not JSON is let pass;
and every other one ends in the use of an item that was not found, the
message that names a single LED among them.
-/

namespace WeatherTerminal

namespace Mqtt

open Jsmn

variable {m : Message} {leds : Leds} {heap : Heap} {n : ℕ} {js₀ : List UInt8}
  {tokens : List JsmnTok}

/-! ## The lookups -/

/-- The keys of the two LEDs, by their tokens: the strings at
`params.LEDSwitch_R` and at `params.LEDSwitch_B`. -/
def ledKeys (js₀ : List UInt8) (tokens : List JsmnTok) : Option (ℕ × ℕ) := do
  let params ← (some 0).map fun j => memberOf js₀ tokens j (utf8 "params")
  let r ← params.bind fun j => memberOf js₀ tokens j (utf8 "LEDSwitch_R")
  let b ← params.bind fun j => memberOf js₀ tokens j (utf8 "LEDSwitch_B")
  return (r, b)

/-- The lookups of `mqtt_recv_handle` follow the keys: they find what stands
there, and run into null where the walk does. -/
theorem follows_ledLookups {F : Lasting (Later (n := n) tokens)} {a : Option JsmnItem}
    (hacc : Accepted js₀ tokens) (hF : ∀ js, F.holds js → Intact tokens js₀ js.bytes)
    (ha : IsItem tokens a (some 0)) :
    Follows F (ledLookups (some tokens) a) .unfilledItem (ledKeys js₀ tokens)
      fun s k => (fetched n tokens s.1 k.1).and (fetched n tokens s.2 k.2) := by
  refine (follows_getObjectItem hacc hF ha (by decide)).bind_pure Later.trans
    fun params i hparams => ?_
  refine (follows_getMemberString hacc hF hparams (by decide)).bind Later.trans fun r kr => ?_
  have hF₁ := Lasting.and_left (P := fetched n tokens r kr) hF
  refine (follows_getMemberString hacc hF₁ hparams (by decide)).bind Later.trans fun b kb => ?_
  refine Follows.pure Later.refl ?_
  rintro js ⟨⟨-, hr⟩, hb⟩
  exact ⟨hr, hb⟩

/-- Both keys are found where `params` is, and each of them in it. -/
theorem ledKeys_eq_some {r b : ℕ} : ledKeys js₀ tokens = some (r, b) ↔
    ∃ p, memberOf js₀ tokens 0 (utf8 "params") = some p ∧
      memberOf js₀ tokens p (utf8 "LEDSwitch_R") = some r ∧
      memberOf js₀ tokens p (utf8 "LEDSwitch_B") = some b := by
  constructor
  · intro h
    obtain ⟨r', hr, h⟩ := Option.bind_eq_some_iff.mp h
    obtain ⟨b', hb, h⟩ := Option.bind_eq_some_iff.mp h
    obtain ⟨rfl, rfl⟩ := Prod.mk.inj (Option.some.inj h)
    obtain ⟨p, hp, hr⟩ := Option.bind_eq_some_iff.mp hr
    obtain ⟨p', hp', hb⟩ := Option.bind_eq_some_iff.mp hb
    obtain rfl := Option.some.inj (hp.symm.trans hp')
    exact ⟨p, hp, hr, hb⟩
  · rintro ⟨p, hp, hr, hb⟩
    simp [ledKeys, hp, hr, hb]

/-! ## The copy -/

/-- The copy starts with the text of the message and a NUL behind it. -/
theorem Message.copy_bytes (m : Message) :
    m.copy.bytes = cstrOf m.payload ++ 0 :: m.copy.bytes.drop ((cstrOf m.payload).length + 1) := by
  have hlen := cstrOf_length_le m.payload
  obtain ⟨-, -, hb⟩ : m.copy.Holds 0 ((cstrOf m.payload).length + 1) (cstrOf m.payload) :=
    Block.holds_strcpy (zero_notMem_cstrOf m.payload) (Nat.lt_succ_self _) (by omega)
  rw [List.drop_zero] at hb
  conv_lhs => rw [← List.take_append_drop ((cstrOf m.payload).length + 1) m.copy.bytes, hb]
  rw [List.append_assoc, List.singleton_append]

/-- The text of a message: its payload up to the first NUL. -/
def Message.text (m : Message) : List UInt8 := cstrOf m.payload

/-- **The copy is parsed as the text**: the NUL behind it ends the parse as
the end of the text does. -/
theorem Message.parse_copy (m : Message) (pool : Option ℕ) :
    (jsmnParse m.copy.bytes (m.payload.length + 1) pool).toOption =
      (jsmnParse m.text m.text.length pool).toOption := by
  have hlen := cstrOf_length_le m.payload
  rw [m.copy_bytes]
  exact jsmnParse_append_zero (zero_notMem_cstrOf m.payload) (by omega)

/-! ## What a message is -/

/-- The text is no JSON text, or one without a token; with no array to fill,
it is only counted. -/
def Message.Rejected (m : Message) : Prop :=
  ∀ count tokens, jsmnParse m.text m.text.length
    (if m.tokensGranted then some numTokens else none) = .ok (count, tokens) → count = 0

/-- **It names both LEDs**, in the member `params` of an object; where the
text starts with a key and not with the object, with no text for either. -/
def Message.NamesBoth (m : Message) : Prop :=
  ∃ count tokens p r b, jsmnParse m.text m.text.length (some numTokens) = .ok (count, tokens) ∧
    memberOf m.text tokens 0 (utf8 "params") = some p ∧
    memberOf m.text tokens p (utf8 "LEDSwitch_R") = some r ∧
    memberOf m.text tokens p (utf8 "LEDSwitch_B") = some b ∧
    (hasType tokens .object 0 = true ∨
      textOf m.text tokens r = none ∧ textOf m.text tokens b = none)

/-! ## The ways through a call -/

/-- What `jsmn_parse` makes of the copy: the length that `mqtt_recv_handle`
looks at, and the tokens. -/
def Message.parsed (m : Message) : Except Fault (ℤ × List JsmnTok) :=
  tokensLen m.copy.bytes (m.payload.length + 1) m.tokensGranted

/-- Without a block for the copy the payload is copied to null. -/
theorem mqttRecvHandle_null (h : m.copyGranted = false) :
    mqttRecvHandle m leds heap = .error .nullCopy := by
  rw [mqttRecvHandle, h]
  rfl

/-- With a block for the copy, all depends on what `jsmn_parse` makes of it
and on the array for the tokens. -/
theorem mqttRecvHandle_granted (h : m.copyGranted = true) :
    mqttRecvHandle m leds heap = (m.parsed >>= fun (len, filled) =>
      let (tokens, heap₁) := (heap.malloc true).2.malloc m.tokensGranted
      if len ≤ 0 then .ok (leds, heap₁)
      else do
        let ((ledR, ledB), js) ← ledLookups (tokens.map fun _ => filled)
          (some (jsmnItemInit 0 0 len)) m.copy
        let leds : Leds :=
          ⟨switchLed leds.r (ledR.map js.cstr), switchLed leds.b (ledB.map js.cstr)⟩
        let heap₁ ← heap₁.free tokens
        let heap₁ ← heap₁.free (some heap.next)
        .ok (leds, heap₁)) := by
  rw [mqttRecvHandle, h]
  cases htok : m.tokensGranted with
  | false =>
      rw [Message.parsed, htok]
      rfl
  | true =>
      rw [Message.parsed, htok]
      rfl

/-- **What is parsed** is the text, within the block of the copy: it has
tokens, or a length of zero or less. -/
theorem Message.parsed_cases (m : Message) :
    (∃ (count : ℕ) (tokens : List JsmnTok), m.parsed = .ok (count, tokens) ∧
      jsmnParse m.text m.text.length (if m.tokensGranted then some numTokens else none) =
        .ok (count, tokens)) ∨
    ∃ len, m.parsed = .ok (len, []) ∧ len < 0 ∧ ∀ r,
      jsmnParse m.text m.text.length (if m.tokensGranted then some numTokens else none) ≠ .ok r := by
  have hin : m.payload.length + 1 ≤ m.copy.bytes.length := by rw [m.copy.length_eq]
  have htext := m.parse_copy (if m.tokensGranted then some numTokens else none)
  rw [parsed, tokensLen]
  rcases jsmnParse_total hin (if m.tokensGranted then some numTokens else none) with
    ⟨⟨count, tokens⟩, h⟩ | ⟨e, h⟩
  · refine Or.inl ⟨count, tokens, by rw [h], ?_⟩
    exact toOption_eq_some.mp (htext.symm.trans (toOption_eq_some.mpr h))
  · refine Or.inr ⟨e.code, by rw [h], e.code_neg, fun r hr => ?_⟩
    rw [h, toOption_eq_some.mpr hr] at htext
    cases htext

/-- A message that is rejected changes no pin, and leaves its two blocks on
the heap. -/
theorem mqttRecvHandle_rejected (hcopy : m.copyGranted = true) (h : m.Rejected) (leds : Leds)
    (heap : Heap) :
    ∃ heap', mqttRecvHandle m leds heap = .ok (leds, heap') ∧
      heap.next < heap'.next ∧ heap'.freed = heap.freed := by
  obtain ⟨len, filled, hparsed, hlen⟩ : ∃ len filled, m.parsed = .ok (len, filled) ∧ len ≤ 0 := by
    rcases m.parsed_cases with ⟨count, tokens, hparsed, htext⟩ | ⟨len, hparsed, hlen, -⟩
    · exact ⟨_, _, hparsed, by rw [h count tokens htext]; exact Int.le_refl 0⟩
    · exact ⟨_, _, hparsed, Int.le_of_lt hlen⟩
  rw [mqttRecvHandle_granted hcopy, hparsed]
  change ∃ heap', (if len ≤ 0 then Except.ok _ else _) = _ ∧ _
  rw [if_pos hlen]
  refine ⟨_, rfl, ?_, ?_⟩
  · cases m.tokensGranted
    · exact Nat.lt_succ_self _
    · exact Nat.lt_succ_of_lt (Nat.lt_succ_self _)
  · cases m.tokensGranted <;> rfl

/-- A text that is not rejected has a token, and what is parsed of the copy
are the tokens of the text. -/
theorem Message.parsed_of_not_rejected (h : ¬ m.Rejected) :
    ∃ (count : ℕ) (tokens : List JsmnTok), 0 < count ∧ m.parsed = .ok (count, tokens) ∧
      jsmnParse m.text m.text.length (if m.tokensGranted then some numTokens else none) =
        .ok (count, tokens) := by
  rw [Rejected] at h
  push Not at h
  obtain ⟨count, tokens, htext, hne⟩ := h
  rcases m.parsed_cases with ⟨count', tokens', hparsed, htext'⟩ | ⟨len, -, -, hnone⟩
  · obtain ⟨rfl, rfl⟩ := Prod.mk.inj (Except.ok.inj (htext.symm.trans htext'))
    exact ⟨count, tokens, Nat.pos_of_ne_zero hne, hparsed, htext⟩
  · exact absurd htext (hnone _)

/-- A message that is not rejected, without an array for its tokens, is looked
up in null. -/
theorem mqttRecvHandle_nullTokens (hcopy : m.copyGranted = true) (h : ¬ m.Rejected)
    (htokens : m.tokensGranted = false) : mqttRecvHandle m leds heap = .error .nullTokens := by
  obtain ⟨count, filled, hpos, hparsed, -⟩ := m.parsed_of_not_rejected h
  rw [mqttRecvHandle_granted hcopy, hparsed, htokens]
  change (if (count : ℤ) ≤ 0 then Except.ok _ else _) = _
  rw [if_neg (by omega)]
  rfl

/-- The keys of a text that was accepted are its own, whatever stands behind
it. -/
theorem ledKeys_append {s : List UInt8} (hacc : Accepted s tokens) (tail : List UInt8) :
    ledKeys (s ++ tail) tokens = ledKeys s tokens := by
  simp only [ledKeys, memberOf_append hacc]

/-- **The tokens of a message**, looked up: the pins follow the two texts,
and both blocks are freed, or an item was not found. -/
theorem mqttRecvHandle_lookups (hcopy : m.copyGranted = true) (htokens : m.tokensGranted = true)
    {count : ℕ} {filled : List JsmnTok} (hpos : 0 < count)
    (hparsed : m.parsed = .ok (count, filled))
    (htext : jsmnParse m.text m.text.length (some numTokens) = .ok (count, filled))
    (leds : Leds) (heap : Heap) :
    match ledKeys m.text filled with
    | none => mqttRecvHandle m leds heap = .error .unfilledItem
    | some (r, b) => ∃ heap', mqttRecvHandle m leds heap =
          .ok (⟨switchLed leds.r (textOf m.text filled r),
            switchLed leds.b (textOf m.text filled b)⟩, heap') ∧ heap.Balanced heap' := by
  have hacc := (jsmnParse_ok htext).2
  obtain ⟨-, hcount, hacc', hne⟩ := tokensLen_ok (by rwa [Message.parsed, htokens] at hparsed)
    (show (0 : ℤ) < count by omega)
  have hrun := follows_ledLookups (F := stillIntact _ m.copy.bytes filled) hacc' (fun _ h => h)
    (isItem_root hne) m.copy (Intact.refl filled m.copy.bytes)
  -- the NUL behind the copy belongs to no token
  have hkeys : ledKeys m.copy.bytes filled = ledKeys m.text filled := by
    rw [m.copy_bytes]
    exact ledKeys_append hacc _
  have hcall : mqttRecvHandle m leds heap = _ := mqttRecvHandle_granted hcopy
  rw [hparsed, htokens] at hcall
  change _ = (if (count : ℤ) ≤ 0 then Except.ok _ else _) at hcall
  rw [if_neg (by omega), hcount] at hcall
  change _ = (ledLookups (some filled) _ m.copy >>= _) at hcall
  rw [hkeys] at hrun
  revert hrun
  cases ledKeys m.text filled with
  | none =>
      intro hrun
      rw [hcall, hrun]
      rfl
  | some k =>
      rintro ⟨s, js', hrun, hlater, hr, hb⟩
      obtain ⟨h₁, heap', hfree₁, hfree, hbal⟩ := heap.exists_free_malloc_malloc
      refine ⟨heap', ?_, hbal⟩
      rw [hcall, hrun]
      change (((heap.malloc true).2.malloc true).2.free (some (heap.next + 1)) >>= _) = _
      rw [hfree₁]
      change (h₁.free (some heap.next) >>= _) = _
      have htextOf : ∀ i, textOf m.copy.bytes filled i = textOf m.text filled i := by
        intro i
        rw [m.copy_bytes]
        exact textOf_append hacc i _
      rw [hfree, ← htextOf, ← htextOf, ← cstr_of_fetched hacc' hlater.1 hr,
        ← cstr_of_fetched hacc' hlater.1 hb]
      rfl

/-- **A call that returns has freed its two blocks**, where the text was
not rejected. -/
theorem mqttRecvHandle_balanced {leds' : Leds} {heap' : Heap}
    (h : m.copyGranted = true → ¬ m.Rejected)
    (hrun : mqttRecvHandle m leds heap = .ok (leds', heap')) : heap.Balanced heap' := by
  cases hcopy : m.copyGranted with
  | false =>
      rw [mqttRecvHandle_null hcopy] at hrun
      cases hrun
  | true =>
      cases htokens : m.tokensGranted with
      | false =>
          rw [mqttRecvHandle_nullTokens hcopy (h hcopy) htokens] at hrun
          cases hrun
      | true =>
          obtain ⟨count, filled, hpos, hparsed, htext⟩ := m.parsed_of_not_rejected (h hcopy)
          rw [htokens, if_pos rfl] at htext
          have hdone := mqttRecvHandle_lookups hcopy htokens hpos hparsed htext leds heap
          cases hkeys : ledKeys m.text filled with
          | none =>
              rw [hkeys] at hdone
              cases hdone.symm.trans hrun
          | some k =>
              rw [hkeys] at hdone
              obtain ⟨heap₁, hdone, hbal⟩ := hdone
              obtain ⟨-, rfl⟩ := Prod.mk.inj (Except.ok.inj (hdone.symm.trans hrun))
              exact hbal

/-! ## The rule -/

/-- A payload that is no JSON text is to change nothing. -/
theorem ledRule_of_error {payload : List UInt8}
    (h : ∀ r, jsmnParse (cstrOf payload) (cstrOf payload).length (some numTokens) ≠ .ok r) :
    ledRule payload leds = leds := by
  rw [ledRule]
  cases hparse : jsmnParse (cstrOf payload) (cstrOf payload).length (some numTokens) with
  | error e => rfl
  | ok r => exact absurd hparse (h r)

/-- A payload that is one is to switch the LEDs by the strings of its
`params`, where it has one. -/
theorem ledRule_of_ok {count : ℕ} (h : jsmnParse m.text m.text.length (some numTokens) =
    .ok (count, tokens)) : ledRule m.payload leds = match paramsOf m.text tokens with
      | none => leds
      | some params =>
          ⟨switchLed leds.r (memberText m.text tokens params (utf8 "LEDSwitch_R")),
            switchLed leds.b (memberText m.text tokens params (utf8 "LEDSwitch_B"))⟩ := by
  have h' : jsmnParse (cstrOf m.payload) (cstrOf m.payload).length (some numTokens) =
      .ok (count, tokens) := h
  rw [ledRule, h']
  rfl

/-- **A rejected message changes nothing**, and is to change nothing: in this
the code obeys the rule. -/
theorem ledRule_rejected (h : m.Rejected) : ledRule m.payload leds = leds := by
  cases hparse : jsmnParse m.text m.text.length (some numTokens) with
  | error e => exact ledRule_of_error fun r hr => by cases hparse.symm.trans hr
  | ok r =>
      obtain ⟨count, tokens⟩ := r
      have hzero : count = 0 := by
        cases htokens : m.tokensGranted with
        | true => exact h count tokens (by rw [htokens]; exact hparse)
        | false => exact h count [] (by rw [htokens]; exact jsmnParse_null hparse)
      obtain ⟨hcount, -⟩ := jsmnParse_ok hparse
      obtain rfl : tokens = [] := List.length_eq_zero_iff.mp (hcount.symm.trans hzero)
      rw [ledRule_of_ok hparse]
      rfl

/-- What stands for an object, a key before it, says what the object says. -/
theorem memberOf_container {i o : ℕ} (h : containerOf tokens .object i = some o)
    (key : List UInt8) : memberOf js₀ tokens i key = memberOf js₀ tokens o key := by
  have ho : containerOf tokens .object o = some o := by
    rw [containerOf] at h
    split at h
    · rename_i htype
      obtain rfl := Option.some.inj h
      rw [containerOf, if_pos htype]
    · rw [containerOf, if_pos (Option.filter_eq_some_iff.mp h).2]
  rw [memberOf, memberOf, h, ho]

/-- **A message that names both LEDs** in an object is done as it says. -/
theorem ledRule_object {count p r b : ℕ}
    (hparse : jsmnParse m.text m.text.length (some numTokens) = .ok (count, tokens))
    (hobject : hasType tokens .object 0 = true)
    (hp : memberOf m.text tokens 0 (utf8 "params") = some p)
    (hr : memberOf m.text tokens p (utf8 "LEDSwitch_R") = some r)
    (hb : memberOf m.text tokens p (utf8 "LEDSwitch_B") = some b) :
    ledRule m.payload leds =
      ⟨switchLed leds.r (textOf m.text tokens r), switchLed leds.b (textOf m.text tokens b)⟩ := by
  obtain ⟨o, ho, -⟩ := Option.bind_eq_some_iff.mp hr
  obtain ⟨t, -, -, ht, hstring, -⟩ := key_spec hp
  have hvalue : (valueOf tokens p).filter (hasType tokens .object) = some o := by
    rw [containerOf, if_neg (by simp [hasType, ht, hstring])] at ho
    exact ho
  have hparams : paramsOf m.text tokens = some o := by
    rw [paramsOf, if_pos hobject, hp, Option.bind_some, hvalue]
  rw [memberOf_container ho] at hr hb
  rw [ledRule_of_ok hparse, hparams]
  simp only [memberText, hr, hb, Option.bind_some]

/-- A text that is not an object is to change nothing. -/
theorem ledRule_not_object {count : ℕ}
    (hparse : jsmnParse m.text m.text.length (some numTokens) = .ok (count, tokens))
    (hobject : ¬ hasType tokens .object 0 = true) : ledRule m.payload leds = leds := by
  rw [ledRule_of_ok hparse, paramsOf, if_neg hobject]

/-- Only null leaves every pin as it is: a string switches it on or off. -/
theorem switchLed_eq_self {s : Option (List UInt8)} (h : ∀ pin, switchLed pin s = pin) :
    s = none := by
  cases s with
  | none => rfl
  | some s => exact absurd ((h .low).symm.trans (h .high)) (by decide)

/-- **A message that has no text for an LED leaves it**, whatever it says
of the other. -/
theorem ledRule_kept (payload : List UInt8) (leds : Leds) :
    ((∀ count tokens params, jsmnParse (cstrOf payload) (cstrOf payload).length
        (some numTokens) = .ok (count, tokens) → paramsOf (cstrOf payload) tokens = some params →
        memberText (cstrOf payload) tokens params (utf8 "LEDSwitch_R") = none) →
      (ledRule payload leds).r = leds.r) ∧
    ((∀ count tokens params, jsmnParse (cstrOf payload) (cstrOf payload).length
        (some numTokens) = .ok (count, tokens) → paramsOf (cstrOf payload) tokens = some params →
        memberText (cstrOf payload) tokens params (utf8 "LEDSwitch_B") = none) →
      (ledRule payload leds).b = leds.b) := by
  rw [ledRule]
  cases hparse : jsmnParse (cstrOf payload) (cstrOf payload).length (some numTokens) with
  | error e => exact ⟨fun _ => rfl, fun _ => rfl⟩
  | ok s =>
      obtain ⟨count, tokens⟩ := s
      cases hparams : paramsOf (cstrOf payload) tokens with
      | none => simp only [hparams, implies_true, and_self]
      | some params =>
          simp only [hparams]
          refine ⟨fun h => ?_, fun h => ?_⟩
          · rw [h count tokens params rfl hparams, switchLed]
          · rw [h count tokens params rfl hparams, switchLed]

/-! ## Messages -/

/-- **The messages that are obeyed**: the copy is granted, and the text is
rejected or names both LEDs, with an array for its tokens. -/
def Message.Obeyed (m : Message) : Prop :=
  m.copyGranted = true ∧ (m.Rejected ∨ m.tokensGranted = true ∧ m.NamesBoth)

/-- A message that meets the condition does what it is to do, whatever the
pins and the heap were. -/
theorem mqttRecvHandle_obeyed (h : m.Obeyed) (leds : Leds) (heap : Heap) :
    ∃ heap', mqttRecvHandle m leds heap = .ok (ledRule m.payload leds, heap') := by
  obtain ⟨hcopy, hrejected | ⟨htokens, count, tokens, p, r, b, hparse, hp, hr, hb, hroot⟩⟩ := h
  · obtain ⟨heap', hrun, -⟩ := mqttRecvHandle_rejected hcopy hrejected leds heap
    exact ⟨heap', by rw [hrun, ledRule_rejected hrejected]⟩
  by_cases hrejected : m.Rejected
  · obtain ⟨heap', hrun, -⟩ := mqttRecvHandle_rejected hcopy hrejected leds heap
    exact ⟨heap', by rw [hrun, ledRule_rejected hrejected]⟩
  · obtain ⟨count', tokens', hpos, hparsed, htext⟩ := m.parsed_of_not_rejected hrejected
    rw [htokens, if_pos rfl] at htext
    obtain ⟨rfl, rfl⟩ := Prod.mk.inj (Except.ok.inj (hparse.symm.trans htext))
    have hrun := mqttRecvHandle_lookups hcopy htokens hpos hparsed htext leds heap
    rw [ledKeys_eq_some.mpr ⟨p, hp, hr, hb⟩] at hrun
    obtain ⟨heap', hrun, -⟩ := hrun
    refine ⟨heap', ?_⟩
    by_cases hobject : hasType tokens .object 0 = true
    · rw [hrun, ledRule_object hparse hobject hp hr hb]
    · obtain ⟨htr, htb⟩ := hroot.resolve_left hobject
      rw [hrun, ledRule_not_object hparse hobject, htr, htb]
      rfl

/-- **A call does what the message says, whatever the LEDs, exactly where
the message is obeyed.** -/
theorem obeyed_iff (m : Message) (heap : Heap) :
    (∀ leds, ∃ heap', mqttRecvHandle m leds heap = .ok (ledRule m.payload leds, heap')) ↔
      m.Obeyed := by
  constructor
  · intro h
    have hcopy : m.copyGranted = true := by
      by_contra hnot
      obtain ⟨heap', hrun⟩ := h ⟨.low, .low⟩
      rw [mqttRecvHandle_null (by simpa using hnot)] at hrun
      cases hrun
    refine ⟨hcopy, ?_⟩
    by_cases hrejected : m.Rejected
    · exact Or.inl hrejected
    have htokens : m.tokensGranted = true := by
      by_contra hnot
      obtain ⟨heap', hrun⟩ := h ⟨.low, .low⟩
      rw [mqttRecvHandle_nullTokens hcopy hrejected (by simpa using hnot)] at hrun
      cases hrun
    obtain ⟨count, tokens, hpos, hparsed, htext⟩ := m.parsed_of_not_rejected hrejected
    rw [htokens, if_pos rfl] at htext
    have hrun := mqttRecvHandle_lookups hcopy htokens hpos hparsed htext
    cases hkeys : ledKeys m.text tokens with
    | none =>
        obtain ⟨heap', hok⟩ := h ⟨.low, .low⟩
        have herr := hrun ⟨.low, .low⟩ heap
        rw [hkeys] at herr
        cases herr.symm.trans hok
    | some k =>
        obtain ⟨r, b⟩ := k
        obtain ⟨p, hp, hr, hb⟩ := ledKeys_eq_some.mp hkeys
        refine Or.inr ⟨htokens, count, tokens, p, r, b, htext, hp, hr, hb, ?_⟩
        by_cases hobject : hasType tokens .object 0 = true
        · exact Or.inl hobject
        -- the rule leaves every state of the LEDs, and so must the texts
        have hkeep : ∀ leds : Leds, (⟨switchLed leds.r (textOf m.text tokens r),
            switchLed leds.b (textOf m.text tokens b)⟩ : Leds) = leds := by
          intro leds
          obtain ⟨heap₁, hok⟩ := h leds
          have hdone := hrun leds heap
          rw [hkeys] at hdone
          obtain ⟨heap₂, hdone, -⟩ := hdone
          rw [ledRule_not_object htext hobject] at hok
          exact (Prod.mk.inj (Except.ok.inj (hdone.symm.trans hok))).1
        refine Or.inr ⟨switchLed_eq_self fun pin => ?_, switchLed_eq_self fun pin => ?_⟩
        · exact congrArg Leds.r (hkeep ⟨pin, pin⟩)
        · exact congrArg Leds.b (hkeep ⟨pin, pin⟩)
  · exact fun h leds => mqttRecvHandle_obeyed h leds heap

/-- **A run of messages that are obeyed is the fold of the rule.** -/
theorem mqttRecvHandles_obeyed (m : Message) (ms : List Message) (leds : Leds) (heap : Heap) :
    ((∀ leds, ∃ heap', mqttRecvHandle m leds heap =
        .ok (ledRule m.payload leds, heap')) ↔ m.Obeyed) ∧
    ((∀ m ∈ ms, m.Obeyed) → ∃ heap', mqttRecvHandles ms leds heap =
        .ok (ms.foldl (fun leds m => ledRule m.payload leds) leds, heap')) := by
  refine ⟨obeyed_iff m heap, ?_⟩
  induction ms generalizing leds heap with
  | nil => exact fun _ => ⟨heap, rfl⟩
  | cons m ms ih =>
      intro h
      obtain ⟨heap₁, hrun⟩ := mqttRecvHandle_obeyed (h m (List.mem_cons_self ..)) leds heap
      obtain ⟨heap', hrest⟩ := ih (ledRule m.payload leds) heap₁
        fun m' hm' => h m' (List.mem_cons_of_mem m hm')
      refine ⟨heap', ?_⟩
      change (mqttRecvHandle m leds heap >>= fun s => mqttRecvHandles ms s.1 s.2) = _
      rw [hrun]
      exact hrest

/-! ## Two messages -/

/-- A message with a key for the red LED alone, which is to leave the blue
one. -/
def redOnly : Message where
  payload := utf8 "\x7b\"params\":\x7b\"LEDSwitch_R\":1\x7d\x7d"
  copyGranted := true
  tokensGranted := true

/-- **The message that names one LED**: its absence of the other stops the
handler, and the LED it names is not switched. -/
theorem not_obeyed_redOnly : ¬ ∀ leds, ∃ heap',
    mqttRecvHandle redOnly leds Heap.empty = .ok (ledRule redOnly.payload leds, heap') := by
  intro h
  obtain ⟨heap', hrun⟩ := h ⟨.high, .high⟩
  have herr : (mqttRecvHandle redOnly ⟨.high, .high⟩ Heap.empty).isOk = false := by decide +kernel
  rw [hrun] at herr
  cases herr

/-- A message with both keys, which switches the red LED on and the blue one
off. -/
def bothLeds : Message where
  payload := utf8 "\x7b\"params\":\x7b\"LEDSwitch_R\":1,\"LEDSwitch_B\":0\x7d\x7d"
  copyGranted := true
  tokensGranted := true

theorem bothLeds_obeyed : bothLeds.Obeyed := by
  have h : (jsmnParse bothLeds.text bothLeds.text.length (some numTokens)).toOption.any
      (fun r => memberOf bothLeds.text r.2 0 (utf8 "params") = some 1 ∧
        memberOf bothLeds.text r.2 1 (utf8 "LEDSwitch_R") = some 3 ∧
        memberOf bothLeds.text r.2 1 (utf8 "LEDSwitch_B") = some 5 ∧
        hasType r.2 .object 0 = true) = true := by decide +kernel
  obtain ⟨⟨count, tokens⟩, hparse, h⟩ := (Option.any_eq_true _ _).mp h
  obtain ⟨hp, hr, hb, hobject⟩ := of_decide_eq_true h
  exact ⟨rfl, Or.inr ⟨rfl, count, tokens, 1, 3, 5, toOption_eq_some.mp hparse, hp, hr, hb,
    Or.inl hobject⟩⟩

/-- A run of two such messages does what they are to do. -/
theorem mqttRecvHandles_bothLeds : ∃ heap',
    mqttRecvHandles [bothLeds, bothLeds] ⟨.low, .low⟩ Heap.empty =
      .ok ([bothLeds, bothLeds].foldl (fun leds m => ledRule m.payload leds) ⟨.low, .low⟩,
        heap') := by
  refine (mqttRecvHandles_obeyed bothLeds _ _ _).2 fun m hm => ?_
  obtain rfl : m = bothLeds := by simpa using hm
  exact bothLeds_obeyed

end Mqtt

end WeatherTerminal
