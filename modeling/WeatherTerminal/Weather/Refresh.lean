import WeatherTerminal.Weather.Comm
import WeatherTerminal.Weather.Fill
import WeatherTerminal.Weather.Model.Refresh
/-!
# Weather — what a refresh does

`weather_get_test` by cases, one lemma for each way through it: no reply,
a reply that is not parsed, and one that is, with the token array granted
or not and its texts there or not. The results on its result code, on
absent values and on the heap are read off these.
-/

namespace WeatherTerminal

namespace Weather

open Jsmn

/-! ## What a call meets -/

/-- A reply with status 200 arrives, and there is a buffer for it. -/
def Env.Arrived (env : Env) : Prop :=
  env.bufferGranted = true ∧ env.net.session = true ∧ env.net.status = 200

instance (env : Env) : Decidable env.Arrived := inferInstanceAs (Decidable (_ ∧ _ ∧ _))

/-- The pieces the body of the reply comes in, and the result of the last
read. -/
def Env.pieces (env : Env) : List (List UInt8) × ℤ :=
  Weather.pieces env.net.response.framing env.net.response.body env.net.response.plan

/-- What they leave in the buffer, which was cleared: a later piece over an
earlier one. -/
def Env.buffer (env : Env) : Block respBufsz :=
  laidOver (Block.filled respBufsz 0) env.pieces.1

/-- What `jsmn_parse` makes of that, up to the result of the last read. -/
def Env.parsed (env : Env) : Except Fault (ℤ × List JsmnTok) :=
  tokensLen env.buffer.bytes (sizeT env.pieces.2) env.tokensGranted

/-- It is no JSON text, or one without a token. -/
def Env.Rejected (env : Env) : Prop :=
  env.Arrived ∧ ∃ len filled, env.parsed = .ok (len, filled) ∧ len ≤ 0

/-- It is one with these texts at the twenty paths. -/
def Env.Texts (env : Env) (texts : Reply (List UInt8)) : Prop :=
  ReplyOf env.buffer.bytes (sizeT env.pieces.2) texts

variable {env : Env} {w : WeatherInfo} {g : Globals}

/-- A call returns `RT_EOK` where there is a session and the status is 200. -/
theorem weatherGetComm_ret {net : Net} {k : ℤ} {buffer : Block respBufsz} :
    (weatherGetComm net k buffer).ret = rtEok ↔ net.session = true ∧ net.status = 200 := by
  rw [weatherGetComm]
  by_cases hs : net.session = true
  · by_cases h200 : net.status = 200
    · simp [hs, h200]
    · simp [hs, h200, rtError]
  · simp [hs, rtEnomem]

/-- A fetch that gets a reply does not look at the `bytes_read` before
it, and leaves the pieces of the body. -/
theorem weatherGetComm_arrived (h : env.Arrived) (k : ℤ) :
    weatherGetComm env.net k (Block.filled respBufsz 0) =
      { ret := rtEok, bytesRead := env.pieces.2, buffer := env.buffer } := by
  obtain ⟨-, hs, h200⟩ := h
  have hnet : env.net = { session := true, status := 200, response := env.net.response } := by
    rw [← hs, ← h200]
  rw [hnet, weatherGetComm_pieces]
  rfl

/-! ## The ways through a call -/

/-- **No reply.** The call returns 0 and has not touched the record. -/
theorem weatherGetTest_failed (h : ¬ env.Arrived) :
    ∃ g', weatherGetTest env w g = .ok (rtEok, w, g') ∧ g.heap.Balanced g'.heap := by
  rw [weatherGetTest]
  cases hbuf : env.bufferGranted with
  | false => exact ⟨_, rfl, Heap.Balanced.refl _⟩
  | true =>
      obtain ⟨heap, hfree, hbal⟩ := g.heap.exists_free_malloc
      set c := weatherGetComm env.net g.bytesRead (Block.filled respBufsz 0) with hc
      have hret : ¬ c.ret = rtEok := fun hret => h ⟨hbuf, weatherGetComm_ret.mp hret⟩
      refine ⟨⟨c.bytesRead, heap⟩, ?_, hbal⟩
      change (if _ then _ else _) = _
      rw [if_neg hret]
      change ((g.heap.malloc true).2.free (some g.heap.next) >>= _) = _
      rw [hfree]
      rfl

/-- **A reply** that has arrived is parsed, looked up, copied and freed. -/
theorem weatherGetTest_arrived (h : env.Arrived) :
    weatherGetTest env w g = (env.parsed >>= fun (len, filled) =>
      let (tokens, heap) := (g.heap.malloc true).2.malloc env.tokensGranted
      if len ≤ 0 then .ok (-rtError, w, { bytesRead := env.pieces.2, heap := heap })
      else do
        let (strings, js) ← weatherLookups (tokens.map fun _ => filled)
          (some (jsmnItemInit 0 0 len)) env.buffer
        let winfo ← formatReply strings js env.stray w
        let heap ← heap.free tokens
        let heap ← heap.free (some g.heap.next)
        .ok (rtEok, winfo, { bytesRead := env.pieces.2, heap := heap })) := by
  rw [weatherGetTest, h.1]
  simp only [Heap.malloc]
  rw [weatherGetComm_arrived h]
  change (if rtEok = rtEok then _ else _) = _
  rw [if_pos rfl]
  cases htok : env.tokensGranted with
  | false =>
      rw [Env.parsed, htok]
      rfl
  | true =>
      rw [Env.parsed, htok]
      rfl

/-- **A reply that is not parsed.** The call says so, and frees nothing. -/
theorem weatherGetTest_rejected (h : env.Rejected) :
    ∃ g', weatherGetTest env w g = .ok (-rtError, w, g') ∧
      g.heap.next < g'.heap.next ∧ g'.heap.freed = g.heap.freed := by
  obtain ⟨harrived, len, filled, hparsed, hlen⟩ := h
  rw [weatherGetTest_arrived harrived, hparsed]
  change ∃ g', (if len ≤ 0 then Except.ok _ else _) = _ ∧ _
  rw [if_pos hlen]
  refine ⟨_, rfl, ?_, ?_⟩
  · cases env.tokensGranted
    · exact Nat.lt_succ_self _
    · exact Nat.lt_succ_of_lt (Nat.lt_succ_self _)
  · cases env.tokensGranted <;> rfl

/-- **A parse that reads past the buffer** ends the call there. -/
theorem weatherGetTest_overread (h : env.Arrived) {e : Fault} (hparsed : env.parsed = .error e) :
    weatherGetTest env w g = .error .overread := by
  rw [weatherGetTest_arrived h, hparsed, tokensLen_error hparsed]
  rfl

/-- **No token array**: the first lookup reads from a null pointer. -/
theorem weatherGetTest_nullTokens (h : env.Arrived) {len : ℤ} {filled : List JsmnTok}
    (hparsed : env.parsed = .ok (len, filled)) (hlen : 0 < len)
    (htokens : env.tokensGranted = false) :
    weatherGetTest env w g = .error .nullTokens := by
  rw [weatherGetTest_arrived h, hparsed, htokens]
  change (if len ≤ 0 then Except.ok _ else _) = _
  rw [if_neg (Int.not_le.mpr hlen)]
  rfl

/-- **A reply with a text missing** ends the call in the use of it. -/
theorem weatherGetTest_missing (h : env.Arrived) {len : ℤ} {filled : List JsmnTok}
    (hparsed : env.parsed = .ok (len, filled)) (hlen : 0 < len)
    (htokens : env.tokensGranted = true) (htexts : ¬ ∃ texts, env.Texts texts) :
    weatherGetTest env w g = .error .unfilledItem ∨
      weatherGetTest env w g = .error .nullString := by
  rw [Env.parsed, htokens] at hparsed
  obtain ⟨hparse, rfl, hacc, hne⟩ := tokensLen_ok hparsed hlen
  have hmissing : ¬ ∃ texts : Reply (List UInt8), ∀ f : Field,
      textAt env.buffer.bytes filled f.path = some (texts f) :=
    fun ⟨texts, htext⟩ => htexts ⟨texts, _, _, hparse, htext⟩
  rw [weatherGetTest_arrived h, Env.parsed, htokens, hparsed]
  change (if (filled.length : ℤ) ≤ 0 then Except.ok _ else _) = _ ∨
    (if (filled.length : ℤ) ≤ 0 then Except.ok _ else _) = _
  rw [if_neg (Int.not_le.mpr hlen)]
  rcases stops_of_missing hacc hne hmissing with hrun | ⟨strings, js', hrun, hformat⟩
  · refine Or.inl ?_
    change (weatherLookups (some filled) _ _ >>= _) = _
    rw [hrun]
    rfl
  · refine Or.inr ?_
    change (weatherLookups (some filled) _ _ >>= _) = _
    rw [hrun]
    change (formatReply strings js' env.stray w >>= _) = _
    rw [hformat]
    rfl

/-- **A reply with all its texts** fills the record, and both blocks are
freed. -/
theorem weatherGetTest_filled (h : env.Arrived) (htokens : env.tokensGranted = true)
    {texts : Reply (List UInt8)} (htexts : env.Texts texts) :
    ∃ g', weatherGetTest env w g =
        .ok (rtEok, writeAll (Member.written env.stray texts) writeOrder w, g') ∧
      g.heap.Balanced g'.heap := by
  obtain ⟨count, filled, hparse, htext⟩ := htexts
  obtain ⟨rfl, hacc⟩ := jsmnParse_ok hparse
  have hne : filled ≠ [] := by
    rintro rfl
    have := htext .name
    simp [textAt, nodeAt, Field.path, Field.parent, stepOf, memberOf, containerOf, hasType,
      valueOf, childrenOf] at this
  have hpos : (0 : ℤ) < filled.length := by
    have := List.length_pos_iff.mpr hne
    omega
  have hparsed : env.parsed = .ok ((filled.length : ℤ), filled) := by
    rw [Env.parsed, htokens, tokensLen, if_pos rfl, hparse]
  obtain ⟨strings, js', hrun, hformat⟩ := fills_of_texts hacc hne htext
  obtain ⟨h₁, h', hfree₁, hfree, hbal⟩ := g.heap.exists_free_malloc_malloc
  refine ⟨⟨env.pieces.2, h'⟩, ?_, hbal⟩
  rw [weatherGetTest_arrived h, hparsed, htokens]
  change (if (filled.length : ℤ) ≤ 0 then Except.ok _ else _) = _
  rw [if_neg (Int.not_le.mpr hpos)]
  change (weatherLookups (some filled) _ _ >>= _) = _
  rw [hrun]
  change (formatReply strings js' env.stray w >>= _) = _
  rw [hformat]
  change (((g.heap.malloc true).2.malloc true).2.free (some (g.heap.next + 1)) >>= _) = _
  rw [hfree₁]
  change (h₁.free (some g.heap.next) >>= _) = _
  rw [hfree]
  rfl

/-- Something was parsed that has tokens, whether or not there is an array for
them. -/
def Env.Parsed (env : Env) : Prop :=
  env.Arrived ∧ ∃ len filled, env.parsed = .ok (len, filled) ∧ 0 < len

/-- The tokens are there, and the texts, each where the code looks for it. -/
def Env.Readable (env : Env) : Prop := env.tokensGranted = true ∧ ∃ texts, env.Texts texts

/-- What can become of a call: nothing has arrived, no token is found, the
parse fails, or there is something to look up. -/
theorem Env.cases (env : Env) : ¬ env.Arrived ∨ env.Rejected ∨
    (env.Arrived ∧ ∃ e, env.parsed = .error e) ∨ env.Parsed := by
  by_cases harrived : env.Arrived
  · rcases hparsed : env.parsed with e | ⟨len, filled⟩
    · exact Or.inr (Or.inr (Or.inl ⟨harrived, e, rfl⟩))
    · rcases Int.lt_or_le 0 len with hlen | hlen
      · exact Or.inr (Or.inr (Or.inr ⟨harrived, len, filled, hparsed, hlen⟩))
      · exact Or.inr (Or.inl ⟨harrived, len, filled, hparsed, hlen⟩)
  · exact Or.inl harrived

/-- A reply that is parsed and cannot be read stops the call at something
absent. -/
theorem weatherGetTest_unreadable (h : env.Parsed) (hunreadable : ¬ env.Readable) :
    ∃ e, weatherGetTest env w g = .error e ∧ e.isAbsentUse = true := by
  obtain ⟨harrived, len, filled, hparsed, hlen⟩ := h
  cases htokens : env.tokensGranted with
  | false => exact ⟨_, weatherGetTest_nullTokens harrived hparsed hlen htokens, rfl⟩
  | true =>
      have htexts : ¬ ∃ texts, env.Texts texts := fun h => hunreadable ⟨htokens, h⟩
      rcases weatherGetTest_missing harrived hparsed hlen htokens htexts with hrun | hrun
      · exact ⟨_, hrun, rfl⟩
      · exact ⟨_, hrun, rfl⟩

/-- **What a call that returns has done**, in each of the three ways to
return. -/
theorem weatherGetTest_ok {ret : ℤ} {w' : WeatherInfo} {g' : Globals}
    (hrun : weatherGetTest env w g = .ok (ret, w', g')) :
    (¬ env.Arrived ∧ ret = rtEok ∧ w' = w ∧ g.heap.Balanced g'.heap) ∨
    (env.Rejected ∧ ret = -rtError ∧ w' = w ∧
      g.heap.next < g'.heap.next ∧ g'.heap.freed = g.heap.freed) ∨
    (env.Parsed ∧ env.tokensGranted = true ∧ ∃ texts, env.Texts texts ∧ ret = rtEok ∧
      w' = writeAll (Member.written env.stray texts) writeOrder w ∧
      g.heap.Balanced g'.heap) := by
  rcases env.cases with hnot | hrejected | ⟨harrived, e, hparsed⟩ | hparsed
  · obtain ⟨_, hrun', hbal⟩ := weatherGetTest_failed (w := w) (g := g) hnot
    obtain ⟨rfl, rfl, rfl⟩ : rtEok = ret ∧ w = w' ∧ _ = g' := by
      simpa using hrun'.symm.trans hrun
    exact Or.inl ⟨hnot, rfl, rfl, hbal⟩
  · obtain ⟨_, hrun', hnext, hfreed⟩ := weatherGetTest_rejected (w := w) (g := g) hrejected
    obtain ⟨rfl, rfl, rfl⟩ : -rtError = ret ∧ w = w' ∧ _ = g' := by
      simpa using hrun'.symm.trans hrun
    exact Or.inr (Or.inl ⟨hrejected, rfl, rfl, hnext, hfreed⟩)
  · rw [weatherGetTest_overread harrived hparsed] at hrun
    cases hrun
  · by_cases hreadable : env.Readable
    · obtain ⟨htokens, texts, htexts⟩ := hreadable
      obtain ⟨_, hrun', hbal⟩ := weatherGetTest_filled (w := w) (g := g) hparsed.1 htokens htexts
      obtain ⟨rfl, rfl, rfl⟩ : rtEok = ret ∧ _ = w' ∧ _ = g' := by
        simpa using hrun'.symm.trans hrun
      exact Or.inr (Or.inr ⟨hparsed, htokens, texts, htexts, rfl, rfl, hbal⟩)
    · obtain ⟨e, hrun', -⟩ := weatherGetTest_unreadable (w := w) (g := g) hparsed hreadable
      rw [hrun'] at hrun
      cases hrun

/-! ## A callback -/

/-- The globals a callback calls `weather_get_test` with, its record being
allocated. -/
def Terminal.withRecord (s : Terminal) : Globals :=
  { s.globals with heap := (s.globals.heap.malloc true).2 }

/-- A callback without a record passes a null pointer on. -/
theorem timerCallback_null {tick : Tick} (h : tick.recordGranted = false) (s : Terminal) :
    timerCallback tick s = .error .nullRecord := by
  rw [timerCallback, h]
  rfl

/-- A callback with one calls with a cleared record, shows it, and frees it.
-/
theorem timerCallback_granted {tick : Tick} (h : tick.recordGranted = true) (s : Terminal) :
    timerCallback tick s = (weatherGetTest tick.env (Block.filled infoSize 0) s.withRecord >>=
      fun (_, w, g) => (g.heap.free (some s.globals.heap.next)).map fun heap =>
        { labels := fun l => w.cstr l.member.offset, globals := { g with heap := heap } }) := by
  rw [timerCallback, h]
  rfl

end Weather

end WeatherTerminal
