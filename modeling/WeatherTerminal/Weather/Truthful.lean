import WeatherTerminal.Weather.Isolation
import WeatherTerminal.Weather.Refresh
/-!
# Weather — what a refresh tells

`weather_get_test` is to fill the record and return 0, or to leave it and
return something else; the labels are to show the last record that was
filled. It does so for a reply that is rejected and for one that is
complete, and for no other: where nothing arrives it returns 0, and the
caller shows the record it has cleared.

Both conditions are on what a call meets: its allocations, the status, the
body, and the pieces the body comes in. What stands behind null is not the
caller's to choose, so a call is asked to be right whatever it is.
-/

namespace WeatherTerminal

namespace Weather

open Jsmn

variable {env : Env} {w w' : WeatherInfo} {g g' : Globals} {texts : Reply (List UInt8)}
  {month day : List UInt8} {suffix : Day → List UInt8}

/-! ## The claims a refresh makes -/

/-- All members say what the body of the response says. -/
def FilledFrom (net : Net) (w : WeatherInfo) : Prop :=
  net.session = true ∧ net.status = 200 ∧ ∃ texts,
    ReplyOf net.response.body net.response.body.length texts ∧
      ∀ m : Member, ∃ s, m.text texts = some s ∧ w.Holds m.offset m.size s

/-- **The result code is truthful**: 0 stands for a record that was filled,
and any other code for one that was left. -/
structure Truthful (net : Net) (w : WeatherInfo) (ret : ℤ) (w' : WeatherInfo) : Prop where
  eok_iff : ¬ FilledFrom net w → (ret = rtEok ↔ FilledFrom net w')
  filled : ret = rtEok → FilledFrom net w'
  unchanged : ret ≠ rtEok → w' = w

/-- The fetch of a callback fills the record it has cleared. -/
def Fetches (tick : Tick) (s : Terminal) (w : WeatherInfo) : Prop :=
  ∃ ret g', weatherGetTest tick.env (Block.filled infoSize 0) s.withRecord = .ok (ret, w, g') ∧
    FilledFrom tick.env.net w

/-- **The labels are right**: they show the record the callback has
fetched, and the one before where it has fetched none. -/
structure LabelsRight (tick : Tick) (s s' : Terminal) : Prop where
  shown : ∀ w, Fetches tick s w →
    ∀ l : Label, w.Holds l.member.offset l.member.size (s'.labels l)
  kept : (¬ ∃ w, Fetches tick s w) → s'.labels = s.labels

/-- The labels are right all through a run, which comes to its end. -/
def RunRight : List Tick → Terminal → Prop
  | [], _ => True
  | tick :: ticks, s =>
      ∃ s', timerCallback tick s = .ok s' ∧ LabelsRight tick s s' ∧ RunRight ticks s'

/-- A run that is right comes to its end, by induction over its callbacks. -/
theorem RunRight.timerCallbacks {ticks : List Tick} {s : Terminal} (h : RunRight ticks s) :
    ∃ s', timerCallbacks ticks s = .ok s' := by
  induction ticks generalizing s with
  | nil => exact ⟨s, rfl⟩
  | cons tick ticks ih =>
      obtain ⟨s₁, hrun, -, hrest⟩ := h
      obtain ⟨s', hs'⟩ := ih hrest
      refine ⟨s', ?_⟩
      show (timerCallback tick s >>= fun s => Weather.timerCallbacks ticks s) = _
      rw [hrun]
      exact hs'

/-! ## When they hold -/

/-- What the date and the weekdays are cut into: what stands between the
first dash of the date and its last, the two characters behind that, and
what stands behind the last byte 0x9F of each weekday. -/
structure CutInto (texts : Reply (List UInt8)) (month day : List UInt8)
    (suffix : Day → List UInt8) : Prop where
  month : monthOf (texts .date) = some month
  day : dayOf (texts .date) = some day
  week : ∀ d, afterLast qi (texts (.dayWeek d)) = some (suffix d)

/-- **A complete reply.** The array for its tokens is granted. The pieces
of the body, each laid over those before it, have a text at each of the
twenty paths, and so has the body itself; they make the same fourteen
texts. The date has two dashes and each weekday the byte 0x9F, and all
texts fit, counted in bytes. -/
def Env.Complete (env : Env) : Prop :=
  env.Arrived ∧ env.tokensGranted = true ∧ ∃ texts bodyTexts, env.Texts texts ∧
    ReplyOf env.net.response.body env.net.response.body.length bodyTexts ∧
    (∀ m : Member, m.text texts = m.text bodyTexts) ∧
    ∃ month day suffix, CutInto texts month day suffix ∧ Fits texts month day suffix

/-- Where the date and the weekdays can be cut, all members have a text. -/
theorem CutInto.text_eq (h : CutInto texts month day suffix) (m : Member) :
    m.text texts = some (m.intended texts month day suffix) := by
  rcases m with - | - | - | - | - | d | d | d
  case nowTime =>
    rw [Member.text, h.month, h.day]
    rfl
  case dayTime => rw [Member.text, h.week d, Option.map_some, Member.intended]
  all_goals rfl

/-- What is written of texts that are cut so is what is intended. -/
theorem CutInto.written_eq (h : CutInto texts month day suffix) (stray : List UInt8)
    (m : Member) : m.written stray texts = m.intended texts month day suffix :=
  Member.written_of_text (h.text_eq m)

/-- **They can be cut where what is written fits**, and what stands behind
null would not. -/
theorem exists_cutInto {stray : List UInt8} (hstray : 25 ≤ (cstrOf stray).length)
    (hfits : ∀ m : Member, (m.written stray texts).length < m.size) :
    ∃ month day suffix, CutInto texts month day suffix := by
  have htime := hfits .nowTime
  simp only [Member.written, List.length_append, Member.size] at htime
  obtain ⟨month, hmonth⟩ : ∃ month, monthOf (texts .date) = some month := by
    by_contra hnone
    rw [Option.eq_none_iff_forall_ne_some.mpr (not_exists.mp hnone), Option.getD_none] at htime
    omega
  obtain ⟨day, hday⟩ : ∃ day, dayOf (texts .date) = some day := by
    by_contra hnone
    rw [Option.eq_none_iff_forall_ne_some.mpr (not_exists.mp hnone), Option.getD_none] at htime
    omega
  have hweek : ∀ d, ∃ suffix, afterLast qi (texts (.dayWeek d)) = some suffix := by
    intro d
    by_contra hnone
    have hdayTime := hfits (.dayTime d)
    rw [Member.written, Option.eq_none_iff_forall_ne_some.mpr (not_exists.mp hnone),
      Option.getD_none, List.length_append, Member.size] at hdayTime
    omega
  choose suffix hsuffix using hweek
  exact ⟨month, day, suffix, hmonth, hday, hsuffix⟩

/-- A cleared record says nothing of any reply, so showing it is not right. -/
theorem not_filledFrom_cleared (net : Net) : ¬ FilledFrom net (Block.filled infoSize 0) := by
  rintro ⟨-, -, texts, -, h⟩
  obtain ⟨s, hs, hholds⟩ := h .nowTemp
  obtain rfl := Option.some.inj hs
  have hblank : (Block.filled infoSize 0).cstr Member.nowTemp.offset = [] := by decide
  have hlen := congrArg List.length (hholds.cstr.symm.trans hblank)
  have hsign : (utf8 "°").length = 2 := by decide
  rw [List.length_append, hsign] at hlen
  exact absurd hlen (by simp)

/-- **The record of a reply** is filled from the response where the texts
of its members are the body's and fit. -/
theorem filledFrom_writeAll_iff {net : Net} {stray : List UInt8} (hz : ∀ f, 0 ∉ texts f) :
    FilledFrom net (writeAll (Member.written stray texts) writeOrder w) ↔
      net.session = true ∧ net.status = 200 ∧ ∃ bodyTexts,
        ReplyOf net.response.body net.response.body.length bodyTexts ∧
          ∀ m : Member, m.text bodyTexts = some (m.written stray texts) ∧
            (m.written stray texts).length < m.size := by
  have hzero := Member.zero_notMem_written stray hz
  constructor
  · rintro ⟨hs, h200, bodyTexts, hbody, h⟩
    choose t ht hholds using h
    refine ⟨hs, h200, bodyTexts, hbody, fun m => ?_⟩
    obtain ⟨heq, hfit⟩ := (writeAll_holds_iff hzero).mp hholds m
    exact ⟨heq ▸ ht m, hfit⟩
  · rintro ⟨hs, h200, bodyTexts, hbody, h⟩
    refine ⟨hs, h200, bodyTexts, hbody, fun m => ⟨_, (h m).1, ?_⟩⟩
    exact (writeAll_holds_iff hzero).mpr (fun m => ⟨rfl, (h m).2⟩) m

/-- A record filled from the response was filled by a complete reply,
where what stands behind null fits no member. -/
theorem complete_of_filledFrom {ret : ℤ} (hstray : 25 ≤ (cstrOf env.stray).length)
    (hrun : weatherGetTest env (Block.filled infoSize 0) g = .ok (ret, w', g'))
    (hfilled : FilledFrom env.net w') : env.Complete := by
  rcases weatherGetTest_ok hrun with ⟨-, -, rfl, -⟩ | ⟨-, -, rfl, -⟩ |
    ⟨hparsed, htokens, texts, htexts, -, rfl, -⟩
  · exact absurd hfilled (not_filledFrom_cleared env.net)
  · exact absurd hfilled (not_filledFrom_cleared env.net)
  · obtain ⟨-, -, bodyTexts, hbody, h⟩ :=
      (filledFrom_writeAll_iff (zero_notMem_of_replyOf htexts)).mp hfilled
    obtain ⟨month, day, suffix, hcut⟩ := exists_cutInto hstray fun m => (h m).2
    refine ⟨hparsed.1, htokens, texts, bodyTexts, htexts, hbody, fun m => ?_, month, day, suffix,
      hcut, fits_iff.mpr fun m => ?_⟩
    · rw [(h m).1, hcut.text_eq, hcut.written_eq]
    · rw [← hcut.written_eq env.stray]
      exact (h m).2

/-- **And a complete reply fills it**, whatever was in it before. -/
theorem filledFrom_of_complete (h : env.Complete) (w : WeatherInfo) (g : Globals) :
    ∃ w' g', weatherGetTest env w g = .ok (rtEok, w', g') ∧ FilledFrom env.net w' := by
  obtain ⟨harrived, htokens, texts, bodyTexts, htexts, hbody, hsame, month, day, suffix, hcut,
    hfits⟩ := h
  obtain ⟨g', hrun, -⟩ := weatherGetTest_filled (w := w) (g := g) harrived htokens htexts
  refine ⟨_, g', hrun, (filledFrom_writeAll_iff (zero_notMem_of_replyOf htexts)).mpr ?_⟩
  refine ⟨harrived.2.1, harrived.2.2, bodyTexts, hbody, fun m => ?_⟩
  rw [← hsame m, hcut.text_eq, hcut.written_eq]
  exact ⟨rfl, fits_iff.mp hfits m⟩

/-- **A document that arrives at once is complete**, where it has the
texts and they fit. -/
theorem complete_of_document {d : Document} {k : ℕ} {plan : List Attempt}
    (harrived : env.Arrived) (htokens : env.tokensGranted = true)
    (hresponse : env.net.response =
      { framing := .sized, body := d.render, plan := .recv k :: plan })
    (hk : d.render.length ≤ k) (hfit : d.render.length ≤ respBufsz) (hroom : d.value.size ≤ 150)
    (htexts : ∀ f : Field, d.textAt f.path = some (texts f))
    (hmembers : ∀ m : Member, ∃ s, m.text texts = some s ∧ s.length < m.size) :
    env.Complete := by
  have hreply : ∀ tail, ReplyOf (d.render ++ tail) d.render.length texts :=
    replyOf_document hroom htexts
  have hbody : ReplyOf env.net.response.body env.net.response.body.length texts := by
    have := hreply []
    rw [List.append_nil] at this
    rwa [hresponse]
  -- the first piece is the whole document
  have htake : d.render.take (min k respBufsz) = d.render := List.take_of_length_le (by omega)
  have hdrop : d.render.drop (min k respBufsz) = [] := List.drop_of_length_le (by omega)
  have hpieces : ∃ ps, env.pieces = (ps, (d.render.length : ℤ)) ∧
      (laidOver (Block.filled respBufsz 0) ps).bytes.take d.render.length = d.render := by
    rw [Env.pieces, hresponse]
    by_cases hnil : d.render = []
    · refine ⟨[], ?_, by rw [hnil]; rfl⟩
      rw [hnil]
      exact pieces_none List.take_nil
    · refine ⟨[d.render], ?_, ?_⟩
      · rw [pieces_last (by rwa [htake]) hdrop, htake]
      · have hstored := Block.take_storeAll (Block.filled respBufsz 0) (i := 0) d.render (by omega)
        rwa [Nat.zero_add] at hstored
  obtain ⟨ps, hpieces, hleft⟩ := hpieces
  have hbytes : env.buffer.bytes = d.render ++ env.buffer.bytes.drop d.render.length := by
    rw [Env.buffer, hpieces]
    exact (List.take_append_drop d.render.length _).symm.trans (by rw [hleft])
  have hlen : sizeT env.pieces.2 = d.render.length := by
    rw [hpieces]
    change ((d.render.length : ℤ) % 2 ^ 32).toNat = _
    have : d.render.length ≤ 1200 := hfit
    omega
  have hfits : ∀ stray (m : Member), (m.written stray texts).length < m.size := by
    intro stray m
    obtain ⟨s, hs, hlt⟩ := hmembers m
    rwa [Member.written_of_text hs]
  have hlong : 25 ≤ (cstrOf (List.replicate 25 1)).length := by decide
  obtain ⟨month, day, suffix, hcut⟩ := exists_cutInto hlong (hfits _)
  refine ⟨harrived, htokens, texts, texts, ?_, hbody, fun _ => rfl, month, day, suffix, hcut,
    fits_iff.mpr fun m => ?_⟩
  · rw [Env.Texts, hbytes, hlen]
    exact hreply _
  · rw [← hcut.written_eq []]
    exact hfits [] m

/-! ## A call -/

/-- The environment with something else behind null, and the rest as it was.
-/
def Env.behindNull (env : Env) (stray : List UInt8) : Env := { env with stray := stray }

/-- No condition looks behind null, so neither does this one. -/
theorem Env.rejected_behindNull {stray : List UInt8} :
    (env.behindNull stray).Rejected ↔ env.Rejected := Iff.rfl

/-- Whether a reply is complete does not depend on it either. -/
theorem Env.complete_behindNull {stray : List UInt8} :
    (env.behindNull stray).Complete ↔ env.Complete := Iff.rfl

/-- A fetch that fills the record, with more behind null than any member
takes. -/
theorem complete_of_behindNull {ret : ℤ}
    (hrun : weatherGetTest (env.behindNull (List.replicate 25 1)) (Block.filled infoSize 0) g =
      .ok (ret, w', g'))
    (hfilled : FilledFrom env.net w') : env.Complete := by
  have hlong : 25 ≤ (cstrOf (env.behindNull (List.replicate 25 1)).stray).length :=
    show 25 ≤ (cstrOf (List.replicate 25 1)).length by decide
  have hcomplete : (env.behindNull (List.replicate 25 1)).Complete :=
    complete_of_filledFrom hlong hrun hfilled
  exact Env.complete_behindNull.mp hcomplete

/-- **A call is truthful, whatever the record and whatever stands behind
null, exactly for a reply that is rejected and one that is complete.** -/
theorem truthful_iff (env : Env) (g : Globals) :
    (∀ w stray, ∃ ret w' g', weatherGetTest (env.behindNull stray) w g = .ok (ret, w', g') ∧
        Truthful env.net w ret w') ↔
      env.Rejected ∨ env.Complete := by
  constructor
  · intro h
    by_contra hneither
    obtain ⟨hrejected, hcomplete⟩ := not_or.mp hneither
    obtain ⟨ret, w', g', hrun, htruthful⟩ := h (Block.filled infoSize 0) (List.replicate 25 1)
    -- a call that rejects nothing returns 0, if it returns
    have hret : ret = rtEok := by
      rcases weatherGetTest_ok hrun with ⟨-, hret, -⟩ | ⟨h, -⟩ | ⟨-, -, _, -, hret, -⟩
      · exact hret
      · exact absurd (Env.rejected_behindNull.mp h) hrejected
      · exact hret
    exact hcomplete (complete_of_behindNull hrun (htruthful.filled hret))
  · rintro (hrejected | hcomplete) w stray
    · have hrejected' : (env.behindNull stray).Rejected := Env.rejected_behindNull.mpr hrejected
      obtain ⟨g', hrun, -⟩ := weatherGetTest_rejected (w := w) (g := g) hrejected'
      refine ⟨-rtError, w, g', hrun, fun hw => ?_, fun hret => ?_, fun _ => rfl⟩
      · exact iff_of_false (by decide) hw
      · exact absurd hret (by decide)
    · have hcomplete' : (env.behindNull stray).Complete := Env.complete_behindNull.mpr hcomplete
      obtain ⟨w', g', hrun, hfilled⟩ := filledFrom_of_complete hcomplete' w g
      exact ⟨rtEok, w', g', hrun, fun _ => iff_of_true rfl hfilled, fun _ => hfilled,
        fun hret => absurd rfl hret⟩

/-! ## A callback -/

/-- A complete reply is shown: the callback returns, and the labels are right.
-/
theorem timerCallback_complete {tick : Tick} (hgranted : tick.recordGranted = true)
    (hcomplete : tick.env.Complete) (s : Terminal) :
    ∃ s', timerCallback tick s = .ok s' ∧ LabelsRight tick s s' := by
  obtain ⟨w, g', hrun, hfilled⟩ :=
    filledFrom_of_complete hcomplete (Block.filled infoSize 0) s.withRecord
  have hlive : g'.heap.Live s.globals.heap.next := by
    have hbefore := s.globals.heap.malloc_live
    rcases weatherGetTest_ok hrun with ⟨-, -, -, hbal⟩ | ⟨-, hret, -⟩ | ⟨-, -, _, -, -, -, hbal⟩
    · exact hbal.live_iff.mpr hbefore
    · exact absurd hret (by decide)
    · exact hbal.live_iff.mpr hbefore
  obtain ⟨heap, hfree, -⟩ := Heap.free_ok hlive
  refine ⟨⟨fun l => w.cstr l.member.offset, { g' with heap := heap }⟩, ?_, ?_, ?_⟩
  · rw [timerCallback_granted hgranted, hrun]
    change (g'.heap.free _).map _ = _
    rw [hfree]
    rfl
  · rintro w' ⟨ret, g₁, hrun', -⟩ l
    obtain ⟨-, rfl, -⟩ : rtEok = ret ∧ w = w' ∧ g' = g₁ := by simpa using hrun.symm.trans hrun'
    obtain ⟨-, -, texts, -, h⟩ := hfilled
    obtain ⟨t, -, hholds⟩ := h l.member
    change w.Holds _ _ (w.cstr _)
    rwa [hholds.cstr]
  · exact fun hnone => absurd ⟨w, _, g', hrun, hfilled⟩ hnone

/-- The callback with something else behind null, and the rest as it was. -/
def Tick.behindNull (tick : Tick) (stray : List UInt8) : Tick :=
  { tick with env := tick.env.behindNull stray }

/-- **The labels are right behind a callback, whatever they showed before
it and whatever stands behind null, exactly where its reply is complete.**
The labels that follow a failed fetch do not depend on those before it, and
so cannot be those. -/
theorem labelsRight_iff (tick : Tick) :
    (∀ s stray, ∃ s', timerCallback (tick.behindNull stray) s = .ok s' ∧
        LabelsRight (tick.behindNull stray) s s') ↔
      tick.recordGranted = true ∧ tick.env.Complete := by
  constructor
  · intro h
    have hgranted : tick.recordGranted = true := by
      by_contra hnot
      obtain ⟨s', hrun, -⟩ := h ⟨fun _ => [], ⟨0, Heap.empty⟩⟩ []
      have hnull : (tick.behindNull []).recordGranted = false := eq_false_of_ne_true hnot
      rw [timerCallback_null hnull] at hrun
      cases hrun
    refine ⟨hgranted, ?_⟩
    by_contra hcomplete
    have hnone : ∀ s, ¬ ∃ w, Fetches (tick.behindNull (List.replicate 25 1)) s w := by
      rintro s ⟨w, ret, g', hrun, hfilled⟩
      exact hcomplete (complete_of_behindNull hrun hfilled)
    obtain ⟨s₁, hrun₁, hright₁⟩ := h ⟨fun _ => [1], ⟨0, Heap.empty⟩⟩ (List.replicate 25 1)
    obtain ⟨s₂, hrun₂, hright₂⟩ := h ⟨fun _ => [2], ⟨0, Heap.empty⟩⟩ (List.replicate 25 1)
    have hsame : timerCallback (tick.behindNull (List.replicate 25 1))
          ⟨fun _ => [1], ⟨0, Heap.empty⟩⟩ =
        timerCallback (tick.behindNull (List.replicate 25 1)) ⟨fun _ => [2], ⟨0, Heap.empty⟩⟩ :=
      rfl
    obtain rfl := Except.ok.inj (hrun₁.symm.trans (hsame.trans hrun₂))
    have hlabels := (hright₁.kept (hnone _)).symm.trans (hright₂.kept (hnone _))
    exact absurd (congrFun hlabels .wlabel1) (by decide)
  · rintro ⟨hgranted, hcomplete⟩ s stray
    have hcomplete' : (tick.behindNull stray).env.Complete :=
      Env.complete_behindNull.mpr hcomplete
    have hgranted' : (tick.behindNull stray).recordGranted = true := hgranted
    exact timerCallback_complete hgranted' hcomplete' s

/-- **Refreshing, exactly when it keeps its word**: call by call, callback
by callback, and over a run of callbacks. -/
theorem weatherGetTest_truthful (env : Env) (g : Globals) (tick : Tick) (ticks : List Tick)
    (shown : Terminal) :
    ((∀ w stray, ∃ ret w' g', weatherGetTest (env.behindNull stray) w g = .ok (ret, w', g') ∧
        Truthful env.net w ret w') ↔ env.Rejected ∨ env.Complete) ∧
    ((∀ s stray, ∃ s', timerCallback (tick.behindNull stray) s = .ok s' ∧
        LabelsRight (tick.behindNull stray) s s') ↔
        tick.recordGranted = true ∧ tick.env.Complete) ∧
    ((∀ tick ∈ ticks, tick.recordGranted = true ∧ tick.env.Complete) →
      RunRight ticks shown) := by
  refine ⟨truthful_iff env g, labelsRight_iff tick, ?_⟩
  induction ticks generalizing shown with
  | nil => exact fun _ => True.intro
  | cons tick ticks ih =>
      intro h
      obtain ⟨hgranted, hcomplete⟩ := h tick (List.mem_cons_self ..)
      obtain ⟨s', hrun, hright⟩ := timerCallback_complete hgranted hcomplete shown
      exact ⟨s', hrun, hright, ih s' fun t ht => h t (List.mem_cons_of_mem tick ht)⟩

/-! ## Two calls -/

/-- The sample reply, which arrives in one piece, with everything granted. -/
def sampleEnv : Env where
  bufferGranted := true
  net :=
    { session := true, status := 200,
      response := { framing := .sized, body := sampleReply.render, plan := [.recv respBufsz] } }
  tokensGranted := true
  stray := []

/-- Each text of the sample can be cut, and fits its array. -/
theorem sampleTexts_fit (m : Member) :
    ∃ s, m.text sampleTexts = some s ∧ s.length < m.size := by
  rcases m with - | - | - | - | - | (- | - | -) | (- | - | -) | (- | - | -) <;>
    exact ⟨_, rfl, by decide⟩

theorem sampleEnv_complete : sampleEnv.Complete :=
  complete_of_document (by decide) rfl rfl sampleReply_length sampleReply_length sampleReply_size
    sampleReply_textAt sampleTexts_fit

/-- Two callbacks that meet the sample show it both times. -/
theorem weatherGetTest_truthful_sample :
    RunRight [⟨true, sampleEnv⟩, ⟨true, sampleEnv⟩] ⟨fun _ => [], ⟨0, Heap.empty⟩⟩ := by
  refine (weatherGetTest_truthful sampleEnv ⟨0, Heap.empty⟩ ⟨true, sampleEnv⟩ _ _).2.2
    fun tick htick => ?_
  obtain rfl : tick = ⟨true, sampleEnv⟩ := by simpa using htick
  exact ⟨rfl, sampleEnv_complete⟩

/-- No session: the cleared record is left, and reported as filled. -/
theorem not_truthful_lost :
    ¬ ∃ ret w' g', weatherGetTest
        { bufferGranted := true, tokensGranted := true, stray := [],
          net := { session := false, status := 200, response := ⟨.sized, [], []⟩ } }
        (Block.filled infoSize 0) ⟨0, Heap.empty⟩ = .ok (ret, w', g') ∧
      Truthful { session := false, status := 200, response := ⟨.sized, [], []⟩ }
        (Block.filled infoSize 0) ret w' := by
  rintro ⟨ret, w', g', hrun, htruthful⟩
  rcases weatherGetTest_ok hrun with ⟨-, hret, -⟩ | ⟨⟨⟨-, hs, -⟩, -⟩, -⟩ | ⟨⟨⟨-, hs, -⟩, -⟩, -⟩
  · exact absurd (htruthful.filled hret).1 (by decide)
  · cases hs
  · cases hs

end Weather

end WeatherTerminal
