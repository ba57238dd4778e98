import WeatherTerminal.Jsmn.Path
import WeatherTerminal.Jsmn.Walk
import WeatherTerminal.Weather.Model.Reply
/-!
# Weather — extraction

The chain of lookups follows the forest (`follows_weatherLookups`): it
comes through exactly where every path of `Field.path` leads somewhere,
and then holds the string of each. Over the text of a document these are
the document's texts.
-/

namespace WeatherTerminal

namespace Weather

open Jsmn

variable {n : ℕ} {js₀ : List UInt8} {tokens : List JsmnTok}

/-! ## The keys the chain comes to -/

/-- The keys of a day's texts, an item that is missing stopping the chain
where it is used. -/
def forecastKeys (js₀ : List UInt8) (tokens : List JsmnTok) (forecasts : Option ℕ) (d : Day) :
    Option (Forecast ℕ) := do
  let day ← forecasts.map fun j => elemOf tokens j d.index
  let textDay ← day.bind fun j => memberOf js₀ tokens j (utf8 "text_day")
  let high ← day.bind fun j => memberOf js₀ tokens j (utf8 "high")
  let low ← day.bind fun j => memberOf js₀ tokens j (utf8 "low")
  let week ← day.bind fun j => memberOf js₀ tokens j (utf8 "week")
  return { textDay := textDay, high := high, low := low, week := week }

/-- The keys of all texts, looked up in the order of the code, or none where
one is missing. -/
def replyKeys (js₀ : List UInt8) (tokens : List JsmnTok) : Option (Reply ℕ) := do
  let result ← (some 0).map fun j => memberOf js₀ tokens j (utf8 "result")
  let location ← result.map fun j => memberOf js₀ tokens j (utf8 "location")
  let name ← location.bind fun j => memberOf js₀ tokens j (utf8 "name")
  let now ← result.map fun j => memberOf js₀ tokens j (utf8 "now")
  let text ← now.bind fun j => memberOf js₀ tokens j (utf8 "text")
  let rh ← now.bind fun j => memberOf js₀ tokens j (utf8 "rh")
  let feelsLike ← now.bind fun j => memberOf js₀ tokens j (utf8 "feels_like")
  let forecasts ← result.map fun j => memberOf js₀ tokens j (utf8 "forecasts")
  let today ← forecasts.map fun j => elemOf tokens j 0
  let high ← today.bind fun j => memberOf js₀ tokens j (utf8 "high")
  let low ← today.bind fun j => memberOf js₀ tokens j (utf8 "low")
  let date ← today.bind fun j => memberOf js₀ tokens j (utf8 "date")
  let week ← today.bind fun j => memberOf js₀ tokens j (utf8 "week")
  let day1 ← forecastKeys js₀ tokens forecasts .day1
  let day2 ← forecastKeys js₀ tokens forecasts .day2
  let day3 ← forecastKeys js₀ tokens forecasts .day3
  let day := fun
    | Day.day1 => day1
    | Day.day2 => day2
    | Day.day3 => day3
  return fun
    | .name => name
    | .text => text
    | .rh => rh
    | .feelsLike => feelsLike
    | .high => high
    | .low => low
    | .date => date
    | .week => week
    | .textDay d => (day d).textDay
    | .dayHigh d => (day d).high
    | .dayLow d => (day d).low
    | .dayWeek d => (day d).week

/-- The strings of a day's texts have been fetched, and are still there behind
later fetches. -/
def forecastFetched (n : ℕ) (tokens : List JsmnTok) (a : Forecast (Option ℕ))
    (k : Forecast ℕ) : Lasting (Later (n := n) tokens) :=
  (((fetched n tokens a.textDay k.textDay).and (fetched n tokens a.high k.high)).and
    (fetched n tokens a.low k.low)).and (fetched n tokens a.week k.week)

/-- The strings of all texts have been fetched, and are still there behind
later fetches. -/
def replyFetched (n : ℕ) (tokens : List JsmnTok) (a : Reply (Option ℕ)) (ks : Reply ℕ) :
    Lasting (Later (n := n) tokens) :=
  Lasting.all fun f => fetched n tokens (a f) (ks f)

/-- The lookups of a day follow the keys of its texts in the forest. -/
theorem follows_forecastLookups {F : Lasting (Later (n := n) tokens)} {a : Option JsmnItem}
    {i : Option ℕ} (hacc : Accepted js₀ tokens)
    (hF : ∀ js, F.holds js → Intact tokens js₀ js.bytes) (hi : IsItem tokens a i) (d : Day) :
    Follows F (forecastLookups (some tokens) a d) .unfilledItem (forecastKeys js₀ tokens i d)
      (forecastFetched n tokens) := by
  refine (follows_getArrayItem hacc hi _).bind_pure Later.trans fun day j hday => ?_
  refine (follows_getMemberString hacc hF hday (by decide)).bind Later.trans fun t kt => ?_
  have hF₁ := Lasting.and_left (P := fetched n tokens t kt) hF
  refine (follows_getMemberString hacc hF₁ hday (by decide)).bind Later.trans fun h kh => ?_
  have hF₂ := Lasting.and_left (P := fetched n tokens h kh) hF₁
  refine (follows_getMemberString hacc hF₂ hday (by decide)).bind Later.trans fun l kl => ?_
  have hF₃ := Lasting.and_left (P := fetched n tokens l kl) hF₂
  refine (follows_getMemberString hacc hF₃ hday (by decide)).bind Later.trans fun w kw => ?_
  refine Follows.pure Later.refl ?_
  rintro js ⟨⟨⟨⟨-, ht⟩, hh⟩, hl⟩, hw⟩
  exact ⟨⟨⟨ht, hh⟩, hl⟩, hw⟩

/-- **The chain follows the forest**: it fetches the texts whose keys are
there, and ends at the first that is not. -/
theorem follows_weatherLookups {F : Lasting (Later (n := n) tokens)} {a : Option JsmnItem}
    (hacc : Accepted js₀ tokens) (hF : ∀ js, F.holds js → Intact tokens js₀ js.bytes)
    (ha : IsItem tokens a (some 0)) :
    Follows F (weatherLookups (some tokens) a) .unfilledItem (replyKeys js₀ tokens)
      (replyFetched n tokens) := by
  refine (follows_getObjectItem hacc hF ha (by decide)).bind_pure Later.trans
    fun result i hresult => ?_
  refine (follows_getObjectItem hacc hF hresult (by decide)).bind_pure Later.trans
    fun location j hlocation => ?_
  refine (follows_getMemberString hacc hF hlocation (by decide)).bind Later.trans
    fun name kname => ?_
  have hF₁ := Lasting.and_left (P := fetched n tokens name kname) hF
  refine (follows_getObjectItem hacc hF₁ hresult (by decide)).bind_pure Later.trans
    fun now k hnow => ?_
  refine (follows_getMemberString hacc hF₁ hnow (by decide)).bind Later.trans
    fun text ktext => ?_
  have hF₂ := Lasting.and_left (P := fetched n tokens text ktext) hF₁
  refine (follows_getMemberString hacc hF₂ hnow (by decide)).bind Later.trans fun rh krh => ?_
  have hF₃ := Lasting.and_left (P := fetched n tokens rh krh) hF₂
  refine (follows_getMemberString hacc hF₃ hnow (by decide)).bind Later.trans
    fun feels kfeels => ?_
  have hF₄ := Lasting.and_left (P := fetched n tokens feels kfeels) hF₃
  refine (follows_getObjectItem hacc hF₄ hresult (by decide)).bind_pure Later.trans
    fun forecasts l hforecasts => ?_
  refine (follows_getArrayItem hacc hforecasts 0).bind_pure Later.trans fun today m htoday => ?_
  refine (follows_getMemberString hacc hF₄ htoday (by decide)).bind Later.trans
    fun high khigh => ?_
  have hF₅ := Lasting.and_left (P := fetched n tokens high khigh) hF₄
  refine (follows_getMemberString hacc hF₅ htoday (by decide)).bind Later.trans
    fun low klow => ?_
  have hF₆ := Lasting.and_left (P := fetched n tokens low klow) hF₅
  refine (follows_getMemberString hacc hF₆ htoday (by decide)).bind Later.trans
    fun date kdate => ?_
  have hF₇ := Lasting.and_left (P := fetched n tokens date kdate) hF₆
  refine (follows_getMemberString hacc hF₇ htoday (by decide)).bind Later.trans
    fun week kweek => ?_
  have hF₈ := Lasting.and_left (P := fetched n tokens week kweek) hF₇
  refine (follows_forecastLookups hacc hF₈ hforecasts .day1).bind Later.trans
    fun day1 kday1 => ?_
  have hF₉ := Lasting.and_left (P := forecastFetched n tokens day1 kday1) hF₈
  refine (follows_forecastLookups hacc hF₉ hforecasts .day2).bind Later.trans
    fun day2 kday2 => ?_
  have hF₁₀ := Lasting.and_left (P := forecastFetched n tokens day2 kday2) hF₉
  refine (follows_forecastLookups hacc hF₁₀ hforecasts .day3).bind Later.trans
    fun day3 kday3 => ?_
  refine Follows.pure Later.refl ?_
  -- the facts came in the order of the lookups, each beside all before it
  rintro js ⟨⟨⟨⟨⟨⟨⟨⟨⟨⟨⟨-, h1⟩, h2⟩, h3⟩, h4⟩, h5⟩, h6⟩, h7⟩, h8⟩, d1⟩, d2⟩, d3⟩
  rintro (- | - | - | - | - | - | - | - | (- | - | -) | (- | - | -) | (- | - | -) | (- | - | -))
  · exact h1
  · exact h2
  · exact h3
  · exact h4
  · exact h5
  · exact h6
  · exact h7
  · exact h8
  · exact d1.1.1.1
  · exact d2.1.1.1
  · exact d3.1.1.1
  · exact d1.1.1.2
  · exact d2.1.1.2
  · exact d3.1.1.2
  · exact d1.1.2
  · exact d2.1.2
  · exact d3.1.2
  · exact d1.2
  · exact d2.2
  · exact d3.2

/-! ## The keys are at the ends of the paths -/

/-- The keys of a day are there where the day is in the array and has each of
them. -/
theorem forecastKeys_eq_some {i : Option ℕ} {d : Day} {k : Forecast ℕ} :
    forecastKeys js₀ tokens i d = some k ↔ ∃ j day, i = some j ∧
      elemOf tokens j d.index = some day ∧
      memberOf js₀ tokens day (utf8 "text_day") = some k.textDay ∧
      memberOf js₀ tokens day (utf8 "high") = some k.high ∧
      memberOf js₀ tokens day (utf8 "low") = some k.low ∧
      memberOf js₀ tokens day (utf8 "week") = some k.week := by
  constructor
  · intro h
    obtain ⟨day?, hday, h⟩ := Option.bind_eq_some_iff.mp h
    obtain ⟨j, rfl, rfl⟩ := Option.map_eq_some_iff.mp hday
    obtain ⟨t, ht, h⟩ := Option.bind_eq_some_iff.mp h
    obtain ⟨day, hday, ht⟩ := Option.bind_eq_some_iff.mp ht
    rw [hday] at h
    obtain ⟨hi, hh, h⟩ := Option.bind_eq_some_iff.mp h
    obtain ⟨l, hl, h⟩ := Option.bind_eq_some_iff.mp h
    obtain ⟨w, hw, h⟩ := Option.bind_eq_some_iff.mp h
    obtain rfl := Option.some.inj h
    exact ⟨j, day, rfl, hday, ht, hh, hl, hw⟩
  · rintro ⟨j, day, rfl, hday, ht, hh, hl, hw⟩
    simp [forecastKeys, hday, ht, hh, hl, hw]

/-- A path leads somewhere where its first step does, and the rest from there.
-/
theorem nodeAt_cons {i k : ℕ} {st : Step} {path : List Step}
    (h : nodeAt js₀ tokens i (st :: path) = some k) :
    ∃ j, stepOf js₀ tokens i st = some j ∧ nodeAt js₀ tokens j path = some k :=
  Option.bind_eq_some_iff.mp h

/-- A path of one step leads where the step does. -/
theorem nodeAt_singleton {i : ℕ} {st : Step} :
    nodeAt js₀ tokens i [st] = stepOf js₀ tokens i st := by
  simp [nodeAt]

/-- A path with one more step leads somewhere where it does without, and the
step from there. -/
theorem nodeAt_append {i k : ℕ} {path : List Step} {st : Step}
    (h : nodeAt js₀ tokens i (path ++ [st]) = some k) :
    ∃ j, nodeAt js₀ tokens i path = some j ∧ stepOf js₀ tokens j st = some k := by
  rw [nodeAt, List.foldlM_append] at h
  obtain ⟨j, hj, h⟩ := Option.bind_eq_some_iff.mp h
  exact ⟨j, hj, nodeAt_singleton.symm.trans h⟩

/-- **The chain comes through exactly where every path leads to a key.** -/
theorem replyKeys_eq_some {ks : Reply ℕ} :
    replyKeys js₀ tokens = some ks ↔ ∀ f : Field, nodeAt js₀ tokens 0 f.path = some (ks f) := by
  constructor
  · intro h
    obtain ⟨location?, hlocation, h⟩ := Option.bind_eq_some_iff.mp h
    obtain ⟨result, hresult, rfl⟩ := Option.map_eq_some_iff.mp hlocation
    obtain ⟨name, hname, h⟩ := Option.bind_eq_some_iff.mp h
    obtain ⟨location, hlocation, hname⟩ := Option.bind_eq_some_iff.mp hname
    obtain ⟨now?, hnow, h⟩ := Option.bind_eq_some_iff.mp h
    obtain ⟨text, htext, h⟩ := Option.bind_eq_some_iff.mp h
    obtain ⟨now, rfl, htext⟩ := Option.bind_eq_some_iff.mp htext
    obtain ⟨rh, hrh, h⟩ := Option.bind_eq_some_iff.mp h
    obtain ⟨feels, hfeels, h⟩ := Option.bind_eq_some_iff.mp h
    obtain ⟨forecasts?, hforecasts, h⟩ := Option.bind_eq_some_iff.mp h
    obtain ⟨today?, htoday, h⟩ := Option.bind_eq_some_iff.mp h
    obtain ⟨forecasts, rfl, rfl⟩ := Option.map_eq_some_iff.mp htoday
    obtain ⟨high, hhigh, h⟩ := Option.bind_eq_some_iff.mp h
    obtain ⟨today, htoday, hhigh⟩ := Option.bind_eq_some_iff.mp hhigh
    obtain ⟨low, hlow, h⟩ := Option.bind_eq_some_iff.mp h
    obtain ⟨date, hdate, h⟩ := Option.bind_eq_some_iff.mp h
    obtain ⟨week, hweek, h⟩ := Option.bind_eq_some_iff.mp h
    obtain ⟨day1, hday1, h⟩ := Option.bind_eq_some_iff.mp h
    obtain ⟨day2, hday2, h⟩ := Option.bind_eq_some_iff.mp h
    obtain ⟨day3, hday3, h⟩ := Option.bind_eq_some_iff.mp h
    obtain rfl := Option.some.inj h
    rw [htoday] at hlow hdate hweek
    obtain ⟨_, d1, hj1, hd1, ht1, hh1, hl1, hw1⟩ := forecastKeys_eq_some.mp hday1
    obtain ⟨_, d2, hj2, hd2, ht2, hh2, hl2, hw2⟩ := forecastKeys_eq_some.mp hday2
    obtain ⟨_, d3, hj3, hd3, ht3, hh3, hl3, hw3⟩ := forecastKeys_eq_some.mp hday3
    obtain rfl := Option.some.inj hj1
    obtain rfl := Option.some.inj hj2
    obtain rfl := Option.some.inj hj3
    rw [Option.bind_some] at htext hrh hfeels hlow hdate hweek
    simp only [hresult, Option.map_some, Option.some.injEq] at hnow hforecasts
    rintro (- | - | - | - | - | - | - | - | (- | - | -) | (- | - | -) | (- | - | -) |
      (- | - | -)) <;>
      simp only [Field.path, Field.parent, Field.key, nodeAt, List.cons_append, List.nil_append,
        List.foldlM_cons, List.foldlM_nil, stepOf, hresult, hlocation, hname, hnow, htext, hrh,
        hfeels, hforecasts, htoday, hhigh, hlow, hdate, hweek, hd1, ht1, hh1, hl1, hw1, hd2, ht2,
        hh2, hl2, hw2, hd3, ht3, hh3, hl3, hw3, Option.bind_eq_bind, Option.bind_some,
        Option.pure_def]
  · intro h
    -- the texts of one container share it
    have hkey : ∀ (f : Field) (c : ℕ), nodeAt js₀ tokens 0 f.parent = some c →
        memberOf js₀ tokens c f.key = some (ks f) := by
      intro f c hc
      obtain ⟨c', hc', hk⟩ := nodeAt_append (h f)
      obtain rfl := Option.some.inj (hc.symm.trans hc')
      exact hk
    obtain ⟨location, hlocation, hname⟩ := nodeAt_append (h .name)
    obtain ⟨now, hnow, htext⟩ := nodeAt_append (h .text)
    obtain ⟨today, htoday, hhigh⟩ := nodeAt_append (h .high)
    have hrh := hkey .rh now hnow
    have hfeels := hkey .feelsLike now hnow
    have hlow := hkey .low today htoday
    have hdate := hkey .date today htoday
    have hweek := hkey .week today htoday
    obtain ⟨result, hresult, hlocation⟩ := nodeAt_cons hlocation
    obtain ⟨_, hresult', hnow⟩ := nodeAt_cons hnow
    obtain rfl := Option.some.inj (hresult.symm.trans hresult')
    obtain ⟨_, hresult', htoday⟩ := nodeAt_cons htoday
    obtain rfl := Option.some.inj (hresult.symm.trans hresult')
    obtain ⟨forecasts, hforecasts, htoday⟩ := nodeAt_cons htoday
    have hday : ∀ d, forecastKeys js₀ tokens (some forecasts) d =
        some ⟨ks (.textDay d), ks (.dayHigh d), ks (.dayLow d), ks (.dayWeek d)⟩ := by
      intro d
      obtain ⟨c, hc, ht⟩ := nodeAt_append (h (.textDay d))
      have hh := hkey (.dayHigh d) c hc
      have hl := hkey (.dayLow d) c hc
      have hw := hkey (.dayWeek d) c hc
      obtain ⟨_, hresult', hc⟩ := nodeAt_cons hc
      obtain rfl := Option.some.inj (hresult.symm.trans hresult')
      obtain ⟨_, hforecasts', hc⟩ := nodeAt_cons hc
      obtain rfl := Option.some.inj (hforecasts.symm.trans hforecasts')
      rw [nodeAt_singleton] at hc
      exact forecastKeys_eq_some.mpr ⟨forecasts, c, rfl, hc, ht, hh, hl, hw⟩
    rw [nodeAt_singleton] at hlocation hnow htoday
    have hinResult : ∀ key, (memberOf js₀ tokens 0 (utf8 "result")).map
        (fun j => memberOf js₀ tokens j key) = some (memberOf js₀ tokens result key) :=
      fun key => Option.map_eq_some_iff.mpr ⟨result, hresult, rfl⟩
    have hdays : ∀ d, forecastKeys js₀ tokens (memberOf js₀ tokens result (utf8 "forecasts")) d =
        some ⟨ks (.textDay d), ks (.dayHigh d), ks (.dayLow d), ks (.dayWeek d)⟩ := by
      intro d
      rw [show memberOf js₀ tokens result (utf8 "forecasts") = some forecasts from hforecasts]
      exact hday d
    refine Option.bind_eq_some_iff.mpr ⟨_, hinResult _, ?_⟩
    refine Option.bind_eq_some_iff.mpr ⟨_, Option.bind_eq_some_iff.mpr ⟨_, hlocation, hname⟩, ?_⟩
    refine Option.bind_eq_some_iff.mpr ⟨_, hinResult _, ?_⟩
    refine Option.bind_eq_some_iff.mpr ⟨_, Option.bind_eq_some_iff.mpr ⟨_, hnow, htext⟩, ?_⟩
    refine Option.bind_eq_some_iff.mpr ⟨_, Option.bind_eq_some_iff.mpr ⟨_, hnow, hrh⟩, ?_⟩
    refine Option.bind_eq_some_iff.mpr ⟨_, Option.bind_eq_some_iff.mpr ⟨_, hnow, hfeels⟩, ?_⟩
    refine Option.bind_eq_some_iff.mpr ⟨_, hinResult _, ?_⟩
    refine Option.bind_eq_some_iff.mpr ⟨_, Option.map_eq_some_iff.mpr ⟨_, hforecasts, rfl⟩, ?_⟩
    refine Option.bind_eq_some_iff.mpr ⟨_, Option.bind_eq_some_iff.mpr ⟨_, htoday, hhigh⟩, ?_⟩
    refine Option.bind_eq_some_iff.mpr ⟨_, Option.bind_eq_some_iff.mpr ⟨_, htoday, hlow⟩, ?_⟩
    refine Option.bind_eq_some_iff.mpr ⟨_, Option.bind_eq_some_iff.mpr ⟨_, htoday, hdate⟩, ?_⟩
    refine Option.bind_eq_some_iff.mpr ⟨_, Option.bind_eq_some_iff.mpr ⟨_, htoday, hweek⟩, ?_⟩
    refine Option.bind_eq_some_iff.mpr ⟨_, hdays .day1, ?_⟩
    refine Option.bind_eq_some_iff.mpr ⟨_, hdays .day2, ?_⟩
    refine Option.bind_eq_some_iff.mpr ⟨_, hdays .day3, congrArg some (funext fun f => ?_)⟩
    rcases f with - | - | - | - | - | - | - | - | (- | - | -) | (- | - | -) | (- | - | -) |
      (- | - | -) <;> rfl

/-! ## The texts of a document -/

/-- **The chain over the tokens of an accepted text.** Where all twenty
paths lead to a key, it comes through, and has fetched the keys' strings. -/
theorem weatherLookups_fetched {js : Block n} {ks : Reply ℕ} (hacc : Accepted js.bytes tokens)
    (hne : tokens ≠ []) (hks : ∀ f : Field, nodeAt js.bytes tokens 0 f.path = some (ks f)) :
    ∃ strings js', weatherLookups (some tokens) (some (jsmnItemInit 0 0 tokens.length)) js =
        .ok (strings, js') ∧
      Later tokens js js' ∧ ∀ f, (fetched n tokens (strings f) (ks f)).holds js' := by
  have hrun := follows_weatherLookups (F := stillIntact n js.bytes tokens) hacc
    (fun _ h => h) (isItem_root hne) js (Intact.refl tokens js.bytes)
  rwa [replyKeys_eq_some.mpr hks] at hrun

/-- And where one does not, it stops, with the use of what is absent. -/
theorem weatherLookups_stops {js : Block n} (hacc : Accepted js.bytes tokens) (hne : tokens ≠ [])
    (hks : ¬ ∃ ks : Reply ℕ, ∀ f : Field, nodeAt js.bytes tokens 0 f.path = some (ks f)) :
    weatherLookups (some tokens) (some (jsmnItemInit 0 0 tokens.length)) js =
      .error .unfilledItem := by
  have hrun := follows_weatherLookups (F := stillIntact n js.bytes tokens) hacc
    (fun _ h => h) (isItem_root hne) js (Intact.refl tokens js.bytes)
  have hnone : replyKeys js.bytes tokens = none := by
    by_contra h
    obtain ⟨ks, h⟩ := Option.ne_none_iff_exists'.mp h
    exact hks ⟨ks, replyKeys_eq_some.mp h⟩
  rwa [hnone] at hrun

/-- **The lookup chain of `weather_get_test` holds the texts of the
document.** Whatever else the document has, in whatever order and layout,
and whatever the calls before have terminated, the strings are the raw
texts at the twenty paths. -/
theorem weatherLookups_document {d : Document} {texts : Reply (List UInt8)}
    {js : Block respBufsz} {tail : List UInt8} (hjs : js.bytes = d.render ++ tail)
    (hroom : d.value.size ≤ 150)
    (htexts : ∀ f : Field, d.textAt f.path = some (texts f)) :
    ∃ tokens, jsmnParse js.bytes d.render.length (some 150) = .ok (tokens.length, tokens) ∧
      ∃ strings js', weatherLookups (some tokens) (some (jsmnItemInit 0 0 tokens.length)) js =
          .ok (strings, js') ∧
        ∀ f, (strings f).map js'.cstr = some (texts f) := by
  have hparse : jsmnParse (d.render ++ tail) d.render.length (some 150) = _ :=
    jsmnParse_render tail hroom
  obtain ⟨hcount, hacc⟩ := jsmnParse_ok hparse
  rw [← hjs] at hparse hacc
  have hne : d.tokens ≠ [] := by
    obtain ⟨t, ts, hts, -⟩ := d.value.tokens_eq_cons d.before.bytes.length 0 none
    rw [Document.tokens, hts]
    exact List.cons_ne_nil t ts
  refine ⟨d.tokens, by rw [hparse, hcount], ?_⟩
  have htextAt : ∀ f : Field, textAt js.bytes d.tokens f.path = some (texts f) := by
    intro f
    rw [hjs]
    exact textAt_eq d tail hacc.forest (htexts f)
  choose ks hks htext using fun f => Option.bind_eq_some_iff.mp (htextAt f)
  obtain ⟨strings, js', hrun, hlater, hfetched⟩ := weatherLookups_fetched hacc hne hks
  refine ⟨strings, js', hrun, fun f => ?_⟩
  rw [cstr_of_fetched hacc hlater.1 (hfetched f), htext]

/-- **A document is a reply** with the texts at its paths. -/
theorem replyOf_document {d : Document} {texts : Reply (List UInt8)} (hroom : d.value.size ≤ 150)
    (htexts : ∀ f : Field, d.textAt f.path = some (texts f)) (tail : List UInt8) :
    ReplyOf (d.render ++ tail) d.render.length texts := by
  have hparse : jsmnParse (d.render ++ tail) d.render.length (some numTokens) = _ :=
    jsmnParse_render tail hroom
  obtain ⟨-, hacc⟩ := jsmnParse_ok hparse
  exact ⟨_, _, hparse, fun f => textAt_eq d tail hacc.forest (htexts f)⟩

/-! ## A reply -/

/-- A member with a string, without white space, and the members behind it. -/
def stringMember (key value : Text) (ms : Members) : Members :=
  .cons noBlank key noBlank noBlank (.string value) noBlank ms

/-- A member with a value of any kind, without white space, and the members
behind it. -/
def valueMember (key : Text) (v : Value) (ms : Members) : Members :=
  .cons noBlank key noBlank noBlank v noBlank ms

def keyResult : Text := { bytes := utf8 "result", valid := by decide }

def keyLocation : Text := { bytes := utf8 "location", valid := by decide }

def keyNow : Text := { bytes := utf8 "now", valid := by decide }

def keyForecasts : Text := { bytes := utf8 "forecasts", valid := by decide }

def keyHigh : Text := { bytes := utf8 "high", valid := by decide }

def keyLow : Text := { bytes := utf8 "low", valid := by decide }

def keyWeek : Text := { bytes := utf8 "week", valid := by decide }

def march : Text := { bytes := utf8 "2024-03-17", valid := by decide }

def degrees : Text := { bytes := utf8 "21", valid := by decide }

def sunday : Text := { bytes := utf8 "星期日", valid := by decide }

/-- The weather of the forecast days, in a character of three bytes. -/
def clear : Text := { bytes := utf8 "晴", valid := by decide }

/-- The first of the forecasts, with the date and the weekday of today. -/
def sampleToday : Value :=
  .object noBlank <| stringMember keyHigh degrees <| stringMember keyLow degrees <|
    stringMember { bytes := utf8 "date", valid := by decide } march <|
    stringMember keyWeek sunday .nil

/-- A forecast of a day after today, with its four texts. -/
def sampleDay : Value :=
  .object noBlank <| stringMember { bytes := utf8 "text_day", valid := by decide } clear <|
    stringMember keyHigh degrees <| stringMember keyLow degrees <| stringMember keyWeek sunday .nil

/-- The four forecasts of a reply, the first of them for today. -/
def sampleForecasts : Elements :=
  .cons noBlank sampleToday noBlank <| .cons noBlank sampleDay noBlank <|
    .cons noBlank sampleDay noBlank <| .cons noBlank sampleDay noBlank .nil

/-- The place, the weather now and the forecasts. -/
def sampleResult : Members :=
  valueMember keyLocation
    (.object noBlank (stringMember { bytes := utf8 "name", valid := by decide } clear .nil)) <|
  valueMember keyNow
    (.object noBlank <| stringMember { bytes := utf8 "text", valid := by decide } clear <|
      stringMember { bytes := utf8 "rh", valid := by decide } degrees <|
      stringMember { bytes := utf8 "feels_like", valid := by decide } degrees .nil) <|
  valueMember keyForecasts (.array noBlank sampleForecasts) .nil

/-- A reply of the service, reduced to what is used of it. -/
def sampleReply : Document where
  before := noBlank
  value := .object noBlank (valueMember keyResult (.object noBlank sampleResult) .nil)
  behind := noBlank

/-- The texts of the sample, field by field. -/
def sampleTexts : Reply (List UInt8)
  | .name | .text | .textDay _ => clear.bytes
  | .rh | .feelsLike | .high | .low | .dayHigh _ | .dayLow _ => degrees.bytes
  | .date => utf8 "2024-03-17"
  | .week | .dayWeek _ => sunday.bytes

/-- Each of them is where the code looks for it. -/
theorem sampleReply_textAt (f : Field) : sampleReply.textAt f.path = some (sampleTexts f) := by
  rcases f with - | - | - | - | - | - | - | - | (- | - | -) | (- | - | -) | (- | - | -) |
    (- | - | -) <;> rfl

/-- The sample has no more tokens than the code provides room for. -/
theorem sampleReply_size : sampleReply.value.size ≤ 150 := by decide

theorem sampleReply_length : sampleReply.render.length ≤ respBufsz := by decide +kernel

/-- The sample is parsed, and every string of it fetched. -/
theorem weatherLookups_sampleReply :
    ∃ tokens, jsmnParse (Block.holding respBufsz sampleReply.render sampleReply_length).bytes
        sampleReply.render.length (some 150) = .ok (tokens.length, tokens) ∧
      ∃ strings js', weatherLookups (some tokens) (some (jsmnItemInit 0 0 tokens.length))
          (Block.holding respBufsz sampleReply.render sampleReply_length) =
          .ok (strings, js') ∧
        ∀ f, (strings f).map js'.cstr = some (sampleTexts f) :=
  weatherLookups_document rfl sampleReply_size sampleReply_textAt

end Weather

end WeatherTerminal
