import WeatherTerminal.Jsmn.Model.Walk
import WeatherTerminal.Jsmn.Model.Reading
import WeatherTerminal.Weather.Model.Comm
/-!
# Weather — the reply

The twenty texts `weather_get_test` takes from a reply, with their paths
in it, and the chain of lookups that takes them.
-/

namespace WeatherTerminal

namespace Weather

open Jsmn

/-- The three days after today, `forecasts[1]` to `forecasts[3]` of a reply.
-/
inductive Day
  | day1
  | day2
  | day3
deriving DecidableEq, Repr

/-- The index of a day among the forecasts, today being the first. -/
def Day.index : Day → ℕ
  | .day1 => 1
  | .day2 => 2
  | .day3 => 3

/-- The texts of a reply. `high`, `low`, `date` and `week` are today's. -/
inductive Field
  | name
  | text
  | rh
  | feelsLike
  | high
  | low
  | date
  | week
  | textDay (d : Day)
  | dayHigh (d : Day)
  | dayLow (d : Day)
  | dayWeek (d : Day)
deriving DecidableEq, Repr

/-- The container a text is looked up in, as a path from the root. -/
def Field.parent : Field → List Step
  | .name => [.key (utf8 "result"), .key (utf8 "location")]
  | .text | .rh | .feelsLike => [.key (utf8 "result"), .key (utf8 "now")]
  | .high | .low | .date | .week =>
      [.key (utf8 "result"), .key (utf8 "forecasts"), .elem 0]
  | .textDay d | .dayHigh d | .dayLow d | .dayWeek d =>
      [.key (utf8 "result"), .key (utf8 "forecasts"), .elem d.index]

/-- The key it is looked up by, the same for each of the days. -/
def Field.key : Field → List UInt8
  | .name => utf8 "name"
  | .text => utf8 "text"
  | .rh => utf8 "rh"
  | .feelsLike => utf8 "feels_like"
  | .high | .dayHigh _ => utf8 "high"
  | .low | .dayLow _ => utf8 "low"
  | .date => utf8 "date"
  | .week | .dayWeek _ => utf8 "week"
  | .textDay _ => utf8 "text_day"

/-- Where it stands in a reply, from the root. -/
def Field.path (f : Field) : List Step := f.parent ++ [.key f.key]

/-- One value for each text of a reply, such as its pointer or its bytes. -/
abbrev Reply (α : Type) : Type := Field → α

/-- The four values of a day after today, one for each of its texts. -/
structure Forecast (α : Type) where
  textDay : α
  high : α
  low : α
  week : α

/-! ## The lookups -/

variable {n : ℕ}

/-- The lookups of a day after today, in the order of the code. -/
def forecastLookups (tokens : Option (List JsmnTok)) (forecasts : Option JsmnItem) (d : Day) :
    Walk n (Forecast (Option ℕ)) := do
  let day ← getArrayItem tokens forecasts d.index
  let textDay ← getMemberString tokens day (utf8 "text_day")
  let high ← getMemberString tokens day (utf8 "high")
  let low ← getMemberString tokens day (utf8 "low")
  let week ← getMemberString tokens day (utf8 "week")
  return { textDay := textDay, high := high, low := low, week := week }

/-- The lookups of `weather_get_test`, from the root item on and in the order
of the code. -/
def weatherLookups (tokens : Option (List JsmnTok)) (root : Option JsmnItem) :
    Walk n (Reply (Option ℕ)) := do
  let result ← getObjectItem tokens root (utf8 "result")
  let location ← getObjectItem tokens result (utf8 "location")
  let name ← getMemberString tokens location (utf8 "name")
  let now ← getObjectItem tokens result (utf8 "now")
  let text ← getMemberString tokens now (utf8 "text")
  let rh ← getMemberString tokens now (utf8 "rh")
  let feelsLike ← getMemberString tokens now (utf8 "feels_like")
  let forecasts ← getObjectItem tokens result (utf8 "forecasts")
  let today ← getArrayItem tokens forecasts 0
  let high ← getMemberString tokens today (utf8 "high")
  let low ← getMemberString tokens today (utf8 "low")
  let date ← getMemberString tokens today (utf8 "date")
  let week ← getMemberString tokens today (utf8 "week")
  let day1 ← forecastLookups tokens forecasts .day1
  let day2 ← forecastLookups tokens forecasts .day2
  let day3 ← forecastLookups tokens forecasts .day3
  let day := fun
    | Day.day1 => day1
    | Day.day2 => day2
    | Day.day3 => day3
  return fun
    | .name => name
    | .text => text
    | .rh => rh
    | .feelsLike => feelsLike
    | .high => high
    | .low => low
    | .date => date
    | .week => week
    | .textDay d => (day d).textDay
    | .dayHigh d => (day d).high
    | .dayLow d => (day d).low
    | .dayWeek d => (day d).week

/-! ## What a reply is -/

/-- The first `len` bytes of `js` are a reply: they are parsed into the
token array, and at the twenty paths stand these texts. -/
def ReplyOf (js : List UInt8) (len : ℕ) (texts : Reply (List UInt8)) : Prop :=
  ∃ count tokens, jsmnParse js len (some numTokens) = .ok (count, tokens) ∧
    ∀ f : Field, textAt js tokens f.path = some (texts f)

end Weather

end WeatherTerminal
