import WeatherTerminal.Weather.Model.Record
/-!
# Weather — the copies into the record

The copies of `weather_get_test` one by one, each with the member it is
aimed at, so that it can be asked where its bytes go. Running them is
writing the record.
-/

namespace WeatherTerminal

namespace Weather

open Jsmn

/-- A call of a function of `string.h` with a member of the record as its
target. -/
inductive Copy
  | strcpy (m : Member) (text : List UInt8)
  | strcat (m : Member) (text : List UInt8)
  | strncpy (m : Member) (text : List UInt8) (count : ℕ)
deriving DecidableEq, Repr

namespace Copy

/-- The member a copy is made to. -/
def target : Copy → Member
  | strcpy m _ | strcat m _ | strncpy m _ _ => m

/-- Where the first byte goes: for `strcat` that is the NUL it finds. -/
def start (w : WeatherInfo) : Copy → ℕ
  | strcpy m _ | strncpy m _ _ => m.offset
  | strcat m _ => m.offset + (w.cstr m.offset).length

/-- The bytes written, a terminator included, and padding where there is some.
-/
def count : Copy → ℕ
  | strcpy _ text | strcat _ text => text.length + 1
  | strncpy _ _ k => k

/-- What a copy leaves of the record. -/
def exec (w : WeatherInfo) : Copy → WeatherInfo
  | strcpy m text => w.strcpy m.offset text
  | strcat m text => w.strcat m.offset text
  | strncpy m text k => w.strncpy m.offset text k

/-- No byte is written outside the array of the target. -/
def Inside (w : WeatherInfo) (c : Copy) : Prop :=
  c.target.offset ≤ c.start w ∧ c.start w + c.count ≤ c.target.offset + c.target.size

end Copy

/-- What copies leave of the record, one after the other. -/
def runCopies (w : WeatherInfo) (copies : List Copy) : WeatherInfo := copies.foldl Copy.exec w

/-- Each of the copies is made inside its array, as the record is when it is
made. -/
def AllInside : WeatherInfo → List Copy → Prop
  | _, [] => True
  | w, c :: copies => c.Inside w ∧ AllInside (c.exec w) copies

/-! ## The copies of `weather_get_test` -/

/-- A `strcpy` to a member, and a row of `strcat` onto it. -/
def memberCopies (m : Member) (first : List UInt8) (texts : List (List UInt8)) : List Copy :=
  .strcpy m first :: texts.map (.strcat m)

/-- Those before the date is split: the weather, the place, the temperatures
and the humidity. -/
def copiesNow {n : ℕ} (strings : Reply (Option ℕ)) (js : Block n) : Except Fault (List Copy) := do
  let text ← copied js (strings .text)
  let high ← copied js (strings .high)
  let low ← copied js (strings .low)
  let name ← copied js (strings .name)
  let feelsLike ← copied js (strings .feelsLike)
  let rh ← copied js (strings .rh)
  return memberCopies .nowText text [utf8 " ", high, utf8 "/", low, utf8 "°C"] ++
    memberCopies .nowLocation name [] ++
    memberCopies .nowTemp feelsLike [utf8 "°"] ++
    .strncpy .nowHumi (utf8 "空气湿度 ") ((utf8 "空气湿度 ").length + 1) ::
      [rh, utf8 "%"].map (.strcat .nowHumi)

/-- Those of a day: its weather, its temperatures and its weekday. -/
def copiesDay {n : ℕ} (strings : Reply (Option ℕ)) (js : Block n) (stray : List UInt8) (d : Day) :
    Except Fault (List Copy) := do
  let textDay ← copied js (strings (.textDay d))
  let high ← copied js (strings (.dayHigh d))
  let low ← copied js (strings (.dayLow d))
  let week ← weekPtr js (strings (.dayWeek d))
  return memberCopies (.dayText d) textDay [] ++
    memberCopies (.dayTemp d) high [utf8 "/", low, utf8 "°C"] ++
    memberCopies (.dayTime d) (utf8 "周") [week.text js stray]

/-- All of them, in the order of the code, up to the use of a null pointer. -/
def copiesReply {n : ℕ} (strings : Reply (Option ℕ)) (js : Block n) (stray : List UInt8) :
    Except Fault (List Copy) := do
  let now ← copiesNow strings js
  let (js, month, day) ← splitDate js (strings .date)
  let week ← copied js (strings .week)
  let day1 ← copiesDay strings js stray .day1
  let day2 ← copiesDay strings js stray .day2
  let day3 ← copiesDay strings js stray .day3
  return now ++ memberCopies .nowTime (month.text js stray)
    [utf8 "月", day.text js stray, utf8 "日 ", week, []] ++ day1 ++ day2 ++ day3

end Weather

end WeatherTerminal
