import WeatherTerminal.Common.Fault
import WeatherTerminal.Weather.Model.Reply
/-!
# Weather — the record

`struct weather_info`, one block of memory with fourteen arrays of chars in
it, and the part of `weather_get_test` that writes them. A copy that is
longer than its array runs on into the next one, as it does in memory.

Searching a string for a byte it does not have gives the null pointer, and
the source steps on from it without a look: `Ptr.wild` is the address
behind null. What stands there is not the program's; a call takes it as an
input.
-/

namespace WeatherTerminal

namespace Weather

open Jsmn

/-- The members of `struct weather_info`, three of them for each day. -/
inductive Member
  | nowTemp
  | nowText
  | nowLocation
  | nowHumi
  | nowTime
  | dayTime (d : Day)
  | dayText (d : Day)
  | dayTemp (d : Day)
deriving DecidableEq, Repr

/-- The size of a member's array, its NUL included. -/
def Member.size : Member → ℕ
  | .nowTemp => 10
  | .nowText | .nowLocation | .nowHumi => 20
  | .nowTime => 25
  | .dayTime _ | .dayText _ | .dayTemp _ => 10

/-- Where the members of a day start in the record. -/
def Day.offset : Day → ℕ
  | .day1 => 95
  | .day2 => 125
  | .day3 => 155

/-- Where a member starts in the record, the arrays being in their order. -/
def Member.offset : Member → ℕ
  | .nowTemp => 0
  | .nowText => 10
  | .nowLocation => 30
  | .nowHumi => 50
  | .nowTime => 70
  | .dayTime d => d.offset
  | .dayText d => d.offset + 10
  | .dayTemp d => d.offset + 20

/-- `sizeof(struct weather_info)`: the arrays one behind the other, without
padding. -/
abbrev infoSize : ℕ := 185

/-- `struct weather_info` as the bytes of its block. -/
abbrev WeatherInfo : Type := Block infoSize

namespace WeatherInfo

/-- A row of `strcat` onto a member, in the order of its texts. -/
def strcats (w : WeatherInfo) (m : Member) (texts : List (List UInt8)) : WeatherInfo :=
  texts.foldl (fun w t => w.strcat m.offset t) w

/-- A `strcpy` to a member and a row of `strcat` behind it. -/
def fill (w : WeatherInfo) (m : Member) (first : List UInt8) (texts : List (List UInt8)) :
    WeatherInfo :=
  strcats (w.strcpy m.offset first) m texts

end WeatherInfo

/-! ## The date and the weekdays -/

/-- A pointer into the buffer, or the address behind null. -/
inductive Ptr
  | buffer (p : ℕ)
  | wild
deriving DecidableEq, Repr

/-- The string a pointer points to; `stray` is the memory behind null. -/
def Ptr.text {n : ℕ} (js : Block n) (stray : List UInt8) : Ptr → List UInt8
  | .buffer p => js.cstr p
  | .wild => cstrOf stray

/-- The result of `strchr` or `strrchr`, moved on by one. -/
def Ptr.next : Option ℕ → Ptr
  | some p => .buffer (p + 1)
  | none => .wild

/-- A string that must not be null, where the code would read from it. -/
def checkString : Option ℕ → Except Fault ℕ
  | none => .error .nullString
  | some p => .ok p

abbrev dash : UInt8 := 0x2D

/-- What is left of the character constant `'期'` when it becomes a `char`:
its last byte. -/
abbrev qi : UInt8 := 0x9F

/-- The date cut at its last dash, and behind the day: the buffer
afterwards, and the pointers to month and day. -/
def splitDate {n : ℕ} (js : Block n) (date : Option ℕ) :
    Except Fault (Block n × Ptr × Ptr) := do
  let date ← checkString date
  let date2 := js.strrchr date dash
  -- through a null `root_day1_date_2` both stores miss the buffer
  let js := match date2 with
    | some p => js.store p 0
    | none => js.store n 0
  let date1 := js.strchr date dash
  let js := match date2 with
    | some p => js.store (p + 1 + 2) 0
    | none => js.store n 0
  return (js, Ptr.next date1, Ptr.next date2)

/-- What follows the last `'期'` of a weekday, or what is behind null. -/
def weekPtr {n : ℕ} (js : Block n) (week : Option ℕ) : Except Fault Ptr := do
  let week ← checkString week
  return Ptr.next (js.strrchr week qi)

/-! ## Writing the record -/

/-- A string that is copied, a fault where it is null. -/
def copied {n : ℕ} (js : Block n) (p : Option ℕ) : Except Fault (List UInt8) :=
  (checkString p).map js.cstr

/-- The members that are written before the date is split. -/
def formatNow {n : ℕ} (strings : Reply (Option ℕ)) (js : Block n) (w : WeatherInfo) :
    Except Fault WeatherInfo := do
  let text ← copied js (strings .text)
  let high ← copied js (strings .high)
  let low ← copied js (strings .low)
  let w := WeatherInfo.fill w .nowText text [utf8 " ", high, utf8 "/", low, utf8 "°C"]
  let name ← copied js (strings .name)
  let w := WeatherInfo.fill w .nowLocation name []
  let feelsLike ← copied js (strings .feelsLike)
  let w := WeatherInfo.fill w .nowTemp feelsLike [utf8 "°"]
  -- with its terminator, `sizeof` counting it
  let w := w.strncpy Member.nowHumi.offset (utf8 "空气湿度 ") ((utf8 "空气湿度 ").length + 1)
  let rh ← copied js (strings .rh)
  return WeatherInfo.strcats w .nowHumi [rh, utf8 "%"]

/-- The members of a day, as the code writes them one after the other. -/
def formatDay {n : ℕ} (strings : Reply (Option ℕ)) (js : Block n) (stray : List UInt8) (d : Day)
    (w : WeatherInfo) : Except Fault WeatherInfo := do
  let textDay ← copied js (strings (.textDay d))
  let w := WeatherInfo.fill w (.dayText d) textDay []
  let high ← copied js (strings (.dayHigh d))
  let low ← copied js (strings (.dayLow d))
  let w := WeatherInfo.fill w (.dayTemp d) high [utf8 "/", low, utf8 "°C"]
  let week ← weekPtr js (strings (.dayWeek d))
  return WeatherInfo.fill w (.dayTime d) (utf8 "周") [week.text js stray]

/-- The record from the strings of a reply: `weather_get_test` from line
222 on. -/
def formatReply {n : ℕ} (strings : Reply (Option ℕ)) (js : Block n) (stray : List UInt8)
    (w : WeatherInfo) : Except Fault WeatherInfo := do
  let w ← formatNow strings js w
  let (js, month, day) ← splitDate js (strings .date)
  let week ← copied js (strings .week)
  let w := WeatherInfo.fill w .nowTime (month.text js stray)
    [utf8 "月", day.text js stray, utf8 "日 ", week, []]
  let w ← formatDay strings js stray .day1 w
  let w ← formatDay strings js stray .day2 w
  formatDay strings js stray .day3 w

/-! ## What the record is to say -/

/-- What stands behind the last `c`, or none where it does not occur. -/
def afterLast (c : UInt8) (s : List UInt8) : Option (List UInt8) :=
  if c ∈ s then some (s.reverse.takeWhile (· ≠ c)).reverse else none

/-- What stands before it, or none where it does not occur. -/
def beforeLast (c : UInt8) (s : List UInt8) : Option (List UInt8) :=
  if c ∈ s then some (s.reverse.dropWhile (· ≠ c)).tail.reverse else none

/-- What stands behind the first one, or none where it does not occur. -/
def afterFirst (c : UInt8) (s : List UInt8) : Option (List UInt8) :=
  if c ∈ s then some (s.dropWhile (· ≠ c)).tail else none

/-- The month of a date `year-month-day`, between the first dash and the last.
-/
def monthOf (date : List UInt8) : Option (List UInt8) :=
  (beforeLast dash date).bind (afterFirst dash)

/-- Its day, two digits of it at most, behind the last dash. -/
def dayOf (date : List UInt8) : Option (List UInt8) := (afterLast dash date).map (List.take 2)

/-- **The text of a member**, from the texts of a reply. There is none for
a date without month and day or a weekday without `期`. -/
def Member.text (r : Reply (List UInt8)) : Member → Option (List UInt8)
  | .nowTemp => some (r .feelsLike ++ utf8 "°")
  | .nowText => some (r .text ++ utf8 " " ++ r .high ++ utf8 "/" ++ r .low ++ utf8 "°C")
  | .nowLocation => some (r .name)
  | .nowHumi => some (utf8 "空气湿度 " ++ r .rh ++ utf8 "%")
  | .nowTime => do
      let month ← monthOf (r .date)
      let day ← dayOf (r .date)
      return month ++ utf8 "月" ++ day ++ utf8 "日 " ++ r .week
  | .dayTime d => (afterLast qi (r (.dayWeek d))).map (utf8 "周" ++ ·)
  | .dayText d => some (r (.textDay d))
  | .dayTemp d => some (r (.dayHigh d) ++ utf8 "/" ++ r (.dayLow d) ++ utf8 "°C")

end Weather

end WeatherTerminal
