import WeatherTerminal.Common.Block
import WeatherTerminal.Common.Decimal
import WeatherTerminal.Common.Numeral
import WeatherTerminal.Led.Model.Strip
/-!
# The LED clock

`led_matrix_example_entry` on the text of `ctime`, and the rule by which
the README reads the nineteen LEDs. `ctime` is the C library's, which
formats a broken-down local time into a buffer of 26 bytes.
-/

namespace WeatherTerminal

namespace Led

/-- A broken-down local time, each of its fields within the range `localtime`
gives it. -/
structure Tm where
  wday : Fin 7
  mon : Fin 12
  mday : Fin 32
  hour : Fin 24
  min : Fin 60
  sec : Fin 60
  /-- `tm_year + 1900`. -/
  year : Fin 10000
deriving DecidableEq, Repr

/-- Four characters of the tables `days` and `months`, the last of them a
blank. -/
def name (table : String) (i : ℕ) : List UInt8 := ((utf8 table).drop (4 * i)).take 4

/-- The name of a day as `asctime_r` copies it, with the blank behind it. -/
def dayName (wday : Fin 7) : List UInt8 := name "Sun Mon Tue Wed Thu Fri Sat " wday

/-- The name of a month as `asctime_r` copies it, with the blank behind it. -/
def monthName (mon : Fin 12) : List UInt8 :=
  name "Jan Feb Mar Apr May Jun Jul Aug Sep Oct Nov Dec " mon

/-- `num2str`: the two digits of a number below a hundred. -/
def num2str (i : ℕ) : List UInt8 := [UInt8.ofNat (i / 10 + 48), UInt8.ofNat (i % 10 + 48)]

/-- `num2str` of the day, a leading `0` made a blank. -/
def dayOfMonth (mday : ℕ) : List UInt8 :=
  match num2str mday with
  | c :: cs => (if c = 48 then 32 else c) :: cs
  | [] => []

/-- `asctime_r` into its cleared buffer, for a time within the tables. -/
def asctimeR (t : Tm) : Block 26 :=
  ((((((((((((Block.filled 26 0).storeAll 0 (dayName t.wday)).storeAll 4 (monthName t.mon)).storeAll
    8 (dayOfMonth t.mday)).store 10 32).storeAll 11 (num2str t.hour)).store 13 58).storeAll
    14 (num2str t.min)).store 16 58).storeAll 17 (num2str t.sec)).store 19 32).storeAll
    20 (num2str (t.year / 100) ++ num2str (t.year % 100))).storeAll 24 [10, 0]

/-- The number the digits at the front of a text spell. -/
def digitsValue (s : List UInt8) : ℤ :=
  (s.takeWhile Decimal.isDigit).foldl (fun n c => 10 * n + (c.toNat - 48 : ℤ)) 0

/-- `atoi` of a string: blanks, a sign and digits, read up to the first byte
that is none. -/
def atoi (s : List UInt8) : ℤ :=
  match s.dropWhile Numeral.isSpace with
  | [] => 0
  | c :: cs =>
      if c = 45 then -digitsValue cs
      else if c = 43 then digitsValue cs
      else digitsValue (c :: cs)

/-- `led_matrix_example_entry` on the text `ctime` returned. It is `none`
where the text has no colon: the stores then go through a null pointer. -/
def ledMatrixExampleEntry {n : ℕ} (timeStr : Block n) (s : Strip) : Option Strip :=
  match timeStr.strchr 0 58 with
  | none => none
  | some timeMinute =>
      let timeStr := timeStr.store (timeMinute + 3) 0
      let timeHour := timeMinute - 2
      let timeMinute := timeMinute + 1
      let timeStr := timeStr.store (timeHour + 2) 0
      let hour := atoi (timeStr.cstr timeHour)
      let minute := atoi (timeStr.cstr timeMinute)
      some (ledMatrixSetTime (hour.tmod 12) minute s)

/-! ## Reading the LEDs

The outer ring is LEDs 0 to 11, the inner ring 12 to 17, the middle 18. -/

variable (leds : List RGBColor)

/-- LED `k` is lit: its colour is another than none. -/
def litAt (k : ℕ) : Bool := leds[k]? ≠ some dark

/-- The lit LEDs of the outer ring, which has twelve. -/
def hourLeds : List ℕ := (List.range 12).filter (litAt leds)

/-- The digits `k` of the inner ring in the colour of the tens, or in the
colour tens and units share. -/
def tenLeds : List ℕ :=
  (List.range 6).filter fun k =>
    leds[12 + k]? = some ltMinuteTen ∨ leds[12 + k]? = some ltMinute

/-- The digits `k` in the colour of the units, or in the shared one. -/
def unitLeds : List ℕ :=
  (List.range 6).filter fun k =>
    leds[12 + k]? = some ltMinuteUnit ∨ leds[12 + k]? = some ltMinute

/-- Hour and minute, where the LEDs show one of each. -/
def decode : Option (ℕ × ℕ) :=
  match hourLeds leds, tenLeds leds, unitLeds leds with
  | [hour], [], [unit] => some (hour, unit + if litAt leds 18 then 5 else 0)
  | [hour], [ten], [unit] => some (hour, 10 * ten + (unit + if litAt leds 18 then 5 else 0))
  | _, _, _ => none

/-- The LEDs show an hour below twelve and a minute: its LED alone in the
outer ring, the digits of the minute in the inner ring and the middle, no
other LED. -/
def Shows (hour minute : ℕ) : Prop :=
  hourLeds leds = [hour] ∧
  tenLeds leds = (if minute / 10 = 0 then [] else [minute / 10]) ∧
  unitLeds leds = [if 5 < minute % 10 then minute % 10 - 5 else minute % 10] ∧
  (litAt leds 18 ↔ 5 < minute % 10) ∧
  ∀ k < 6, litAt leds (12 + k) → k ∈ tenLeds leds ++ unitLeds leds

instance (hour minute : ℕ) : Decidable (Shows leds hour minute) :=
  inferInstanceAs (Decidable (_ ∧ _ ∧ _ ∧ _ ∧ _))

end Led

end WeatherTerminal
