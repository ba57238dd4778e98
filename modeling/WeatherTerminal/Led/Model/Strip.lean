import Mathlib.Data.Int.Notation
import Mathlib.Tactic.Common
/-!
# The LED strip — colours and refreshes

`RGB_Data` and the functions that fill it: `Set_LEDColor`, `RGB_Reflash`,
`led_matrix_rst`, `led_matrix_fill` and `led_matrix_set_time`. What the
last three do to the buffer of the transfer is in `Led.Model.Dma`; here a
refresh is only written down, with the colours it was called at.
-/

namespace WeatherTerminal

namespace Led

/-- `RGBColor_TypeDef`: the components of a colour, in the order of the bits.
-/
structure RGBColor where
  G : UInt8
  R : UInt8
  B : UInt8
deriving DecidableEq, Repr

/-- `DARK`: the colour of a LED that is off. -/
def dark : RGBColor := ⟨0, 0, 0⟩
/-- `LT_HOUR`: the colour of the hour in the outer ring. -/
def ltHour : RGBColor := ⟨50, 50, 50⟩
/-- `LT_MINUTE_TEN`: the colour of the tens of the minute. -/
def ltMinuteTen : RGBColor := ⟨50, 50, 50⟩
/-- `LT_MINUTE_UNIT`: the colour of the units, and of the LED that adds five
to them. -/
def ltMinuteUnit : RGBColor := ⟨20, 50, 10⟩
/-- `LT_MINUTE`: the colour where tens and units fall on one LED. -/
def ltMinute : RGBColor := ⟨50, 25, 10⟩

/-- `LED_NUM`: the LEDs of the strip, twelve of them in the outer ring. -/
def ledNum : ℕ := 19

/-- `RGB_Data`. A store outside it changes no colour and is remembered. -/
@[ext] structure RgbData where
  leds : List RGBColor
  length_eq : leds.length = ledNum
  /-- Some store fell outside the array. -/
  overrun : Bool
deriving DecidableEq

/-- One colour everywhere, with or without a store outside the strip before.
-/
def RgbData.plain (c : RGBColor) (overrun : Bool) : RgbData where
  leds := List.replicate ledNum c
  length_eq := List.length_replicate
  overrun := overrun

/-- `Set_LEDColor`: a LED of the strip has the colour, or there is a store
outside it. -/
def setLEDColor (rgb : RgbData) (ledId : ℕ) (color : RGBColor) : RgbData where
  leds := rgb.leds.set ledId color
  length_eq := by rw [List.length_set, rgb.length_eq]
  overrun := rgb.overrun || decide (ledNum ≤ ledId)

/-- The conversion of an `int` argument to the `uint16_t` of `Set_LEDColor`. -/
def uint16 (x : ℤ) : ℕ := (x % 65536).toNat

/-- A call that rewrites the buffer of the transfer and starts it. -/
inductive Refresh
  /-- `RGB_Reflash`, with `RGB_Data` as it stands. -/
  | reflash (rgb : RgbData)
  /-- `led_matrix_rst`. -/
  | rst
deriving DecidableEq

/-- The colours that are set, and the refreshes so far. -/
structure Strip where
  rgb : RgbData
  refreshes : List Refresh
deriving DecidableEq

/-- `RGB_Reflash`: one more refresh, with the colours as they are. -/
def rgbReflash (s : Strip) : Strip :=
  { s with refreshes := s.refreshes ++ [.reflash s.rgb] }

/-- `led_matrix_rst`: one more refresh, with the width of a reset for every
bit. -/
def ledMatrixRst (s : Strip) : Strip :=
  { s with refreshes := s.refreshes ++ [.rst] }

/-- The loop of `led_matrix_fill`, which sets every LED to a colour. -/
def fillLeds (color : RGBColor) (rgb : RgbData) : RgbData :=
  (List.range ledNum).foldl (fun rgb i => setLEDColor rgb i color)
    (RgbData.plain dark rgb.overrun)

/-- `led_matrix_fill`: every LED in one colour, and a refresh. -/
def ledMatrixFill (color : RGBColor) (s : Strip) : Strip :=
  rgbReflash { s with rgb := fillLeds color s.rgb }

/-- What `led_matrix_set_time` lights, between its two refreshes: the hour and
the minute. -/
def lightTime (hour minute : ℤ) (rgb : RgbData) : RgbData :=
  let rgb := if hour = 12 then setLEDColor rgb 0 ltHour
    else setLEDColor rgb (uint16 hour) ltHour
  let ten := minute.tdiv 10
  let unit := minute.tmod 10
  let rgb := if ten ≠ 0 then setLEDColor rgb (uint16 (ten + 12)) ltMinuteTen else rgb
  let (unit, rgb) := if unit > 5 then (unit - 5, setLEDColor rgb 18 ltMinuteUnit)
    else (unit, rgb)
  if ten = unit ∧ ten ≠ 0 then setLEDColor rgb (uint16 (ten + 12)) ltMinute
  else setLEDColor rgb (uint16 (unit + 12)) ltMinuteUnit

/-- `led_matrix_set_time`: a dark strip, then the time, with a refresh behind
each. -/
def ledMatrixSetTime (hour minute : ℤ) (s : Strip) : Strip :=
  let s := ledMatrixFill dark s
  rgbReflash { s with rgb := lightTime hour minute s.rgb }

/-! ## The fill -/

/-- The first LEDs have been set behind as many rounds of the loop, by
induction over them. -/
theorem fill_upto (color : RGBColor) (rgb : RgbData) {n : ℕ} (hn : n ≤ ledNum) :
    let filled := (List.range n).foldl (fun rgb i => setLEDColor rgb i color) rgb
    filled.leds = List.replicate n color ++ rgb.leds.drop n ∧ filled.overrun = rgb.overrun := by
  induction n with
  | zero => exact ⟨rfl, rfl⟩
  | succ n ih =>
      obtain ⟨hleds, hover⟩ := ih (by omega)
      have hlt : n < rgb.leds.length := by rw [rgb.length_eq]; omega
      rw [List.range_succ, List.foldl_append]
      refine ⟨?_, ?_⟩
      · show List.set _ n color = _
        rw [hleds, List.set_append_right _ _ (by simp), List.length_replicate, Nat.sub_self,
          List.drop_eq_getElem_cons hlt, List.set_cons_zero, List.replicate_succ',
          List.append_assoc]
        rfl
      · show (_ || decide (ledNum ≤ n)) = _
        rw [hover, decide_eq_false (by omega), Bool.or_false]

/-- `led_matrix_fill` sets every colour, whatever was there, and stores
nothing outside. -/
theorem fillLeds_eq (color : RGBColor) (rgb : RgbData) :
    fillLeds color rgb = RgbData.plain color rgb.overrun := by
  obtain ⟨hleds, hover⟩ := fill_upto color (RgbData.plain dark rgb.overrun) (Nat.le_refl ledNum)
  exact RgbData.ext hleds hover

end Led

end WeatherTerminal
