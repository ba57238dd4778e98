import WeatherTerminal.Common.Loop
import WeatherTerminal.Common.Transfer
import WeatherTerminal.Led.Model.Strip
/-!
# The LED strip — the buffer of the transfer

The stores by which `RGB_Reflash` and `led_matrix_rst` fill `led_buffer`,
and the encoding they are to leave there: for each LED the 24 bits of its
colour, green first and each colour from its highest bit, a bit being one
half-word, the pulse width of a `1` or of a `0`. A call of the application
is the refreshes it makes.
-/

namespace WeatherTerminal

namespace Led

/-- `sizeof(led_buffer)`: two bytes for each of the twenty-four bits of a LED.
-/
def bufferSize : ℕ := ledNum * 48

/-- The array `tile`: the widths of the pulse for a zero and for a one. -/
def tile : List UInt8 := [2, 7]

/-- An iteration of the inner loop of `RGB_Reflash`: the low bit of each
component, at its place. -/
def bitStores (i j : ℕ) (dat : RGBColor) : List (ℕ × UInt8) :=
  [(14 + i * 48 - 2 * j, tile.getD (dat.G &&& 1).toNat 0), (14 + i * 48 - 2 * j + 1, 0),
    (30 + i * 48 - 2 * j, tile.getD (dat.R &&& 1).toNat 0), (30 + i * 48 - 2 * j + 1, 0),
    (46 + i * 48 - 2 * j, tile.getD (dat.B &&& 1).toNat 0), (46 + i * 48 - 2 * j + 1, 0)]

/-- Its next `n` iterations, from the `j`-th, the components shifted right
behind each. -/
def ledStores (i : ℕ) : ℕ → ℕ → RGBColor → List (ℕ × UInt8)
  | 0, _, _ => []
  | n + 1, j, dat =>
      bitStores i j dat ++ ledStores i n (j + 1) ⟨dat.G >>> 1, dat.R >>> 1, dat.B >>> 1⟩

/-- The outer loop of `RGB_Reflash` on a strip of any length, with its
`uint16_t` counter: the stores it makes. A strip with more LEDs than the
counter has values keeps it going for ever. -/
def stripLoop (leds : List RGBColor) (fuel : ℕ) : Option (List (ℕ × UInt8)) :=
  (loop (fun s : UInt16 × List (ℕ × UInt8) => decide (s.1.toNat < leds.length))
    (fun s => leds[s.1.toNat]?.map fun dat => (s.1 + 1, s.2 ++ ledStores s.1.toNat 8 0 dat))
    fuel (0, [])).map Prod.snd

/-- The stores it makes where it ends (`stripLoop_eq`), those of the LEDs
one after the other. -/
def stripStores (leds : List RGBColor) : List (ℕ × UInt8) :=
  leds.zipIdx.flatMap fun p => ledStores p.2 8 0 p.1

/-- The stores of `RGB_Reflash`, in the order in which they are made. -/
def reflashStores (rgb : RgbData) : List (ℕ × UInt8) := stripStores rgb.leds

/-- The stores of `led_matrix_rst`: the width three for every bit of the
strip. -/
def rstStores : List (ℕ × UInt8) :=
  (List.range (ledNum * 24)).flatMap fun i => [(2 * i, 3), (2 * i + 1, 0)]

/-- The stores of a refresh, in the order in which its call makes them. -/
def Refresh.stores : Refresh → List (ℕ × UInt8)
  | .reflash rgb => reflashStores rgb
  | .rst => rstStores

/-! ## The encoding -/

/-- The pulse width of a bit, two for a zero and seven for a one. -/
def pulse (bit : Bool) : UInt8 := if bit then 7 else 2

/-- The bits of a byte, the highest first, as they are sent. -/
def bits (v : UInt8) : List Bool := (List.range 8).map fun k => v.toNat.testBit (7 - k)

/-- The half-words of a colour, by their low bytes: green, red, blue. -/
def colourPulses (c : RGBColor) : List UInt8 :=
  (bits c.G ++ bits c.R ++ bits c.B).map pulse

/-- The bytes of a strip of any length: each half-word, its low byte first. -/
def stripFrame (leds : List RGBColor) : List UInt8 :=
  (leds.flatMap colourPulses).flatMap fun w => [w, 0]

/-- The half-words of a refresh, by their low bytes, LED by LED. -/
def Refresh.pulses : Refresh → List UInt8
  | .reflash rgb => rgb.leds.flatMap colourPulses
  | .rst => List.replicate (ledNum * 24) 3

/-- The bytes of a refresh: each half-word, its low byte first. -/
def Refresh.frame (r : Refresh) : List UInt8 := r.pulses.flatMap fun w => [w, 0]

/-! ## The calls -/

/-- A call of the one thread that drives the strip. -/
inductive Call
  | setTime (hour minute : ℤ)
  | fill (color : RGBColor)
  | reflash
  | rst
  | setLEDColor (ledId : ℕ) (color : RGBColor)
deriving DecidableEq

/-- What a call does to the strip: colours are set, and frames refreshed. -/
def Call.exec (s : Strip) : Call → Strip
  | .setTime hour minute => ledMatrixSetTime hour minute s
  | .fill color => ledMatrixFill color s
  | .reflash => rgbReflash s
  | .rst => ledMatrixRst s
  | .setLEDColor ledId color => { s with rgb := Led.setLEDColor s.rgb ledId color }

/-- The refreshes of a sequence of calls, in order, from the colours before
them. -/
def refreshes (calls : List Call) (rgb : RgbData) : List Refresh :=
  (calls.foldl Call.exec ⟨rgb, []⟩).refreshes

end Led

end WeatherTerminal
