import WeatherTerminal.Common.Loop
import WeatherTerminal.Lcd.Model.Driver
/-!
# Flushing an area of the screen

`disp_flush` hands an area of the screen and the pixels drawn for it to
`lcd_fill_array`, here with its two loops, their 16-bit counters and the
pointer into the pixels.
-/

namespace WeatherTerminal

namespace Lcd

/-- The stores made so far, and the pixel `pixel` points to. -/
structure Sent where
  writes : List Write
  pixel : ℕ

/-- The pixel pointed to, high byte first, and the pointer one pixel on. -/
def Sent.send (pcolor : ℕ → UInt16) (s : Sent) : Sent where
  writes := s.writes ++ [.ram8 (pcolor s.pixel >>> 8).toUInt8, .ram8 (pcolor s.pixel).toUInt8]
  pixel := s.pixel + 1

/-- The loop of `lcd_fill_array` over `x_offset`, whose counter has sixteen
bits. -/
def fillArrayRow (fuel : ℕ) (xStart xEnd : UInt16) (pcolor : ℕ → UInt16) (s : Sent) :
    Option Sent :=
  (loop (fun s => decide (xStart.toNat + s.2.toNat ≤ xEnd.toNat))
    (fun s => some (s.1.send pcolor, s.2 + 1)) fuel (s, (0 : UInt16))).map Prod.fst

/-- `lcd_fill_array` with its two loops, the outer one being over `cycle_y`.
-/
def fillArrayLoops (fuel : ℕ) (xStart yStart xEnd yEnd : UInt16) (pcolor : ℕ → UInt16) :
    Option Sent :=
  (loop (fun s => decide (s.2 ≤ yEnd))
    (fun s => (fillArrayRow fuel xStart xEnd pcolor s.1).map fun sent => (sent, s.2 + 1)) fuel
    (⟨lcdAddressSet xStart yStart xEnd yEnd, 0⟩, yStart)).map Prod.fst

/-- `lv_area_t`: the corners of an area, which belong to it. -/
structure Area where
  x1 : ℤ
  y1 : ℤ
  x2 : ℤ
  y2 : ℤ
deriving DecidableEq, Repr

/-- `disp_flush`, the `k`-th pixel at `color_p` being `colorP k`, up to
`lv_disp_flush_ready`. -/
def dispFlush (fuel : ℕ) (area : Area) (colorP : ℕ → UInt16) : Option Sent :=
  fillArrayLoops fuel (uint16 area.x1) (uint16 area.y1) (uint16 area.x2) (uint16 area.y2) colorP

namespace Area

/-- What LVGL flushes is on the screen, and has at least a pixel. -/
def OnScreen (a : Area) : Prop :=
  (0 ≤ a.x1 ∧ a.x1 ≤ a.x2 ∧ a.x2 < lcddev.width) ∧ 0 ≤ a.y1 ∧ a.y1 ≤ a.y2 ∧ a.y2 < lcddev.height

instance (a : Area) : Decidable a.OnScreen :=
  inferInstanceAs (Decidable ((_ ∧ _ ∧ _) ∧ _ ∧ _ ∧ _))

/-- The area has the pixel of the column `x` and the row `y`. -/
def Covers (a : Area) (x y : ℕ) : Prop := (a.x1 ≤ x ∧ x ≤ a.x2) ∧ a.y1 ≤ y ∧ y ≤ a.y2

instance (a : Area) (x y : ℕ) : Decidable (a.Covers x y) :=
  inferInstanceAs (Decidable ((_ ∧ _) ∧ _ ∧ _))

/-- How many columns an area has, which is how far its rows are apart in the
buffer. -/
def columns (a : Area) : ℕ := (a.x2 - a.x1 + 1).toNat

/-- The pixels of an area, in all its rows. -/
def size (a : Area) : ℕ := ((a.x2 - a.x1 + 1) * (a.y2 - a.y1 + 1)).toNat

/-- The place of a pixel in the buffer of its area. -/
def offset (a : Area) (x y : ℕ) : ℕ := ((y - a.y1) * (a.x2 - a.x1 + 1) + (x - a.x1)).toNat

/-- The buffer of an area of a screen drawn before it is flushed. -/
def buffer (a : Area) (screen : ℕ → ℕ → UInt16) (k : ℕ) : UInt16 :=
  screen (a.x1.toNat + k % a.columns) (a.y1.toNat + k / a.columns)

/-- The whole screen, as one area. -/
def screen : Area := ⟨0, 0, lcddev.width - 1, lcddev.height - 1⟩

end Area

/-- Areas of the screen flushed one after the other, each from a buffer of its
own pixels. -/
def flushes (fuel : ℕ) (screen : ℕ → ℕ → UInt16) : List Area → Option (List Write)
  | [] => some []
  | a :: areas =>
      (dispFlush fuel a (a.buffer screen)).bind fun sent =>
        (flushes fuel screen areas).map fun ws => sent.writes ++ ws

/-- Areas that make up the screen: each on it, no two with a pixel in common,
and none left out. -/
structure Partition (areas : List Area) : Prop where
  onScreen : ∀ a ∈ areas, a.OnScreen
  disjoint : areas.Pairwise fun a b => ∀ x y, ¬(a.Covers x y ∧ b.Covers x y)
  covers : ∀ x < lcddev.width, ∀ y < lcddev.height, ∃ a ∈ areas, a.Covers x y

end Lcd

end WeatherTerminal
