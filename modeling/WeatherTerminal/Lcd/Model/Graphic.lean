import WeatherTerminal.Lcd.Model.Driver
/-!
# The graphic operations

The write operations of `fsmc_lcd_ops`, and beside them what each is to
draw: the pixels it sets on a frame of the panel's size.
-/

namespace WeatherTerminal

namespace Lcd

/-- A write operation of `fsmc_lcd_ops`, or a `lcd_fill_array` of the
application. -/
inductive Op
  | drawPoint (color : UInt16) (x y : ℕ)
  | hLine (color : UInt16) (x1 x2 y : ℕ)
  | vLine (color : UInt16) (x y1 y2 : ℕ)
  | blitLine (pixels : List UInt16) (x y : ℕ)
  | fillArray (xStart yStart xEnd yEnd : UInt16) (pixel : ℕ → UInt16)

namespace Op

/-- What an operation stores to the registers of the panel. -/
def writes : Op → List Write
  | drawPoint color x y => lcdFastDrawPoint color x y
  | hLine color x1 x2 y => lcdHLine color x1 x2 y
  | vLine color x y1 y2 => lcdVLine color x y1 y2
  | blitLine pixels x y => lcdBlitLine pixels x y
  | fillArray xStart yStart xEnd yEnd pixel => lcdFillArray xStart yStart xEnd yEnd pixel

/-- Its arguments are on the panel, and the corners of an array in order. -/
def InPanel : Op → Prop
  | drawPoint _ x y => x < lcddev.width ∧ y < lcddev.height
  | hLine _ x1 x2 y => (x1 < lcddev.width ∧ x2 < lcddev.width) ∧ y < lcddev.height
  | vLine _ x y1 y2 => x < lcddev.width ∧ y1 < lcddev.height ∧ y2 < lcddev.height
  | blitLine pixels x y => x + pixels.length ≤ lcddev.width ∧ y < lcddev.height
  | fillArray xStart yStart xEnd yEnd _ =>
      OnPanel xEnd yEnd ∧ xStart ≤ xEnd ∧ yStart ≤ yEnd

/-- What it is to set a pixel to, `none` for a pixel that it is to leave. -/
def sets : Op → ℕ → ℕ → Option UInt16
  | drawPoint color x y, a, b => if a = x ∧ b = y then some color else none
  | hLine color x1 x2 y, a, b =>
      if (min x1 x2 ≤ a ∧ a ≤ max x1 x2) ∧ b = y then some color else none
  | vLine color x y1 y2, a, b =>
      if a = x ∧ min y1 y2 ≤ b ∧ b ≤ max y1 y2 then some color else none
  | blitLine pixels x y, a, b => if x ≤ a ∧ b = y then pixels[a - x]? else none
  | fillArray xStart yStart xEnd yEnd pixel, a, b =>
      let w : Window := ⟨xStart.toNat, xEnd.toNat, yStart.toNat, yEnd.toNat⟩
      if w.Has a b then some (pixel (w.index a b)) else none

/-- It on an ideal frame: the pixels it sets, and the others as they were. -/
def draw (frame : ℕ → ℕ → UInt16) (op : Op) (a b : ℕ) : UInt16 := (op.sets a b).getD (frame a b)

end Op

/-- The panel shows a frame, in each of its pixels. -/
def Shows (s : St7789) (frame : ℕ → ℕ → UInt16) : Prop :=
  ∀ a < lcddev.width, ∀ b < lcddev.height, s.mem a b = frame a b

end Lcd

end WeatherTerminal
