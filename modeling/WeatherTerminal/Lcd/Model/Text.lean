import WeatherTerminal.Lcd.Model.Driver
/-!
# Where a text goes

The characters of `lcd_show_string` with the places its loop gives them,
and the bytes of the font tables that `lcd_show_char` reads.
-/

namespace WeatherTerminal

namespace Lcd

/-- A character handed to `lcd_show_char`: where, with whether its buffer is
granted, and whether the text went back to the top for it. -/
structure Glyph where
  x : ℕ
  y : ℕ
  data : UInt8
  granted : Bool
  top : Bool
deriving DecidableEq, Repr

/-- The two wraps of the loop of `lcd_show_string`, and whether the second
is taken. -/
def wrap (size x y : ℕ) : ℕ × ℕ × Bool :=
  let (x, y) := if x > lcdW - size / 2 then (0, y + size) else (x, y)
  if y > lcdH - size then (0, 0, true) else (x, y, false)

/-- The places that loop goes through, with what each character is shown with.
-/
def layout (size : ℕ) : ℕ → ℕ → List (UInt8 × Bool) → List Glyph
  | _, _, [] => []
  | x, y, (p, granted) :: text =>
      let (x, y, top) := wrap size x y
      ⟨x, y, p, granted, top⟩ :: layout size (x + size / 2) y text

/-- What the loop does at one: a clear where the text is back at the top, and
the character. -/
def Glyph.writes (fonts : ℕ → ℕ → UInt8) (cs : Colours) (size : ℕ) (g : Glyph) : List Write :=
  (if g.top then lcdClear red else []) ++ lcdShowChar fonts cs g.x g.y g.data size g.granted

/-- The bytes of a table that are read for a character. -/
def fontReads (size : ℕ) (data : UInt8) : List ℕ :=
  if size = 24 then (List.range (size * 16 / 8)).map (data.toNat * (size * 16) / 8 + ·)
  else (List.range (size * (size / 2) / 8)).map (data.toNat * size * (size / 2) / 8 + ·)

/-- The glyphs of `drv_lcd_font.h`, from the space to the closing brace. -/
def fontGlyphs : ℕ := 94

/-- The bytes of `asc2_1608`, `asc2_2412` and `asc2_3216`, which have the same
characters. -/
def fontTableSize (size : ℕ) : ℕ :=
  if size = 16 then fontGlyphs * 16
  else if size = 24 then fontGlyphs * 48
  else if size = 32 then fontGlyphs * 64
  else 0

end Lcd

end WeatherTerminal
