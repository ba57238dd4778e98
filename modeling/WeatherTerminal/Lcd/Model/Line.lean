import WeatherTerminal.Common.Loop
import WeatherTerminal.Lcd.Model.Driver
/-!
# The stepping loop

`LCD_DrawLine` and `lcd_draw_line` step through the points of a line with
one loop, written out twice. It is kept apart here from what each of them
does at a point.
-/

namespace WeatherTerminal

namespace Lcd

/-- The variables of the loop, and the points handed over so far. -/
structure Tracing where
  points : List (ℤ × ℤ)
  t : UInt16
  uRow : ℤ
  uCol : ℤ
  xerr : ℤ
  yerr : ℤ

/-- The error and the coordinate behind a round, on one axis. -/
def advance (inc delta distance err place : ℤ) : ℤ × ℤ :=
  let err := err + delta
  if err > distance then (err - distance, place + inc) else (err, place)

/-- A round: the point where the variables are, and the variables behind it.
-/
def traceRound (incx incy deltaX deltaY distance : ℤ) (s : Tracing) : Tracing :=
  let (xerr, uRow) := advance incx deltaX distance s.xerr s.uRow
  let (yerr, uCol) := advance incy deltaY distance s.yerr s.uCol
  ⟨s.points ++ [(s.uRow, s.uCol)], s.t + 1, uRow, uCol, xerr, yerr⟩

/-- The points a line is drawn with, in order, `none` where the loop does not
end within the fuel. -/
def linePoints (fuel : ℕ) (x1 y1 x2 y2 : UInt16) : Option (List (ℤ × ℤ)) :=
  let (incx, deltaX) := direction ((x2.toNat : ℤ) - x1.toNat)
  let (incy, deltaY) := direction ((y2.toNat : ℤ) - y1.toNat)
  let distance := if deltaX > deltaY then deltaX else deltaY
  (loop (fun s => decide ((s.t.toNat : ℤ) ≤ distance + 1))
    (fun s => some (traceRound incx incy deltaX deltaY distance s)) fuel
    ⟨[], 0, x1.toNat, y1.toNat, 0, 0⟩).map Tracing.points

/-! ## `lcd_draw_line` -/

/-- The length of `line_buf`: two bytes for each column of the panel. -/
def lineBufSize : ℕ := 480

/-- The loop over `line_buf`, `none` where a store leaves it. -/
def fillLineBuf (color : UInt16) : ℕ → ℕ → List UInt8 → Option (List UInt8)
  | 0, _, buf => some buf
  | n + 1, i, buf =>
      if 2 * i + 1 < buf.length then
        fillLineBuf color n (i + 1)
          ((buf.set (2 * i) (color >>> 8).toUInt8).set (2 * i + 1) color.toUInt8)
      else none

/-- `x2 - x1` as the `rt_uint32_t` it is compared with. -/
def lineCount (x1 x2 : UInt16) : ℕ := (((x2.toNat : ℤ) - x1.toNat) % 2 ^ 32).toNat

/-- The fast path of `lcd_draw_line`, `none` where it leaves `line_buf`. -/
def drawTransverseLine (foreColor x1 y1 x2 y2 : UInt16) : Option (List Write) :=
  (fillLineBuf foreColor (lineCount x1 x2) 0 (List.replicate lineBufSize 0)).bind fun lineBuf =>
    let length := lineCount x1 x2 * 2
    if length ≤ lineBufSize then
      some (lcdAddressSet x1 y1 x2 y2 ++ lcdWriteDataBuffer (lineBuf.take length))
    else none

/-- `lcd_draw_point`, but for the colour, which is a parameter here. -/
def drawPointIn (color : UInt16) (x y : UInt16) : List Write :=
  lcdAddressSet x y x y ++ lcdWriteHalfWord color

/-- The stepping loop of `lcd_draw_line` with points of a colour. -/
def stepLine (color : UInt16) (fuel : ℕ) (x1 y1 x2 y2 : UInt16) : Option (List Write) :=
  (linePoints fuel x1 y1 x2 y2).map fun ps =>
    ps.flatMap fun p => drawPointIn color (uint16 p.1) (uint16 p.2)

namespace Drv

/-- `lcd_draw_line`, not to be taken for `LCD_DrawLine`: the fast path in a
row, and point by point else. -/
def lcdDrawLine (foreColor : UInt16) (fuel : ℕ) (x1 y1 x2 y2 : UInt16) : Option (List Write) :=
  if y1 = y2 then drawTransverseLine foreColor x1 y1 x2 y2
  else stepLine blue fuel x1 y1 x2 y2

end Drv

end Lcd

end WeatherTerminal
