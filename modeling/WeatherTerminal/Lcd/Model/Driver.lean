import Mathlib.Algebra.Group.Int.Defs
import Mathlib.Algebra.Group.Nat.Defs
import WeatherTerminal.Lcd.Model.St7789
/-!
# The display driver

The functions of the driver as the stores they make, in order. The fonts
are parameters: their tables are read at the places the source reads them
and only select between the two colours.
-/

namespace WeatherTerminal

namespace Lcd

/-- `_lcd_dev`: the size of the panel, its controller and the commands that it
takes. -/
structure LcdDev where
  width : ℕ
  height : ℕ
  id : UInt16
  wramcmd : UInt16
  setxcmd : UInt16
  setycmd : UInt16
deriving DecidableEq, Repr

/-- `lcddev` behind `drv_lcd_init`, on a panel with an ST7789. -/
def lcddev : LcdDev where
  width := 240
  height := 240
  id := 0x81b3
  wramcmd := 0x2C
  setxcmd := 0x2A
  setycmd := 0x2B

/-- `LCD_W` and `LCD_H`, by which the driver checks its coordinates. -/
def lcdW : ℕ := 240
def lcdH : ℕ := 240

/-- `LCD_CLEAR_SEND_NUMBER`: the bytes of the longest buffer of a fill. -/
def lcdClearSendNumber : ℕ := 5760

/-- `BLUE`: the colour of the points of `lcd_draw_point`. -/
def blue : UInt16 := 0x001F
/-- `RED`: the colour a text clears the panel with. -/
def red : UInt16 := 0xF800

/-! ## Single stores -/

/-- `LCD_WR_REG`: a store to the register of the commands. -/
def lcdWrReg (regval : UInt16) : Write := .reg regval.toUInt8

/-- `LCD_WR_DATA16`: a store of sixteen bits to the data register. -/
def lcdWrData16 (data : UInt16) : Write := .ram16 data

/-- `LCD_WR_DATA8`: a store of eight bits to the data register. -/
def lcdWrData8 (data : UInt16) : Write := .ram8 data.toUInt8

/-- `LCD_WriteRAM_Prepare`: the command behind which pixels follow. -/
def lcdWriteRamPrepare : List Write := [.reg lcddev.wramcmd.toUInt8]

/-- `change_byte_order`: the two bytes of a word the other way round. -/
def changeByteOrder (word : UInt16) : UInt16 :=
  ((word <<< 8) &&& (0xff00 : UInt16)) ||| ((word >>> 8) &&& (0x00ff : UInt16))

/-- `lcd_write_half_word`: a pixel, in the byte order of the bus. -/
def lcdWriteHalfWord (da : UInt16) : List Write := [lcdWrData16 (changeByteOrder da)]

/-- `lcd_write_data_buffer`: the bytes of a buffer one after the other. -/
def lcdWriteDataBuffer (buf : List UInt8) : List Write := buf.map .ram8

/-- The two bytes of a colour, as the driver's buffers hold it. -/
def colourBytes (color : UInt16) : List UInt8 := [(color >>> 8).toUInt8, color.toUInt8]

/-! ## Where to draw -/

/-- `LCD_SetCursor`: a place, for a controller with the id 8552 and for no
other. -/
def lcdSetCursor (xpos ypos : UInt16) : List Write :=
  if lcddev.id = 8552 then
    [lcdWrReg lcddev.setxcmd, lcdWrData16 (xpos >>> 8), lcdWrData16 (xpos &&& 0xFF),
      lcdWrReg lcddev.setycmd, lcdWrData16 (ypos >>> 8), lcdWrData16 (ypos &&& 0xFF)]
  else []

/-- `lcd_address_set`: the columns and the rows of a window, and the command
for its pixels. -/
def lcdAddressSet (x1 y1 x2 y2 : UInt16) : List Write :=
  (if lcddev.id = 0x81b3 then
    [lcdWrReg lcddev.setxcmd, lcdWrData8 (x1 >>> 8), lcdWrData8 (x1 &&& 0xff),
      lcdWrData8 (x2 >>> 8), lcdWrData8 (x2 &&& 0xff),
      lcdWrReg lcddev.setycmd, lcdWrData8 (y1 >>> 8), lcdWrData8 (y1 &&& 0xff),
      lcdWrData8 (y2 >>> 8), lcdWrData8 (y2 &&& 0xff)]
  else []) ++ lcdWriteRamPrepare

/-! ## Drawing -/

/-- `lcd_clear`: a pixel of the colour for each of the panel, from the cursor
on. -/
def lcdClear (color : UInt16) : List Write :=
  lcdSetCursor 0 0 ++ lcdWriteRamPrepare ++
    List.replicate (lcddev.width * lcddev.height) (.ram16 color)

/-- `lcd_draw_point`: a window of one pixel, and its colour. -/
def lcdDrawPoint (x y : UInt16) : List Write := lcdAddressSet x y x y ++ lcdWriteHalfWord blue

/-- `lcd_fill_array`, the `k`-th colour at `pcolor` being `pixel k`, row by
row. -/
def lcdFillArray (xStart yStart xEnd yEnd : UInt16) (pixel : ℕ → UInt16) : List Write :=
  let columns := xEnd.toNat + 1 - xStart.toNat
  lcdAddressSet xStart yStart xEnd yEnd ++
    (List.range (yEnd.toNat + 1 - yStart.toNat)).flatMap fun row =>
      (List.range columns).flatMap fun column =>
        (colourBytes (pixel (row * columns + column))).map .ram8

/-- The loop of `lcd_fill` that sends the buffer, until what remains is less
than it. -/
def fillLoop (color : UInt16) (size sizeRemain : ℕ) : List Write :=
  lcdWriteDataBuffer ((List.replicate (size / 2) (colourBytes color)).flatten) ++
    if sizeRemain = 0 then []
    else if sizeRemain > lcdClearSendNumber then
      fillLoop color size (sizeRemain - lcdClearSendNumber)
    else fillLoop color sizeRemain 0
termination_by sizeRemain
decreasing_by
  all_goals
    unfold lcdClearSendNumber at *
    omega

/-- The bytes `lcd_fill` counts for an area, in an `rt_uint32_t`. -/
def fillBytes (xStart yStart xEnd yEnd : UInt16) : ℕ :=
  (((xEnd.toNat : ℤ) - xStart.toNat) * ((yEnd.toNat : ℤ) - yStart.toNat) * 2 % 2 ^ 32).toNat

/-- `lcd_fill`, with whether its buffer is granted: by the buffer, or pixel by
pixel without. -/
def lcdFill (xStart yStart xEnd yEnd color : UInt16) (granted : Bool) : List Write :=
  let size := fillBytes xStart yStart xEnd yEnd
  let (size, sizeRemain) := if size > lcdClearSendNumber
    then (lcdClearSendNumber, size - lcdClearSendNumber) else (size, 0)
  lcdAddressSet xStart yStart xEnd yEnd ++
    if granted then fillLoop color size sizeRemain
    else (List.range (yEnd.toNat + 1 - yStart.toNat)).flatMap fun _ =>
      (List.range (xEnd.toNat + 1 - xStart.toNat)).flatMap fun _ => lcdWriteHalfWord color

/-- `rt_malloc`, with whether the heap has room. It never grants an empty
block. -/
def rtMalloc (size : ℕ) (room : Bool) : Bool := decide (size ≠ 0) && room

/-- `lcd_fill` with its buffer from the heap, which has none of no bytes. -/
def lcdFillHeap (xStart yStart xEnd yEnd color : UInt16) (room : Bool) : List Write :=
  lcdFill xStart yStart xEnd yEnd color
    (rtMalloc (min (fillBytes xStart yStart xEnd yEnd) lcdClearSendNumber) room)

/-! ## Text -/

/-- `FORE_COLOR` and `BACK_COLOR`, as they are set when a character is shown.
-/
structure Colours where
  fore : UInt16
  back : UInt16
deriving DecidableEq, Repr

/-- The colours of the `n` highest bits of a font byte. -/
def byteColours (cs : Colours) : ℕ → UInt8 → List UInt16
  | 0, _ => []
  | n + 1, temp =>
      (if temp &&& 0x80 ≠ 0 then cs.fore else cs.back) :: byteColours cs n (temp <<< 1)

/-- The colours of a character, row by row. The rows of the 24-point font
are twelve bits in two bytes. -/
def charColours (font : ℕ → UInt8) (cs : Colours) (size : ℕ) (data : UInt8) : List UInt16 :=
  if size = 24 then
    (List.range (size * 16 / 8)).flatMap fun pos =>
      byteColours cs (if pos % 2 = 0 then 8 else 4) (font (data.toNat * (size * 16) / 8 + pos))
  else
    (List.range (size * (size / 2) / 8)).flatMap fun pos =>
      byteColours cs 8 (font (data.toNat * size * (size / 2) / 8 + pos))

/-- `lcd_show_char`, with whether its buffer is granted. The buffer is
filled with the bytes of the colours in order, and sent whole. -/
def lcdShowChar (fonts : ℕ → ℕ → UInt8) (cs : Colours) (x y : ℕ) (data : UInt8) (size : ℕ)
    (granted : Bool) : List Write :=
  if x > lcdW - size / 2 ∨ y > lcdH - size then []
  else if size = 16 ∨ size = 24 ∨ size = 32 then
    let colours := charColours (fonts size) cs size (data - 0x20)
    lcdAddressSet (UInt16.ofNat x) (UInt16.ofNat y) (UInt16.ofNat (x + size / 2 - 1))
        (UInt16.ofNat (y + size - 1)) ++
      if granted then lcdWriteDataBuffer (colours.flatMap colourBytes)
      else colours.flatMap lcdWriteHalfWord
  else []

/-- The loop of `lcd_show_string`, over the characters with whether the
buffer of each is granted. -/
def showChars (fonts : ℕ → ℕ → UInt8) (cs : Colours) (size : ℕ) :
    ℕ → ℕ → List (UInt8 × Bool) → List Write
  | _, _, [] => []
  | x, y, (p, granted) :: text =>
      let (x, y) := if x > lcdW - size / 2 then (0, y + size) else (x, y)
      let (x, y, cleared) := if y > lcdH - size then (0, 0, lcdClear red) else (x, y, [])
      cleared ++ lcdShowChar fonts cs x y p size granted ++
        showChars fonts cs size (x + size / 2) y text

/-- `lcd_show_string` on the text `rt_vsnprintf` made, each character with its
allocation. -/
def lcdShowString (fonts : ℕ → ℕ → UInt8) (cs : Colours) (x y : UInt16) (size : ℕ)
    (text : List (UInt8 × Bool)) : List Write :=
  if size ≠ 16 ∧ size ≠ 24 ∧ size ≠ 32 then []
  else showChars fonts cs size x.toNat y.toNat text

/-! ## The calls -/

/-- A call of the application that writes to the panel. -/
inductive Call
  | addressSet (x1 y1 x2 y2 : UInt16)
  | fillArray (xStart yStart xEnd yEnd : UInt16) (pixel : ℕ → UInt16)
  | drawPoint (x y : UInt16)
  | fill (xStart yStart xEnd yEnd color : UInt16) (granted : Bool)
  | showString (cs : Colours) (x y : UInt16) (size : ℕ) (text : List (UInt8 × Bool))
  | clear (color : UInt16)

/-- What a call stores to the two registers. -/
def Call.writes (fonts : ℕ → ℕ → UInt8) : Call → List Write
  | .addressSet x1 y1 x2 y2 => lcdAddressSet x1 y1 x2 y2
  | .fillArray xStart yStart xEnd yEnd pixel => lcdFillArray xStart yStart xEnd yEnd pixel
  | .drawPoint x y => lcdDrawPoint x y
  | .fill xStart yStart xEnd yEnd color granted => lcdFill xStart yStart xEnd yEnd color granted
  | .showString cs x y size text => lcdShowString fonts cs x y size text
  | .clear color => lcdClear color

/-- A place on the panel: its column and its row are. -/
def OnPanel (x y : UInt16) : Prop := x.toNat < lcddev.width ∧ y.toNat < lcddev.height

/-- The coordinates of a call are on the panel, as the driver's callers keep
them. -/
def Call.InPanel : Call → Prop
  | .addressSet x1 y1 x2 y2 => OnPanel x1 y1 ∧ OnPanel x2 y2
  | .fillArray xStart yStart xEnd yEnd _ => OnPanel xStart yStart ∧ OnPanel xEnd yEnd
  | .drawPoint x y => OnPanel x y
  | .fill xStart yStart xEnd yEnd _ _ => OnPanel xStart yStart ∧ OnPanel xEnd yEnd
  | .showString _ x y _ _ => OnPanel x y
  | .clear _ => True

/-! ## The graphic operations -/

/-- The conversion of an `int` to `uint16_t`, modulo 65536. -/
def uint16 (x : ℤ) : UInt16 := UInt16.ofInt x

/-- `LCD_Fast_DrawPoint`: the window of a point by 16-bit stores, and the
colour. -/
def lcdFastDrawPoint (color : UInt16) (x y : ℤ) : List Write :=
  (if lcddev.id = 0x81b3 then
    [lcdWrReg lcddev.setxcmd, lcdWrData16 (uint16 (x / 256)), lcdWrData16 (uint16 (x % 256)),
      lcdWrReg lcddev.setycmd, lcdWrData16 (uint16 (y / 256)), lcdWrData16 (uint16 (y % 256))]
  else []) ++ [.reg lcddev.wramcmd.toUInt8, .ram16 color]

/-- The direction of a difference, and its size, as `LCD_DrawLine` makes them.
-/
def direction (delta : ℤ) : ℤ × ℤ :=
  if delta > 0 then (1, delta) else if delta = 0 then (0, delta) else (-1, -delta)

/-- The next `n` points of `LCD_DrawLine`, from where the variables are. -/
def drawLineFrom (color : UInt16) (deltaX deltaY incx incy distance : ℤ) :
    ℕ → (uRow uCol xerr yerr : ℤ) → List Write
  | 0, _, _, _, _ => []
  | n + 1, uRow, uCol, xerr, yerr =>
      let xerr := xerr + deltaX
      let yerr := yerr + deltaY
      let (xerr, nextRow) := if xerr > distance then (xerr - distance, uRow + incx) else (xerr, uRow)
      let (yerr, nextCol) := if yerr > distance then (yerr - distance, uCol + incy) else (yerr, uCol)
      lcdFastDrawPoint color uRow uCol ++
        drawLineFrom color deltaX deltaY incx incy distance n nextRow nextCol xerr yerr

/-- `LCD_DrawLine`: the points of the line from one end to the other. -/
def lcdDrawLine (color : UInt16) (x1 y1 x2 y2 : UInt16) : List Write :=
  let (incx, deltaX) := direction ((x2.toNat : ℤ) - x1.toNat)
  let (incy, deltaY) := direction ((y2.toNat : ℤ) - y1.toNat)
  let distance := if deltaX > deltaY then deltaX else deltaY
  -- `t` counts from 0 to `distance + 1`
  drawLineFrom color deltaX deltaY incx incy distance (distance + 2).toNat x1.toNat y1.toNat 0 0

/-- `LCD_HLine`: the line between two columns of a row. -/
def lcdHLine (color : UInt16) (x1 x2 y : ℤ) : List Write :=
  lcdDrawLine color (uint16 x1) (uint16 y) (uint16 x2) (uint16 y)

/-- `LCD_VLine`: the line between two rows of a column. -/
def lcdVLine (color : UInt16) (x y1 y2 : ℤ) : List Write :=
  lcdDrawLine color (uint16 x) (uint16 y1) (uint16 x) (uint16 y2)

/-- `LCD_BlitLine`: a row of pixels, from the cursor on. -/
def lcdBlitLine (pixels : List UInt16) (x y : ℤ) : List Write :=
  lcdSetCursor (uint16 x) (uint16 y) ++ lcdWriteRamPrepare ++ pixels.map .ram16

end Lcd

end WeatherTerminal
