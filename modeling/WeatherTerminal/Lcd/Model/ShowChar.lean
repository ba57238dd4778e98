import WeatherTerminal.Common.Loop
import WeatherTerminal.Common.Transfer
import WeatherTerminal.Lcd.Model.Text
/-!
# Drawing a character

`lcd_show_char` with its loops: for each size one that sends the pixels as
it comes to them and one that stores their bytes in `font_buf`. The six are
one loop over the bytes of a glyph around one over the bits of a byte, with
what each size puts into them.
-/

namespace WeatherTerminal

namespace Lcd

/-- The tables of `drv_lcd_font.h`, one for each of the three sizes. -/
structure Fonts where
  asc2_1608 : Vector UInt8 (fontTableSize 16)
  asc2_2412 : Vector UInt8 (fontTableSize 24)
  asc2_3216 : Vector UInt8 (fontTableSize 32)

/-! ## The loops -/

/-- The variables of the loop over `t`, and what was done in it. -/
structure Shifting (α : Type) where
  t : UInt8
  temp : UInt8
  done : List α

variable {α : Type}

/-- A round, with what is done to a pixel of the high bit, and the byte
shifted left. -/
def shiftRound (cs : Colours) (act : UInt8 → UInt16 → List α) (s : Shifting α) : Shifting α :=
  let colortemp := if s.temp &&& 0x80 ≠ 0 then cs.fore else cs.back
  ⟨s.t + 1, s.temp <<< 1, s.done ++ act s.t colortemp⟩

/-- The loop over `t`, whose counter has eight bits, from a byte of the glyph.
-/
def shiftLoop (fuel : ℕ) (cs : Colours) (num : UInt8) (act : UInt8 → UInt16 → List α)
    (temp : UInt8) (done : List α) : Option (List α) :=
  (loop (fun s => decide (s.t < num)) (fun s => some (shiftRound cs act s)) fuel
    ⟨0, temp, done⟩).map Shifting.done

/-- What a size puts into the loops: its table, where the glyph starts there
and how many bytes it has, how many bits of a byte are drawn, and the pixel
in `font_buf` of a bit. -/
structure Branch where
  table : List UInt8
  start : UInt32
  count : UInt32
  num : UInt8 → UInt8
  index : UInt8 → UInt8 → ℕ

/-- The loop over `pos`, `none` where a read leaves the table. -/
def posLoop (fuel : ℕ) (cs : Colours) (b : Branch) (act : UInt8 → UInt8 → UInt16 → List α) :
    Option (List α) :=
  (loop (fun s => decide (s.1.toUInt32 < b.count))
    (fun s => b.table[(b.start + s.1.toUInt32).toNat]?.bind fun temp =>
      (shiftLoop fuel cs (b.num s.1) (act s.1) temp s.2).map fun done => (s.1 + 1, done)) fuel
    ((0 : UInt8), [])).map Prod.snd

/-! ## The sizes -/

/-- The branch of `size == 16`: which bytes of the table it reads. -/
def show1608 (fonts : Fonts) (data : UInt8) (size : UInt32) : Branch where
  table := fonts.asc2_1608.toList
  start := data.toUInt16.toUInt32 * size * (size / 2) / 8
  count := size * (size / 2) / 8
  num _ := 8
  index pos t := 8 * pos.toNat + t.toNat

/-- The bits drawn of a byte of `asc2_2412`, whose rows are twelve bits in
two bytes. -/
def num2412 (pos : UInt8) : UInt8 := if pos % 2 = 0 then 8 else 4

/-- The branch of `size == 24`, in which every other byte has four pixels. -/
def show2412 (fonts : Fonts) (data : UInt8) (size : UInt32) : Branch where
  table := fonts.asc2_2412.toList
  start := data.toUInt16.toUInt32 * (size * 16) / 8
  count := size * 16 / 8
  num := num2412
  index pos t :=
    if num2412 pos = 8 then 12 * (pos.toNat / 2) + t.toNat else 8 + 12 * (pos.toNat / 2) + t.toNat

/-- The branch of `size == 32`: which bytes of the table it reads. -/
def show3216 (fonts : Fonts) (data : UInt8) (size : UInt32) : Branch where
  table := fonts.asc2_3216.toList
  start := data.toUInt16.toUInt32 * size * (size / 2) / 8
  count := size * (size / 2) / 8
  num _ := 8
  index pos t := 8 * pos.toNat + t.toNat

/-- The branch a size is shown by, `none` for one that the function does not
know. -/
def branch (fonts : Fonts) (data : UInt8) (size : UInt32) : Option Branch :=
  if size = 16 then some (show1608 fonts data size)
  else if size = 24 then some (show2412 fonts data size)
  else if size = 32 then some (show3216 fonts data size)
  else none

/-- Without a buffer the pixels are sent one by one. -/
def Branch.fast (b : Branch) (fuel : ℕ) (cs : Colours) : Option (List Write) :=
  posLoop fuel cs b fun _ _ colortemp => lcdWriteHalfWord colortemp

/-- With one their bytes are stored there, at an index the branch computes for
each pixel. -/
def Branch.stores (b : Branch) (fuel : ℕ) (cs : Colours) : Option (List (ℕ × UInt8)) :=
  posLoop fuel cs b fun pos t colortemp =>
    [(2 * b.index pos t, (colortemp >>> 8).toUInt8), (2 * b.index pos t + 1, colortemp.toUInt8)]

namespace Drv

/-- `lcd_show_char`, `fontBuf` being what `rt_malloc` returns, and `none`
where a read leaves its table. -/
def lcdShowChar (fuel : ℕ) (fonts : Fonts) (cs : Colours) (x y : UInt16) (data : UInt8)
    (size : UInt32) (fontBuf : Option (Block (size * size).toNat)) : Option (List Write) :=
  if x.toUInt32 > UInt32.ofNat lcdW - size / 2 ∨ y.toUInt32 > UInt32.ofNat lcdH - size then some []
  else
    match branch fonts (data - 0x20) size with
    | none => some []
    | some b =>
        let window := lcdAddressSet x y (x.toUInt32 + size / 2 - 1).toUInt16
          (y.toUInt32 + size - 1).toUInt16
        match fontBuf with
        | none => (b.fast fuel cs).map fun ws => window ++ ws
        | some buf => (b.stores fuel cs).map fun stores =>
            window ++ lcdWriteDataBuffer ((buf.writes stores).bytes.take (size * size).toNat)

end Drv

end Lcd

end WeatherTerminal
