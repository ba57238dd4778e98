import WeatherTerminal.Lcd.Model.Driver
/-!
# What the stores of the driver do to the controller

A window set with 8-bit stores is the window asked for, and pixels sent
with them are the colours sent. Sent with 16-bit stores the bytes arrive
the other way round: a colour lands with its bytes exchanged, and of a
column or row the window starts at zero.
-/

namespace WeatherTerminal

namespace Lcd

/-! ## Bytes and words -/

/-- Two bytes are the high one times 256, and the low one. -/
theorem toNat_word (high low : UInt8) : (word high low).toNat = high.toNat * 256 + low.toNat := by
  have := high.toNat_lt
  have := low.toNat_lt
  unfold word
  rw [UInt16.toNat_ofNat', Nat.mod_eq_of_lt (by omega)]

/-- The high byte of a word is a 256th of it. -/
theorem toNat_high (v : UInt16) : (v >>> 8).toUInt8.toNat = v.toNat / 256 := by
  have := v.toNat_lt
  rw [UInt16.toNat_toUInt8, UInt16.toNat_shiftRight]
  show (v.toNat >>> 8) % 2 ^ 8 = _
  rw [Nat.shiftRight_eq_div_pow]
  omega

/-- The word in the other byte order, as a number. -/
theorem toNat_changeByteOrder (v : UInt16) :
    (changeByteOrder v).toNat = v.toNat % 256 * 256 + v.toNat / 256 := by
  have := v.toNat_lt
  unfold changeByteOrder
  rw [UInt16.toNat_or, UInt16.toNat_and, UInt16.toNat_and, UInt16.toNat_shiftLeft,
    UInt16.toNat_shiftRight]
  show ((v.toNat <<< 8) % 2 ^ 16 &&& 0xff00) ||| ((v.toNat >>> 8) &&& 0xff) = _
  have hshift : (v.toNat <<< 8) % 2 ^ 16 = (v.toNat % 256) <<< 8 := by
    rw [Nat.shiftLeft_eq, Nat.shiftLeft_eq]
    omega
  have hhigh : (v.toNat % 256) <<< 8 &&& 0xff00 = (v.toNat % 256) <<< 8 := by
    rw [show (0xff00 : ℕ) = 0xff <<< 8 from rfl, ← Nat.shiftLeft_and_distrib]
    congr 1
    exact (Nat.and_two_pow_sub_one_eq_mod _ 8).trans (by omega)
  have hlow : v.toNat >>> 8 &&& 0xff = v.toNat / 256 := by
    rw [Nat.shiftRight_eq_div_pow]
    exact (Nat.and_two_pow_sub_one_eq_mod _ 8).trans (by omega)
  rw [hshift, hhigh, hlow, ← Nat.shiftLeft_add_eq_or_of_lt (by omega), Nat.shiftLeft_eq]

/-- The high byte first is the colour as it was given. -/
theorem word_colour (v : UInt16) : word (v >>> 8).toUInt8 v.toUInt8 = v := by
  refine UInt16.toNat_inj.mp ?_
  rw [toNat_word, toNat_high, UInt16.toNat_toUInt8]
  exact Nat.div_add_mod' v.toNat 256

/-- The low byte first is the colour in the other byte order. -/
theorem word_swapped (v : UInt16) : word v.toUInt8 (v >>> 8).toUInt8 = changeByteOrder v := by
  refine UInt16.toNat_inj.mp ?_
  rw [toNat_word, toNat_high, UInt16.toNat_toUInt8, toNat_changeByteOrder]

/-- A half word of the driver arrives high byte first. -/
theorem bytes_writeHalfWord (da : UInt16) :
    (lcdWriteHalfWord da).flatMap Write.bytes = (colourBytes da).map BusByte.data := by
  have := da.toNat_lt
  have hfirst : (changeByteOrder da).toUInt8 = (da >>> 8).toUInt8 := by
    refine UInt8.toNat_inj.mp ?_
    rw [UInt16.toNat_toUInt8, toNat_changeByteOrder, toNat_high]
    omega
  have hsecond : (changeByteOrder da >>> 8).toUInt8 = da.toUInt8 := by
    refine UInt8.toNat_inj.mp ?_
    rw [toNat_high, toNat_changeByteOrder, UInt16.toNat_toUInt8]
    omega
  show [BusByte.data (changeByteOrder da).toUInt8, .data (changeByteOrder da >>> 8).toUInt8] = _
  rw [hfirst, hsecond]
  rfl

/-- And so do the bytes of a buffer, each of them as data. -/
theorem bytes_writeDataBuffer (buf : List UInt8) :
    (lcdWriteDataBuffer buf).flatMap Write.bytes = buf.map BusByte.data := by
  induction buf with
  | nil => rfl
  | cons v buf ih => exact congrArg (BusByte.data v :: ·) ih

namespace St7789

variable {s : St7789}

/-- The controller sees the bytes, so stores that put the same ones on the bus
do the same. -/
theorem run_congr {ws vs : List Write}
    (h : ws.flatMap Write.bytes = vs.flatMap Write.bytes) : s.run ws = s.run vs := by
  unfold run
  rw [h]

/-- Stores one after the other act one after the other. -/
theorem run_append (s : St7789) (ws vs : List Write) : s.run (ws ++ vs) = (s.run ws).run vs := by
  unfold run
  rw [List.flatMap_append, List.foldl_append]

/-! ## Windows -/

/-- **`lcd_address_set` sets the window**, and takes the pointer to its
corner. -/
theorem run_addressSet (s : St7789) (x1 y1 x2 y2 : UInt16) :
    s.run (lcdAddressSet x1 y1 x2 y2) =
      ⟨⟨⟨x1.toNat, x2.toNat, y1.toNat, y2.toNat⟩, (x1.toNat, y1.toNat), s.mem⟩, .ram none⟩ := by
  have hword : ∀ v : UInt16, word (v >>> 8).toUInt8 (v &&& 0xff).toUInt8 = v := by
    intro v
    have hlow : (v &&& 0xff).toUInt8 = v.toUInt8 := by
      refine UInt8.toNat_inj.mp ?_
      rw [UInt16.toNat_toUInt8, UInt16.toNat_toUInt8, UInt16.toNat_and]
      show (v.toNat &&& 2 ^ 8 - 1) % 2 ^ 8 = _
      rw [Nat.and_two_pow_sub_one_eq_mod, Nat.mod_mod]
    rw [hlow, word_colour]
  show St7789.mk ⟨⟨(word _ _).toNat, (word _ _).toNat, (word _ _).toNat, (word _ _).toNat⟩,
    ((word _ _).toNat, (word _ _).toNat), s.mem⟩ (.ram none) = _
  simp only [hword]

/-- `LCD_WriteRAM_Prepare` starts at the corner of the window, whatever came
before. -/
theorem run_prepare (s : St7789) : s.run lcdWriteRamPrepare = ⟨s.raster.corner, .ram none⟩ := rfl

/-- `LCD_SetCursor` asks for another controller, so it sends nothing to this
one. -/
theorem lcdSetCursor_eq (xpos ypos : UInt16) : lcdSetCursor xpos ypos = [] := rfl

/-! ## Pixels -/

/-- Pixels sent byte by byte are put into the window as they are. -/
theorem run_colourBytes (hmode : s.mode = .ram none) (ps : List UInt16) :
    s.run (ps.flatMap fun p => (colourBytes p).map .ram8) = ⟨s.raster.puts ps, .ram none⟩ := by
  induction ps generalizing s with
  | nil =>
      show s = ⟨s.raster, .ram none⟩
      rw [← hmode]
  | cons p ps ih =>
      have hpixel : s.run ((colourBytes p).map .ram8) = ⟨s.raster.put p, .ram none⟩ := by
        show (s.data (p >>> 8).toUInt8).data p.toUInt8 = _
        simp only [data, hmode, word_colour]
      rw [List.flatMap_cons, run_append, hpixel, ih rfl]
      rfl

/-- **Pixels that fill a window at most once** land in it row by row, and
leave the rest. -/
theorem mem_addressSet_pixels (s : St7789) (x1 y1 x2 y2 : UInt16) (ps : List UInt16)
    (hps : ps.length ≤ Window.size ⟨x1.toNat, x2.toNat, y1.toNat, y2.toNat⟩) (x y : ℕ) :
    (s.run (lcdAddressSet x1 y1 x2 y2 ++ ps.flatMap fun p => (colourBytes p).map .ram8)).mem x y =
      if Window.Has ⟨x1.toNat, x2.toNat, y1.toNat, y2.toNat⟩ x y then
        ps.getD (Window.index ⟨x1.toNat, x2.toNat, y1.toNat, y2.toNat⟩ x y) (s.mem x y)
      else s.mem x y := by
  rw [run_append, run_addressSet, run_colourBytes rfl]
  exact Raster.puts_mem_of_le (Window.cell_zero
    (w := ⟨x1.toNat, x2.toNat, y1.toNat, y2.toNat⟩)).symm hps x y

/-- Pixels sent by 16-bit stores are put there in the other byte order. -/
theorem run_ram16 (hmode : s.mode = .ram none) (ps : List UInt16) :
    s.run (ps.map .ram16) = ⟨s.raster.puts (ps.map changeByteOrder), .ram none⟩ := by
  induction ps generalizing s with
  | nil =>
      show s = ⟨s.raster, .ram none⟩
      rw [← hmode]
  | cons p ps ih =>
      have hpixel : s.run [.ram16 p] = ⟨s.raster.put (changeByteOrder p), .ram none⟩ := by
        show (s.data p.toUInt8).data (p >>> 8).toUInt8 = _
        simp only [data, hmode, word_swapped]
      rw [List.map_cons, ← List.singleton_append, run_append, hpixel, ih rfl]
      rfl

/-! ## Data alone -/

/-- A store to the data register, of eight bits or of sixteen. -/
def IsData : Write → Prop
  | .reg _ => False
  | .ram8 _ => True
  | .ram16 _ => True

/-- The controller takes pixels: it has been told to, and nothing else since.
-/
def TakesPixels (s : St7789) : Prop := ∃ high, s.mode = .ram high

/-- A byte of a pixel leaves the window, and the controller takes more. -/
theorem data_window (h : s.TakesPixels) (v : UInt8) :
    (s.data v).TakesPixels ∧ (s.data v).window = s.window := by
  obtain ⟨high, hmode⟩ := h
  unfold data
  rw [hmode]
  cases high with
  | none => exact ⟨⟨some v, rfl⟩, rfl⟩
  | some high => exact ⟨⟨none, rfl⟩, rfl⟩

/-- **Pixels leave the window**, however many of them are sent. -/
theorem run_data_window (h : s.TakesPixels) {ws : List Write} (hws : ∀ w ∈ ws, IsData w) :
    (s.run ws).window = s.window := by
  induction ws generalizing s with
  | nil => rfl
  | cons w ws ih =>
      have hrest : ∀ w ∈ ws, IsData w := fun v hv => hws v (List.mem_cons_of_mem w hv)
      have hone : (s.run [w]).TakesPixels ∧ (s.run [w]).window = s.window := by
        cases w with
        | reg v => exact absurd (hws (.reg v) List.mem_cons_self) id
        | ram8 v => exact data_window h v
        | ram16 v =>
            obtain ⟨hfirst, hwindow⟩ := data_window h v.toUInt8
            obtain ⟨hsecond, hwindow'⟩ := data_window hfirst (v >>> 8).toUInt8
            exact ⟨hsecond, hwindow'.trans hwindow⟩
      rw [← List.singleton_append, run_append, ih hone.1 hrest, hone.2]

end St7789

end Lcd

end WeatherTerminal
