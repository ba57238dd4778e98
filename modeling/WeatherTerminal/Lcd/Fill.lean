import WeatherTerminal.Lcd.Bus
/-!
# When a rectangle is filled

The window of `lcd_fill` is inclusive. Without a buffer it sends a pixel
for each cell of it. With one it sends as many as the differences of the
coordinates make, a row and a column too few, in blocks of one size: only
where a difference is zero, and `rt_malloc` therefore refuses, is the
rectangle filled whatever the heap does.
-/

namespace WeatherTerminal

namespace Lcd

variable {s : St7789}

/-! ## The two paths -/

/-- Pixels of one colour, byte by byte, from a buffer that holds them. -/
def sendColour (color : UInt16) (n : ℕ) : List Write :=
  lcdWriteDataBuffer ((List.replicate n (colourBytes color)).flatten)

/-- Pixels of one colour are sent in one go or in several. -/
theorem sendColour_add (color : UInt16) (m n : ℕ) :
    sendColour color (m + n) = sendColour color m ++ sendColour color n := by
  unfold sendColour lcdWriteDataBuffer
  rw [← List.replicate_append_replicate, List.flatten_append, List.map_append]

/-- **The blocks together are one stream**, as long as all but the last are
of the full size. -/
theorem fillLoop_eq (color : UInt16) (size sizeRemain : ℕ) (hsize : size % 2 = 0)
    (hremain : sizeRemain % 2 = 0) (hfull : sizeRemain ≠ 0 → size = lcdClearSendNumber) :
    fillLoop color size sizeRemain = sendColour color (size / 2 + sizeRemain / 2) := by
  induction size, sizeRemain using fillLoop.induct with
  | case1 size sizeRemain ihMore ihLast =>
      rw [fillLoop, sendColour_add]
      show sendColour color (size / 2) ++ _ = _
      congr 1
      by_cases hzero : sizeRemain = 0
      · rw [if_pos hzero, hzero]
        rfl
      · have hblock := hfull hzero
        rw [if_neg hzero]
        by_cases hmore : sizeRemain > lcdClearSendNumber
        · -- a full block more
          rw [if_pos hmore,
            ihMore hmore hsize (by unfold lcdClearSendNumber; omega) fun _ => hblock, hblock]
          unfold lcdClearSendNumber at *
          congr 1
          omega
        · rw [if_neg hmore, ihLast hzero hmore hremain rfl fun h => absurd rfl h]
          rfl

variable {xStart yStart xEnd yEnd : UInt16}

/-- What `lcd_fill` counts for an area on the panel: one column and one row
too few. -/
theorem fillBytes_eq (h : OnPanel xEnd yEnd) (hx : xStart.toNat ≤ xEnd.toNat)
    (hy : yStart.toNat ≤ yEnd.toNat) :
    fillBytes xStart yStart xEnd yEnd =
      (xEnd.toNat - xStart.toNat) * (yEnd.toNat - yStart.toNat) * 2 ∧
    (xEnd.toNat - xStart.toNat) * (yEnd.toNat - yStart.toNat) ≤ 240 * 240 := by
  obtain ⟨hright, hbottom⟩ := h
  change xEnd.toNat < 240 at hright
  change yEnd.toNat < 240 at hbottom
  have hpixels : (xEnd.toNat - xStart.toNat) * (yEnd.toNat - yStart.toNat) ≤ 240 * 240 :=
    Nat.mul_le_mul (by omega) (by omega)
  refine ⟨?_, hpixels⟩
  unfold fillBytes
  rw [← Int.ofNat_sub hx, ← Int.ofNat_sub hy, ← Int.natCast_mul]
  omega

/-- The stream with a buffer: the window, and as many pixels as are counted.
-/
theorem lcdFill_granted (h : OnPanel xEnd yEnd) (hx : xStart.toNat ≤ xEnd.toNat)
    (hy : yStart.toNat ≤ yEnd.toNat) (color : UInt16) :
    lcdFill xStart yStart xEnd yEnd color true =
      lcdAddressSet xStart yStart xEnd yEnd ++
        sendColour color ((xEnd.toNat - xStart.toNat) * (yEnd.toNat - yStart.toNat)) := by
  obtain ⟨hbytes, hpixels⟩ := fillBytes_eq h hx hy
  unfold lcdFill
  simp only [hbytes, if_true]
  generalize (xEnd.toNat - xStart.toNat) * (yEnd.toNat - yStart.toNat) = pixels at hpixels ⊢
  unfold lcdClearSendNumber
  by_cases hmore : pixels * 2 > 5760
  · rw [if_pos hmore, fillLoop_eq color 5760 (pixels * 2 - 5760) (by omega) (by omega) fun _ => rfl]
    congr 2
    omega
  · rw [if_neg hmore, fillLoop_eq color (pixels * 2) 0 (by omega) (by omega) fun h => absurd rfl h]
    congr 2
    omega

/-- The bytes of one colour on the bus, as often as it is sent. -/
theorem bytes_sendColour (color : UInt16) (n : ℕ) :
    (sendColour color n).flatMap Write.bytes =
      (List.replicate n ((colourBytes color).map BusByte.data)).flatten := by
  rw [sendColour, bytes_writeDataBuffer, List.map_flatten, List.map_replicate]

/-- The stream without one: the window, and a pixel for each place of it. -/
theorem lcdFill_refused (xStart yStart xEnd yEnd color : UInt16) :
    ∃ ws, lcdFill xStart yStart xEnd yEnd color false =
        lcdAddressSet xStart yStart xEnd yEnd ++ ws ∧
      ws.flatMap Write.bytes = (sendColour color
        ((yEnd.toNat + 1 - yStart.toNat) * (xEnd.toNat + 1 - xStart.toNat))).flatMap
          Write.bytes := by
  have hconst : ∀ (n : ℕ) (l : List BusByte),
      (List.range n).flatMap (fun _ => l) = (List.replicate n l).flatten := by
    intro n l
    rw [List.flatMap_def, List.map_const', List.length_range]
  refine ⟨(List.range (yEnd.toNat + 1 - yStart.toNat)).flatMap fun _ =>
    (List.range (xEnd.toNat + 1 - xStart.toNat)).flatMap fun _ => lcdWriteHalfWord color, rfl, ?_⟩
  simp only [List.flatMap_assoc, bytes_writeHalfWord, bytes_sendColour, hconst]
  rw [← List.flatten_replicate_replicate, List.flatten_flatten, List.map_replicate]

/-- A window, and one colour over and over: the first pixels of the window
have it. -/
theorem mem_sendColour (s : St7789) (xStart yStart xEnd yEnd color : UInt16) (n x y : ℕ) :
    let w : Window := ⟨xStart.toNat, xEnd.toNat, yStart.toNat, yEnd.toNat⟩
    (s.run (lcdAddressSet xStart yStart xEnd yEnd ++ sendColour color n)).mem x y =
      if w.Has x y ∧ w.index x y < n then color else s.mem x y := by
  intro w
  have hstream : sendColour color n =
      (List.replicate n color).flatMap fun p => (colourBytes p).map .ram8 := by
    rw [sendColour, lcdWriteDataBuffer, List.map_flatten, List.map_replicate, List.flatMap_def,
      List.map_replicate]
  rw [St7789.run_append, St7789.run_addressSet, hstream, St7789.run_colourBytes rfl]
  exact Raster.puts_replicate_mem (Window.cell_zero (w := w)).symm n color x y

/-! ## When the rectangle is filled -/

/-- Whatever the heap does, the window is followed by the colour once for
each of its pixels, and so the rectangle takes the colour and nothing else
does. -/
def Fills (xStart yStart xEnd yEnd color : UInt16) : Prop :=
  let w : Window := ⟨xStart.toNat, xEnd.toNat, yStart.toNat, yEnd.toNat⟩
  ∀ room, (∃ ws, lcdFillHeap xStart yStart xEnd yEnd color room =
      lcdAddressSet xStart yStart xEnd yEnd ++ ws ∧
      ws.flatMap Write.bytes = (List.replicate w.size ((colourBytes color).map .data)).flatten) ∧
    ∀ (s : St7789) (x y : ℕ), (s.run (lcdFillHeap xStart yStart xEnd yEnd color room)).mem x y =
      if w.Has x y then color else s.mem x y

theorem length_bytes_sendColour (color : UInt16) (n : ℕ) :
    ((sendColour color n).flatMap Write.bytes).length = n * 2 := by
  rw [bytes_sendColour, List.length_flatten, List.map_replicate, List.sum_replicate_nat]
  rfl

/-- **`lcd_fill` fills a rectangle exactly where it is one pixel wide or one
pixel high.** -/
theorem lcdFill_fills_iff (xStart yStart xEnd yEnd color : UInt16)
    (hEnd : OnPanel xEnd yEnd) (hx : xStart ≤ xEnd) (hy : yStart ≤ yEnd) :
    Fills xStart yStart xEnd yEnd color ↔ xStart = xEnd ∨ yStart = yEnd := by
  have hcols := UInt16.le_iff_toNat_le.mp hx
  have hrows := UInt16.le_iff_toNat_le.mp hy
  obtain ⟨hbytes, -⟩ := fillBytes_eq hEnd hcols hrows
  have hsize : (yEnd.toNat + 1 - yStart.toNat) * (xEnd.toNat + 1 - xStart.toNat) =
      Window.size ⟨xStart.toNat, xEnd.toNat, yStart.toNat, yEnd.toNat⟩ := by
    rw [Nat.sub_add_comm hcols, Nat.sub_add_comm hrows, Nat.mul_comm]
    rfl
  constructor
  · intro hfills
    by_contra hboth
    obtain ⟨hxne, hyne⟩ := not_or.mp hboth
    have hwide : xStart.toNat ≠ xEnd.toNat := fun h => hxne (UInt16.toNat_inj.mp h)
    have hhigh : yStart.toNat ≠ yEnd.toNat := fun h => hyne (UInt16.toNat_inj.mp h)
    -- a buffer is granted, and the stream is too short
    have hpos : 0 < (xEnd.toNat - xStart.toNat) * (yEnd.toNat - yStart.toNat) :=
      Nat.mul_pos (by omega) (by omega)
    have hgranted : rtMalloc (min (fillBytes xStart yStart xEnd yEnd) lcdClearSendNumber) true =
        true := by
      unfold rtMalloc lcdClearSendNumber
      rw [hbytes, Bool.and_true]
      exact decide_eq_true (by omega)
    obtain ⟨⟨ws, hws, hstream⟩, -⟩ := hfills true
    rw [lcdFillHeap, hgranted, lcdFill_granted hEnd hcols hrows] at hws
    have hlength := congrArg List.length hstream
    rw [← List.append_cancel_left hws, length_bytes_sendColour, ← bytes_sendColour,
      length_bytes_sendColour, ← hsize, Nat.mul_comm (yEnd.toNat + 1 - yStart.toNat)] at hlength
    have hshort : (xEnd.toNat - xStart.toNat) * (yEnd.toNat - yStart.toNat) <
        (xEnd.toNat + 1 - xStart.toNat) * (yEnd.toNat + 1 - yStart.toNat) :=
      Nat.mul_lt_mul_of_lt_of_lt (by omega) (by omega)
    omega
  · intro hline room
    have hzero : fillBytes xStart yStart xEnd yEnd = 0 := by
      rw [hbytes]
      rcases hline with rfl | rfl
      · rw [Nat.sub_self, Nat.zero_mul]
      · rw [Nat.sub_self, Nat.mul_zero]
    have hrefused : lcdFillHeap xStart yStart xEnd yEnd color room =
        lcdFill xStart yStart xEnd yEnd color false := by
      rw [lcdFillHeap, hzero]
      rfl
    obtain ⟨ws, hws, hstream⟩ := lcdFill_refused xStart yStart xEnd yEnd color
    rw [hsize] at hstream
    refine ⟨⟨ws, hrefused.trans hws, hstream.trans (bytes_sendColour color _)⟩, fun s x y => ?_⟩
    rw [hrefused, hws, St7789.run_append, St7789.run_congr hstream, ← St7789.run_append,
      mem_sendColour]
    by_cases hhas : Window.Has ⟨xStart.toNat, xEnd.toNat, yStart.toNat, yEnd.toNat⟩ x y
    · rw [if_pos hhas, if_pos ⟨hhas, Window.index_lt hhas⟩]
    · rw [if_neg hhas, if_neg fun h => hhas h.1]

/-- A line down the panel: no bytes are counted, so no buffer is granted, and
it is filled. -/
theorem lcdFill_fills_iff_line :
    (Fills 3 0 3 239 0xF800 ↔ (3 : UInt16) = 3 ∨ (0 : UInt16) = 239) ∧ Fills 3 0 3 239 0xF800 := by
  have hiff := lcdFill_fills_iff 3 0 3 239 0xF800 ⟨by decide, by decide⟩ (by decide)
    (by decide)
  exact ⟨hiff, hiff.mpr (Or.inl rfl)⟩

/-- **A square of two by two gets one pixel** where the heap has room. -/
theorem not_fills_square :
    ¬∀ xStart yStart xEnd yEnd color : UInt16, OnPanel xStart yStart → OnPanel xEnd yEnd →
      xStart ≤ xEnd → yStart ≤ yEnd → Fills xStart yStart xEnd yEnd color := by
  intro h
  obtain ⟨⟨ws, hws, hstream⟩, -⟩ := h 0 0 1 1 0xF800 ⟨by decide, by decide⟩ ⟨by decide, by decide⟩
    (by decide) (by decide) true
  have hone : lcdFillHeap 0 0 1 1 0xF800 true = lcdAddressSet 0 0 1 1 ++ sendColour 0xF800 1 :=
    lcdFill_granted ⟨by decide, by decide⟩ (by decide) (by decide) 0xF800
  rw [hone] at hws
  rw [← List.append_cancel_left hws] at hstream
  exact absurd hstream (by decide)

end Lcd

end WeatherTerminal
