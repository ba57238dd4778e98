import WeatherTerminal.Common.Packed
import WeatherTerminal.Lcd.Bus
import WeatherTerminal.Lcd.Model.ShowChar
import WeatherTerminal.Lcd.Text
/-!
# A character on the panel

The loops of `lcd_show_char` come to the pixels of a glyph row by row,
with a buffer or without one, each with the bit the table has for it. So
both ways send the same bytes, and the glyph fills its window.
-/

namespace WeatherTerminal

namespace Lcd

variable {α : Type} {cs : Colours} {fuel : ℕ}

/-! ## The loops -/

/-- The colour of a bit of a font byte, counted from the highest. -/
def bitColour (cs : Colours) (v : UInt8) (t : ℕ) : UInt16 :=
  if v.toNat.testBit (7 - t) then cs.fore else cs.back

/-- A counter below 256 is the same in eight bits. -/
theorem toNat_counter {k : ℕ} (hk : k < 2 ^ 8) : (UInt8.ofNat k).toNat = k :=
  UInt8.toNat_ofNat'.trans (Nat.mod_eq_of_lt hk)

theorem uint8_ofNat_succ (k : ℕ) : UInt8.ofNat k + 1 = UInt8.ofNat (k + 1) :=
  (UInt8.ofNat_add k 1).symm

/-- The loop over `t` behind `k` rounds: the byte shifted, and so many pixels
done. -/
def shifted (cs : Colours) (act : UInt8 → UInt16 → List α) (v : UInt8) (done : List α) (k : ℕ) :
    Shifting α where
  t := UInt8.ofNat k
  temp := UInt8.ofNat (v.toNat * 2 ^ k)
  done := done ++ (List.range k).flatMap fun t => act (UInt8.ofNat t) (bitColour cs v t)

theorem shifted_zero (act : UInt8 → UInt16 → List α) (v : UInt8) (done : List α) :
    shifted cs act v done 0 = ⟨0, v, done⟩ := by
  unfold shifted
  rw [Nat.pow_zero, Nat.mul_one, UInt8.ofNat_toNat, List.range_zero, List.flatMap_nil,
    List.append_nil]
  rfl

/-- A round goes from each to the next, within the eight bits of a byte. -/
theorem shiftRound_shifted (act : UInt8 → UInt16 → List α) (v : UInt8) (done : List α) {k : ℕ}
    (hk : k < 8) : shiftRound cs act (shifted cs act v done k) = shifted cs act v done (k + 1) := by
  have hcolour : (if UInt8.ofNat (v.toNat * 2 ^ k) &&& 0x80 ≠ 0 then cs.fore else cs.back) =
      bitColour cs v k := by
    unfold bitColour
    simp only [Packed.and_highest_shifted v hk]
  unfold shiftRound shifted
  simp only [hcolour]
  rw [uint8_ofNat_succ, Packed.ofNat_shiftLeft_one, Nat.mul_assoc, ← Nat.pow_succ,
    flatMap_range_succ, List.append_assoc]

/-- **The loop over `t` ends**, with every bit in its turn. -/
theorem shiftLoop_eq {num : UInt8} (hnum : num.toNat ≤ 8) (hfuel : num.toNat < fuel)
    (act : UInt8 → UInt16 → List α) (v : UInt8) (done : List α) :
    shiftLoop fuel cs num act v done =
      some (done ++ (List.range num.toNat).flatMap fun t =>
        act (UInt8.ofNat t) (bitColour cs v t)) := by
  unfold shiftLoop
  rw [← shifted_zero, loop_eq_some _ _ (shifted cs act v done) hfuel ?_ ?_]
  · rfl
  · intro k hk
    refine ⟨decide_eq_true (UInt8.lt_iff_toNat_lt.mpr ?_),
      congrArg some (shiftRound_shifted act v done (by omega))⟩
    show (UInt8.ofNat k).toNat < num.toNat
    rw [toNat_counter (by omega)]
    exact hk
  · refine decide_eq_false fun hlt => ?_
    have hlt := UInt8.lt_iff_toNat_lt.mp hlt
    change (UInt8.ofNat num.toNat).toNat < num.toNat at hlt
    rw [UInt8.ofNat_toNat] at hlt
    exact Nat.lt_irrefl _ hlt

namespace Branch

/-- The loops of a branch run over the bits of a bitmap of `rows` rows and
`cols` columns, which starts in the table and ends there. -/
structure Packs (b : Branch) (cols rows : ℕ) : Prop where
  cols_pos : 0 < cols
  count : b.count.toNat = rows * Packed.rowBytes cols
  count_lt : b.count.toNat < 2 ^ 8
  reads : b.start.toNat + b.count.toNat ≤ b.table.length
  length_lt : b.table.length < 2 ^ 32
  num : ∀ pos < b.count.toNat, (b.num (UInt8.ofNat pos)).toNat = Packed.used cols pos
  index : ∀ pos < b.count.toNat, ∀ t < Packed.used cols pos,
    b.index (UInt8.ofNat pos) (UInt8.ofNat t) = Packed.place cols pos t

/-- A byte of the glyph, counted from where it starts in the table. -/
def byte (b : Branch) (pos : ℕ) : UInt8 := b.table.getD (b.start.toNat + pos) 0

/-- A pixel of it, counted row by row: the colour of its bit. -/
def pixel (b : Branch) (cs : Colours) (cols k : ℕ) : UInt16 :=
  bitColour cs (b.byte (Packed.byteAt cols k)) (Packed.bitAt cols k)

variable {b : Branch} {cols rows : ℕ}

/-- A byte of the glyph is read from the table. -/
theorem read_byte (h : b.Packs cols rows) {pos : ℕ} (hpos : pos < b.count.toNat) :
    b.table[(b.start + (UInt8.ofNat pos).toUInt32).toNat]? = some (b.byte pos) := by
  have hcount := h.count_lt
  have hreads := h.reads
  have hlength := h.length_lt
  have hplace : (b.start + (UInt8.ofNat pos).toUInt32).toNat = b.start.toNat + pos := by
    rw [UInt32.toNat_add, UInt8.toNat_toUInt32, toNat_counter (by omega)]
    omega
  rw [hplace, byte, List.getD_eq_getElem?_getD, List.getElem?_eq_getElem (by omega)]
  rfl

/-- What the loop over `pos` has done behind `k` rounds. -/
def passed (b : Branch) (cs : Colours) (cols : ℕ) (act : UInt8 → UInt8 → UInt16 → List α)
    (k : ℕ) : List α :=
  (List.range k).flatMap fun pos => (List.range (Packed.used cols pos)).flatMap fun t =>
    act (UInt8.ofNat pos) (UInt8.ofNat t) (bitColour cs (b.byte pos) t)

/-- A round goes over one byte of the glyph, and does what is done to its
pixels. -/
theorem round_passed (h : b.Packs cols rows) (h8 : 8 < fuel)
    (act : UInt8 → UInt8 → UInt16 → List α) {k : ℕ} (hk : k < b.count.toNat) :
    (b.table[(b.start + (UInt8.ofNat k).toUInt32).toNat]?.bind fun temp =>
        (shiftLoop fuel cs (b.num (UInt8.ofNat k)) (act (UInt8.ofNat k)) temp
          (b.passed cs cols act k)).map fun done => (UInt8.ofNat k + 1, done)) =
      some (UInt8.ofNat (k + 1), b.passed cs cols act (k + 1)) := by
  have hused := h.num k hk
  have hbits : (b.num (UInt8.ofNat k)).toNat ≤ 8 := hused.trans_le (Nat.min_le_left _ _)
  have hshift : (b.num (UInt8.ofNat k)).toNat < fuel := by omega
  rw [read_byte h hk, Option.bind_some, shiftLoop_eq hbits hshift, Option.map_some, hused,
    uint8_ofNat_succ, passed, passed, flatMap_range_succ]

/-- **The loop over `pos` ends**, with every bit of the glyph in its turn. -/
theorem posLoop_eq (h : b.Packs cols rows) (hfuel : b.count.toNat < fuel) (h8 : 8 < fuel)
    (act : UInt8 → UInt8 → UInt16 → List α) :
    posLoop fuel cs b act = some (b.passed cs cols act b.count.toNat) := by
  have hcount := h.count_lt
  have hloop := loop_eq_some (fun s : UInt8 × List α => decide (s.1.toUInt32 < b.count))
    (fun s => b.table[(b.start + s.1.toUInt32).toNat]?.bind fun temp =>
      (shiftLoop fuel cs (b.num s.1) (act s.1) temp s.2).map fun done => (s.1 + 1, done))
    (fun k => (UInt8.ofNat k, b.passed cs cols act k)) hfuel ?_ ?_
  · exact congrArg (Option.map Prod.snd) hloop
  · intro k hk
    refine ⟨decide_eq_true (UInt32.lt_iff_toNat_lt.mpr ?_), round_passed h h8 act hk⟩
    rw [UInt8.toNat_toUInt32, toNat_counter (by omega)]
    exact hk
  · refine decide_eq_false fun hlt => ?_
    have hlt := UInt32.lt_iff_toNat_lt.mp hlt
    rw [UInt8.toNat_toUInt32, toNat_counter hcount] at hlt
    exact Nat.lt_irrefl _ hlt

/-- **And so with every pixel in its turn**, row by row. -/
theorem posLoop_pixels (h : b.Packs cols rows) (hfuel : b.count.toNat < fuel) (h8 : 8 < fuel)
    {act : UInt8 → UInt8 → UInt16 → List α} {f : ℕ → UInt16 → List α}
    (hact : ∀ pos < b.count.toNat, ∀ t < Packed.used cols pos, ∀ c,
      act (UInt8.ofNat pos) (UInt8.ofNat t) c = f (Packed.place cols pos t) c) :
    posLoop fuel cs b act =
      some ((List.range (rows * cols)).flatMap fun k => f k (b.pixel cs cols k)) := by
  rw [posLoop_eq h hfuel h8, passed, ← Packed.flatMap_place h.cols_pos, ← h.count]
  refine congrArg some (List.flatMap_congr fun pos hpos => List.flatMap_congr fun t ht => ?_)
  have ht := List.mem_range.mp ht
  obtain ⟨hbyte, hbit⟩ := Packed.byteAt_place ht
  rw [hact pos (List.mem_range.mp hpos) t ht, pixel, hbyte, hbit]

end Branch

/-! ## The sizes -/

/-- The table of a size, none of a size the tables do not have. -/
def Fonts.table (fonts : Fonts) (size : ℕ) : List UInt8 :=
  if size = 16 then fonts.asc2_1608.toList
  else if size = 24 then fonts.asc2_2412.toList
  else if size = 32 then fonts.asc2_3216.toList
  else []

variable {fonts : Fonts} {data : UInt8}

/-- A branch goes through the `n` bytes of a glyph of its table. -/
structure Branch.Reads (b : Branch) (data : UInt8) (n : ℕ) : Prop where
  length : b.table.length = fontGlyphs * n
  start : b.start.toNat = data.toNat * n
  count : b.count.toNat = n

/-- Where a glyph of `n` bytes starts: behind as many glyphs as come before
its character. -/
theorem toNat_start (hdata : data.toNat < fontGlyphs) (n : ℕ) (hn : n ≤ 64) :
    data.toUInt16.toUInt32.toNat * (8 * n) % 2 ^ 32 / 8 = data.toNat * n := by
  have hbound : data.toNat * n ≤ fontGlyphs * 64 := Nat.mul_le_mul (Nat.le_of_lt hdata) hn
  unfold fontGlyphs at hbound
  rw [UInt16.toNat_toUInt32, UInt8.toNat_toUInt16, Nat.mul_left_comm]
  omega

/-- The branch of 16 reads the sixteen bytes of the glyph. -/
theorem reads_1608 (fonts : Fonts) (hdata : data.toNat < fontGlyphs) :
    (show1608 fonts data 16).Reads data 16 := by
  refine ⟨Vector.length_toList, ?_, rfl⟩
  show (data.toUInt16.toUInt32 * 16 * 8 / 8).toNat = _
  rw [UInt32.mul_assoc, UInt32.toNat_div, UInt32.toNat_mul]
  exact toNat_start hdata 16 (by decide)

theorem reads_2412 (fonts : Fonts) (hdata : data.toNat < fontGlyphs) :
    (show2412 fonts data 24).Reads data 48 := by
  refine ⟨Vector.length_toList, ?_, rfl⟩
  show (data.toUInt16.toUInt32 * 384 / 8).toNat = _
  rw [UInt32.toNat_div, UInt32.toNat_mul]
  exact toNat_start hdata 48 (by decide)

/-- The branch of 32 reads its sixty-four. -/
theorem reads_3216 (fonts : Fonts) (hdata : data.toNat < fontGlyphs) :
    (show3216 fonts data 32).Reads data 64 := by
  refine ⟨Vector.length_toList, ?_, rfl⟩
  show (data.toUInt16.toUInt32 * 32 * 16 / 8).toNat = _
  rw [UInt32.mul_assoc, UInt32.toNat_div, UInt32.toNat_mul]
  exact toNat_start hdata 64 (by decide)

/-- **Those of a glyph are in the table**, packed row by row. -/
theorem Branch.Reads.packs {b : Branch} {cols rows n : ℕ} (h : b.Reads data n)
    (hdata : data.toNat < fontGlyphs) (hcols : 0 < cols) (hn : n = rows * Packed.rowBytes cols)
    (hle : n ≤ 64)
    (hnum : ∀ pos < n, (b.num (UInt8.ofNat pos)).toNat = Packed.used cols pos)
    (hindex : ∀ pos < n, ∀ t < Packed.used cols pos,
      b.index (UInt8.ofNat pos) (UInt8.ofNat t) = Packed.place cols pos t) :
    b.Packs cols rows := by
  obtain ⟨hlength, hstart, hcount⟩ := h
  have hlast : (data.toNat + 1) * n ≤ fontGlyphs * n := Nat.mul_le_mul_right n hdata
  have htable : fontGlyphs * n ≤ fontGlyphs * 64 := Nat.mul_le_mul_left _ hle
  rw [Nat.succ_mul] at hlast
  unfold fontGlyphs at hlast htable hlength
  refine ⟨hcols, hcount.trans hn, by omega, by omega, by omega, ?_, ?_⟩
  · rw [hcount]
    exact hnum
  · rw [hcount]
    exact hindex

/-- The rows of 16 and 32 are whole bytes, all of whose bits are pixels. -/
theorem packs_whole {b : Branch} {w rows n : ℕ} (h : b.Reads data n)
    (hdata : data.toNat < fontGlyphs) (hw : 0 < w) (hn : n = rows * w) (hle : n ≤ 64)
    (hnum : ∀ pos, b.num pos = 8) (hindex : ∀ pos t, b.index pos t = 8 * pos.toNat + t.toNat) :
    b.Packs (8 * w) rows := by
  have hbytes : Packed.rowBytes (8 * w) = w := by
    unfold Packed.rowBytes
    omega
  refine h.packs hdata (by omega) (by rw [hbytes, hn]) hle (fun pos _ => ?_) fun pos hpos t ht => ?_
  · rw [hnum, (Packed.used_place_whole hw pos 0).1]
    rfl
  · rw [(Packed.used_place_whole hw pos 0).1] at ht
    rw [hindex, toNat_counter (by omega), toNat_counter (by omega),
      (Packed.used_place_whole hw pos t).2]

/-- Of the two bytes of a row of twelve pixels the second has four. -/
theorem used_twelve (pos : ℕ) : Packed.used 12 pos = if pos % 2 = 0 then 8 else 4 := by
  unfold Packed.used
  rw [show Packed.rowBytes 12 = 2 from rfl]
  split <;> omega

/-- Those of 24 are a byte and a half, four bits of the second being unused.
-/
theorem packs_2412 (fonts : Fonts) (hdata : data.toNat < fontGlyphs) :
    (show2412 fonts data 24).Packs 12 24 := by
  have hbytes : Packed.rowBytes 12 = 2 := rfl
  have hnum : ∀ pos < 48, num2412 (UInt8.ofNat pos) = if pos % 2 = 0 then 8 else 4 := by
    intro pos hpos
    have hparity : UInt8.ofNat pos % 2 = 0 ↔ pos % 2 = 0 := by
      rw [← UInt8.toNat_inj, UInt8.toNat_mod, toNat_counter (by omega)]
      rfl
    unfold num2412
    simp only [hparity]
  refine (reads_2412 fonts hdata).packs hdata (by decide) rfl (by decide) (fun pos hpos => ?_)
    fun pos hpos t ht => ?_
  · show (num2412 (UInt8.ofNat pos)).toNat = _
    rw [hnum pos hpos, used_twelve]
    split <;> rfl
  · show (if num2412 (UInt8.ofNat pos) = 8 then _ else _) = _
    rw [used_twelve] at ht
    rw [hnum pos hpos, toNat_counter (by omega), toNat_counter (by split at ht <;> omega)]
    unfold Packed.place
    rw [hbytes]
    by_cases heven : pos % 2 = 0
    · rw [if_pos heven, if_pos rfl]
      omega
    · rw [if_neg heven, if_neg (by decide)]
      omega

/-- A size is one of the three, as a number of 32 bits. -/
theorem fontSize_cases {size : UInt32} (hsize : FontSize size.toNat) :
    size = 16 ∨ size = 24 ∨ size = 32 := by
  rcases hsize with h | h | h
  · exact Or.inl (UInt32.toNat_inj.mp h)
  · exact Or.inr (Or.inl (UInt32.toNat_inj.mp h))
  · exact Or.inr (Or.inr (UInt32.toNat_inj.mp h))

/-- **Every size has its branch**, through the glyph of its table. -/
theorem branch_packs {size : UInt32} (fonts : Fonts) (hsize : FontSize size.toNat)
    (hdata : data.toNat < fontGlyphs) :
    ∃ b, branch fonts data size = some b ∧ b.Packs (size.toNat / 2) size.toNat ∧
      b.table = fonts.table size.toNat ∧
      b.Reads data (size.toNat * Packed.rowBytes (size.toNat / 2)) := by
  rcases fontSize_cases hsize with rfl | rfl | rfl
  · have hreads := reads_1608 fonts hdata
    exact ⟨show1608 fonts data 16, rfl, packs_whole (w := 1) hreads hdata (by decide) rfl
      (by decide) (fun _ => rfl) fun _ _ => rfl, rfl, hreads⟩
  · exact ⟨show2412 fonts data 24, rfl, packs_2412 fonts hdata, rfl, reads_2412 fonts hdata⟩
  · have hreads := reads_3216 fonts hdata
    exact ⟨show3216 fonts data 32, rfl, packs_whole (w := 2) hreads hdata (by decide) rfl
      (by decide) (fun _ => rfl) fun _ _ => rfl, rfl, hreads⟩

/-! ## The two ways -/

namespace Branch

variable {b : Branch} {cols rows : ℕ}

/-- The glyph as colours, row by row from the top. -/
def pixels (b : Branch) (cs : Colours) (cols rows : ℕ) : List UInt16 :=
  (List.range (rows * cols)).map (b.pixel cs cols)

/-- **Without a buffer every pixel is sent** by itself, in the order of the
glyph. -/
theorem fast_eq (h : b.Packs cols rows) (hfuel : b.count.toNat < fuel) (h8 : 8 < fuel) :
    b.fast fuel cs = some ((b.pixels cs cols rows).flatMap lcdWriteHalfWord) := by
  unfold fast
  rw [posLoop_pixels (f := fun _ c => lcdWriteHalfWord c) h hfuel h8 fun _ _ _ _ _ => rfl,
    pixels, List.flatMap_map]

/-- **With one its bytes are filled with theirs**, from the first to the
last. -/
theorem stores_eq (cs : Colours) (h : b.Packs cols rows) (hfuel : b.count.toNat < fuel)
    (h8 : 8 < fuel) :
    ∃ stores, b.stores fuel cs = some stores ∧
      stores.map Prod.fst = List.range (rows * cols * 2) ∧
      stores.map Prod.snd = (b.pixels cs cols rows).flatMap colourBytes := by
  refine ⟨_, posLoop_pixels (f := fun k c => [(2 * k, (c >>> 8).toUInt8), (2 * k + 1, c.toUInt8)])
    h hfuel h8 fun pos hpos t ht c => ?_, ?_, ?_⟩
  · rw [h.index pos hpos t ht]
  · have hpairs := flatMap_rows (fun i => [i]) 2 (rows * cols)
    rw [List.flatMap_singleton'] at hpairs
    rw [← hpairs, List.map_flatMap]
    refine List.flatMap_congr fun k _ => ?_
    rw [Nat.mul_comm k]
    rfl
  · rw [List.map_flatMap, pixels, List.flatMap_map]
    rfl

/-- The glyph, byte by byte: of each the bits that are pixels. -/
theorem pixels_eq (h : b.Packs cols rows) :
    b.pixels cs cols rows = (List.range b.count.toNat).flatMap fun pos =>
      (List.range (Packed.used cols pos)).map (bitColour cs (b.byte pos)) := by
  rw [pixels, List.map_eq_flatMap, ← Packed.flatMap_place h.cols_pos, ← h.count]
  refine List.flatMap_congr fun pos _ => ?_
  rw [List.map_eq_flatMap]
  refine List.flatMap_congr fun t ht => ?_
  obtain ⟨hbyte, hbit⟩ := Packed.byteAt_place (List.mem_range.mp ht)
  rw [pixel, hbyte, hbit]

end Branch

/-- The bits of a byte behind `k` shifts are those from the `k`-th on. -/
theorem byteColours_shifted (cs : Colours) (v : UInt8) (n k : ℕ) (hle : k + n ≤ 8) :
    byteColours cs n (UInt8.ofNat (v.toNat * 2 ^ k)) =
      (List.range n).map fun t => bitColour cs v (k + t) := by
  induction n generalizing k with
  | zero => rfl
  | succ n ih =>
      rw [byteColours, Packed.ofNat_shiftLeft_one, Nat.mul_assoc, ← Nat.pow_succ,
        ih (k + 1) (by omega), List.range_succ_eq_map, List.map_cons, List.map_map]
      congr 1
      · unfold bitColour
        simp only [Packed.and_highest_shifted v (show k < 8 by omega), Nat.add_zero]
      · refine List.map_congr_left fun t _ => ?_
        rw [Function.comp_apply, Nat.succ_add, Nat.add_succ]

/-- The colours of a byte are those of its bits, the highest first. -/
theorem byteColours_eq (cs : Colours) (v : UInt8) {n : ℕ} (hn : n ≤ 8) :
    byteColours cs n v = (List.range n).map (bitColour cs v) := by
  have h := byteColours_shifted cs v n 0 (by omega)
  rw [Nat.pow_zero, Nat.mul_one, UInt8.ofNat_toNat] at h
  simpa only [Nat.zero_add] using h

/-- The tables as the driver's other functions read them, byte by byte. -/
def Fonts.byte (fonts : Fonts) (size i : ℕ) : UInt8 := (fonts.table size).getD i 0

/-- The colours of a character are the pixels of its branch. -/
theorem charColours_eq {b : Branch} {size : ℕ} (hsize : FontSize size)
    (hpacks : b.Packs (size / 2) size) (htable : b.table = fonts.table size)
    (hreads : b.Reads data (size * Packed.rowBytes (size / 2))) :
    charColours (fonts.byte size) cs size data = b.pixels cs (size / 2) size := by
  have hbyte : ∀ n ≤ 8, ∀ i pos, i = data.toNat * (size * Packed.rowBytes (size / 2)) →
      byteColours cs n (fonts.byte size (i + pos)) =
        (List.range n).map (bitColour cs (b.byte pos)) := by
    rintro n hn i pos rfl
    rw [byteColours_eq cs _ hn, Branch.byte, htable, hreads.start]
    rfl
  rw [Branch.pixels_eq hpacks, hreads.count]
  unfold charColours
  rcases hsize with rfl | rfl | rfl
  · refine List.flatMap_congr fun pos _ => ?_
    rw [(Packed.used_place_whole (w := 1) (by decide) pos 0).1]
    exact hbyte 8 (Nat.le_refl 8) _ pos (show data.toNat * 16 * 8 / 8 = data.toNat * 16 by omega)
  · refine List.flatMap_congr fun pos _ => ?_
    rw [used_twelve]
    exact hbyte _ (by split <;> decide) _ pos
      (show data.toNat * 384 / 8 = data.toNat * 48 by omega)
  · refine List.flatMap_congr fun pos _ => ?_
    rw [(Packed.used_place_whole (w := 2) (by decide) pos 0).1]
    exact hbyte 8 (Nat.le_refl 8) _ pos (show data.toNat * 32 * 16 / 8 = data.toNat * 64 by omega)

/-- What the function compares a coordinate with is the last place where a
character fits. -/
theorem gt_sub_iff (v : UInt16) {n : UInt32} (hn : n.toNat ≤ 240) :
    v.toUInt32 > UInt32.ofNat 240 - n ↔ v.toNat > 240 - n.toNat := by
  have hsub : (UInt32.ofNat 240 - n).toNat = 240 - n.toNat :=
    UInt32.toNat_sub_of_le _ _ (UInt32.le_iff_toNat_le.mpr hn)
  rw [gt_iff_lt, UInt32.lt_iff_toNat_lt, hsub, UInt16.toNat_toUInt32]

/-- The last column or row of the window, in sixteen bits. -/
theorem last_eq (v : UInt16) {n : UInt32} (hpos : 0 < n.toNat) (hn : v.toNat + n.toNat ≤ 240) :
    (v.toUInt32 + n - 1).toUInt16 = UInt16.ofNat (v.toNat + n.toNat - 1) := by
  have hadd : (v.toUInt32 + n).toNat = v.toNat + n.toNat := by
    rw [UInt32.toNat_add, UInt16.toNat_toUInt32]
    omega
  refine UInt16.toNat_inj.mp ?_
  rw [UInt32.toNat_toUInt16, UInt32.toNat_sub_of_le _ _ (UInt32.le_iff_toNat_le.mpr ?_), hadd,
    UInt16.toNat_ofNat']
  · rfl
  · rw [hadd]
    show 1 ≤ _
    omega

/-- What the sizes have in common: their bounds, and that a glyph fits the
table. -/
theorem fontSize_bounds {size : UInt32} (hsize : FontSize size.toNat) :
    16 ≤ size.toNat ∧ size.toNat ≤ 32 ∧ (size / 2).toNat = size.toNat / 2 ∧
      size.toNat * Packed.rowBytes (size.toNat / 2) ≤ 64 ∧
      size.toNat * (size.toNat / 2) * 2 = (size * size).toNat := by
  rcases fontSize_cases hsize with rfl | rfl | rfl <;> decide

/-- **The loops are the character's colours**, sent or stored, and no read
leaves the table. -/
theorem drv_lcdShowChar_eq {size : UInt32} (hsize : FontSize size.toNat)
    (hdata : 0x20 ≤ data ∧ data ≤ 0x7D) (hfuel : 64 < fuel) (fonts : Fonts) (cs : Colours)
    (x y : UInt16) (fontBuf : Option (Block (size * size).toNat)) :
    Drv.lcdShowChar fuel fonts cs x y data size fontBuf =
      some (lcdShowChar fonts.byte cs x.toNat y.toNat data size.toNat fontBuf.isSome) := by
  obtain ⟨b, hb, hpacks, htable, hreads⟩ := branch_packs fonts hsize ((glyph_lt_iff data).mpr hdata)
  obtain ⟨hlow, hhigh, hhalf, hcount, hbuffer⟩ := fontSize_bounds hsize
  have hrounds : b.count.toNat < fuel := by
    rw [hreads.count]
    omega
  have hright := gt_sub_iff x (n := size / 2) (by omega)
  have hbottom := gt_sub_iff y (n := size) (by omega)
  rw [hhalf] at hright
  unfold Drv.lcdShowChar lcdShowChar lcdW lcdH
  simp only [hright, hbottom]
  by_cases hout : x.toNat > 240 - size.toNat / 2 ∨ y.toNat > 240 - size.toNat
  · rw [if_pos hout, if_pos hout]
  · have hx := last_eq x (n := size / 2) (by omega) (by omega)
    have hy := last_eq y (n := size) (by omega) (by omega)
    rw [hhalf] at hx
    have hknown : size.toNat = 16 ∨ size.toNat = 24 ∨ size.toNat = 32 := hsize
    rw [if_neg hout, if_neg hout, if_pos hknown, hb, charColours_eq hsize hpacks htable hreads]
    simp only [hx, hy, UInt16.ofNat_toNat]
    cases fontBuf with
    | none =>
        simp only [Branch.fast_eq hpacks hrounds (by omega), Option.map_some]
        rfl
    | some buf =>
        obtain ⟨stores, hstores, hplaces, hbytes⟩ :=
          Branch.stores_eq cs hpacks hrounds (by omega)
        rw [hbuffer] at hplaces
        simp only [hstores, Option.map_some]
        rw [List.take_of_length_le (Nat.le_of_eq (Block.length_eq _)), Block.writes_range hplaces,
          hbytes]
        rfl

/-! ## The glyph -/

/-- The bit of a character's glyph at a row and a column. A row is in whole
bytes of the table, the highest bit first. -/
def fontBit (fonts : Fonts) (size : ℕ) (data : UInt8) (row column : ℕ) : Bool :=
  (fonts.byte size (((data - 0x20).toNat * size + row) * Packed.rowBytes (size / 2) +
    column / 8)).toNat.testBit (7 - column % 8)

/-- The colour there: the fore colour where the font has a bit, and the back
colour else. -/
def glyphColour (fonts : Fonts) (cs : Colours) (size : ℕ) (data : UInt8) (row column : ℕ) :
    UInt16 :=
  if fontBit fonts size data row column then cs.fore else cs.back

/-- The window of the character is on the panel, as the function tests it. -/
def FitsPanel (x y : UInt16) (size : ℕ) : Prop :=
  x.toNat + size / 2 ≤ lcdW ∧ y.toNat + size ≤ lcdH

/-- **The colours of a character are its glyph**, row by row. -/
theorem charColours_getElem? (cs : Colours) {size : ℕ} (hsize : FontSize size)
    {b : Branch} (hpacks : b.Packs (size / 2) size) (htable : b.table = fonts.table size)
    (hreads : b.Reads (data - 0x20) (size * Packed.rowBytes (size / 2))) {row column : ℕ}
    (hrow : row < size) (hcolumn : column < size / 2) :
    (charColours (fonts.byte size) cs size (data - 0x20))[row * (size / 2) + column]? =
      some (glyphColour fonts cs size data row column) := by
  have hlt : row * (size / 2) + column < size * (size / 2) := by
    have hrows := Nat.mul_le_mul_right (size / 2) hrow
    rw [Nat.succ_mul] at hrows
    omega
  have hdiv : (row * (size / 2) + column) / (size / 2) = row ∧
      (row * (size / 2) + column) % (size / 2) = column :=
    (Nat.div_mod_unique (by omega)).mpr ⟨by rw [Nat.mul_comm, Nat.add_comm], hcolumn⟩
  have hplace : b.start.toNat + Packed.byteAt (size / 2) (row * (size / 2) + column) =
      ((data - 0x20).toNat * size + row) * Packed.rowBytes (size / 2) + column / 8 := by
    rw [hreads.start, Packed.byteAt, hdiv.1, hdiv.2, Nat.add_mul, Nat.mul_assoc, Nat.add_assoc]
  rw [charColours_eq hsize hpacks htable hreads, Branch.pixels, List.getElem?_map,
    List.getElem?_range hlt, Option.map_some, Branch.pixel, Branch.byte, hplace, Packed.bitAt,
    hdiv.2, htable]
  rfl

/-- The bytes of a character's window and of pixels for it. -/
def glyphBytes (x y : UInt16) (size : ℕ) (pixels : List UInt16) : List BusByte :=
  (lcdAddressSet x y (UInt16.ofNat (x.toNat + size / 2 - 1))
      (UInt16.ofNat (y.toNat + size - 1))).flatMap Write.bytes ++
    pixels.flatMap fun p => (colourBytes p).map .data

/-- `lcd_show_char` renders a character: by a buffer or without, its glyph in
its window and nothing else. -/
structure Renders (fuel : ℕ) (fonts : Fonts) (cs : Colours) (x y : UInt16) (data : UInt8)
    (size : UInt32) : Prop where
  /-- The bytes of `font_buf` are stored from the first to the last, and none
  outside. -/
  buffer : ∃ b stores, branch fonts (data - 0x20) size = some b ∧
    b.stores fuel cs = some stores ∧ stores.map Prod.fst = List.range (size * size).toNat
  /-- Whatever `rt_malloc` returns, the window is followed by the glyph, row by
  row. -/
  stream : ∃ pixels : List UInt16, pixels.length = size.toNat / 2 * size.toNat ∧
    (∀ row < size.toNat, ∀ column < size.toNat / 2,
      pixels[row * (size.toNat / 2) + column]? =
        some (glyphColour fonts cs size.toNat data row column)) ∧
    ∀ fontBuf, ∃ ws, Drv.lcdShowChar fuel fonts cs x y data size fontBuf = some ws ∧
      ws.flatMap Write.bytes = glyphBytes x y size.toNat pixels
  /-- And the glyph fills its place on the panel. -/
  panel : ∀ fontBuf, ∃ ws, Drv.lcdShowChar fuel fonts cs x y data size fontBuf = some ws ∧
    ∀ (s : St7789) (column row : ℕ), (s.run ws).mem column row =
      if (x.toNat ≤ column ∧ column < x.toNat + size.toNat / 2) ∧
          y.toNat ≤ row ∧ row < y.toNat + size.toNat then
        glyphColour fonts cs size.toNat data (row - y.toNat) (column - x.toNat)
      else s.mem column row

/-- The bytes behind the window, with a buffer or without. -/
theorem bytes_colours (colours : List UInt16) (granted : Bool) :
    (if granted then lcdWriteDataBuffer (colours.flatMap colourBytes)
      else colours.flatMap lcdWriteHalfWord).flatMap Write.bytes =
      colours.flatMap fun p => (colourBytes p).map BusByte.data := by
  cases granted with
  | true =>
      rw [if_pos rfl, bytes_writeDataBuffer, List.map_flatMap]
  | false =>
      rw [if_neg Bool.false_ne_true, List.flatMap_assoc]
      exact List.flatMap_congr fun p _ => bytes_writeHalfWord p

theorem glyphBytes_eq (x y : UInt16) (size : ℕ) (pixels : List UInt16) :
    glyphBytes x y size pixels = (lcdAddressSet x y (UInt16.ofNat (x.toNat + size / 2 - 1))
      (UInt16.ofNat (y.toNat + size - 1)) ++
      pixels.flatMap fun p => (colourBytes p).map Write.ram8).flatMap Write.bytes := by
  rw [glyphBytes, List.flatMap_append, ← bytes_colours pixels true, if_pos rfl,
    lcdWriteDataBuffer, List.map_flatMap]

/-- **The bytes are the same with a buffer or without.** -/
theorem bytes_drv_lcdShowChar {size : UInt32} (hsize : FontSize size.toNat)
    (hdata : 0x20 ≤ data ∧ data ≤ 0x7D) (hfuel : 64 < fuel) (fonts : Fonts) (cs : Colours)
    {x y : UInt16} (hfits : FitsPanel x y size.toNat)
    (fontBuf : Option (Block (size * size).toNat)) :
    ∃ ws, Drv.lcdShowChar fuel fonts cs x y data size fontBuf = some ws ∧
      ws.flatMap Write.bytes = glyphBytes x y size.toNat
        (charColours (fonts.byte size.toNat) cs size.toNat (data - 0x20)) := by
  refine ⟨_, drv_lcdShowChar_eq hsize hdata hfuel fonts cs x y fontBuf, ?_⟩
  rw [lcdShowChar_eq (g := ⟨x.toNat, y.toNat, data, fontBuf.isSome, false⟩) hsize hfits,
    List.flatMap_append, bytes_colours, UInt16.ofNat_toNat, UInt16.ofNat_toNat]
  rfl

/-- **And the glyph fills its window**, each pixel of it with its colour. -/
theorem mem_glyphBytes (s : St7789) {x y : UInt16} {size : ℕ} (hsize : FontSize size)
    (hfits : FitsPanel x y size) {ws : List Write} {pixels : List UInt16}
    {colour : ℕ → ℕ → UInt16} (hws : ws.flatMap Write.bytes = glyphBytes x y size pixels)
    (hlength : pixels.length = size / 2 * size)
    (hpixels : ∀ row < size, ∀ column < size / 2,
      pixels[row * (size / 2) + column]? = some (colour row column)) (column row : ℕ) :
    (s.run ws).mem column row =
      if (x.toNat ≤ column ∧ column < x.toNat + size / 2) ∧
          y.toNat ≤ row ∧ row < y.toNat + size then
        colour (row - y.toNat) (column - x.toNat)
      else s.mem column row := by
  obtain ⟨hright, hbottom⟩ := hfits
  change x.toNat + size / 2 ≤ 240 at hright
  change y.toNat + size ≤ 240 at hbottom
  have hlow : 16 ≤ size := by
    rcases hsize with rfl | rfl | rfl <;> decide
  let w : Window := ⟨x.toNat, x.toNat + size / 2 - 1, y.toNat, y.toNat + size - 1⟩
  have hwidth : w.width = size / 2 := show x.toNat + size / 2 - 1 - x.toNat + 1 = _ by omega
  have hheight : w.height = size := show y.toNat + size - 1 - y.toNat + 1 = _ by omega
  have hlast : ∀ v < 240, (UInt16.ofNat v).toNat = v := fun v hv =>
    UInt16.toNat_ofNat'.trans (Nat.mod_eq_of_lt (by omega))
  have hmem := St7789.mem_addressSet_pixels s x y (UInt16.ofNat (x.toNat + size / 2 - 1))
    (UInt16.ofNat (y.toNat + size - 1)) pixels
  rw [hlast _ (by omega), hlast _ (by omega)] at hmem
  rw [St7789.run_congr (hws.trans (glyphBytes_eq x y size pixels))]
  refine (hmem (Nat.le_of_eq ?_) column row).trans ?_
  · show pixels.length = w.width * w.height
    rw [hlength, hwidth, hheight]
  · have hhas : w.Has column row ↔ (x.toNat ≤ column ∧ column < x.toNat + size / 2) ∧
        y.toNat ≤ row ∧ row < y.toNat + size := by
      unfold Window.Has
      rw [hwidth, hheight, and_assoc]
    by_cases hin : w.Has column row
    · obtain ⟨⟨hx, hx'⟩, hy, hy'⟩ := hhas.mp hin
      have hindex : w.index column row =
          (row - y.toNat) * (size / 2) + (column - x.toNat) := by
        unfold Window.index
        rw [hwidth]
      rw [if_pos hin, if_pos (hhas.mp hin), List.getD_eq_getElem?_getD]
      show (pixels[w.index column row]?).getD _ = _
      rw [hindex, hpixels _ (by omega) _ (by omega)]
      rfl
    · rw [if_neg hin, if_neg (mt hhas.mpr hin)]

/-- **`lcd_show_char` renders every character of its tables**: the same bytes
go out with a buffer or without, the buffer is filled before it is sent and
no store falls outside, and the window takes the glyph. Where the window
does not fit on the panel nothing is sent. -/
theorem lcdShowChar_renders (fonts : Fonts) (cs : Colours) (x y : UInt16) (data : UInt8)
    (size : UInt32) (hsize : FontSize size.toNat) (hdata : 0x20 ≤ data ∧ data ≤ 0x7D) (fuel : ℕ)
    (hfuel : 64 < fuel) :
    (FitsPanel x y size.toNat → Renders fuel fonts cs x y data size) ∧
    (¬FitsPanel x y size.toNat →
      ∀ fontBuf, Drv.lcdShowChar fuel fonts cs x y data size fontBuf = some []) := by
  obtain ⟨b, hb, hpacks, htable, hreads⟩ := branch_packs fonts hsize ((glyph_lt_iff data).mpr hdata)
  obtain ⟨hlow, hhigh, -, hcount, hbuffer⟩ := fontSize_bounds hsize
  constructor
  · intro hfits
    have hrounds : b.count.toNat < fuel := by
      rw [hreads.count]
      omega
    obtain ⟨stores, hstores, hplaces, -⟩ := Branch.stores_eq cs hpacks hrounds (by omega)
    have hpixels := fun row (hrow : row < size.toNat) column (hcolumn : column < size.toNat / 2) =>
      charColours_getElem? cs hsize hpacks htable hreads hrow hcolumn
    have hlength : (charColours (fonts.byte size.toNat) cs size.toNat (data - 0x20)).length =
        size.toNat / 2 * size.toNat := by
      rw [charColours_eq hsize hpacks htable hreads, Branch.pixels, List.length_map,
        List.length_range, Nat.mul_comm]
    have hbytes := bytes_drv_lcdShowChar hsize hdata hfuel fonts cs hfits
    refine ⟨⟨b, stores, hb, hstores, hplaces.trans (by rw [hbuffer])⟩,
      ⟨_, hlength, hpixels, hbytes⟩, fun fontBuf => ?_⟩
    obtain ⟨ws, hrun, hws⟩ := hbytes fontBuf
    exact ⟨ws, hrun, fun s column row => mem_glyphBytes s hsize hfits hws hlength hpixels column row⟩
  · intro hout fontBuf
    unfold FitsPanel lcdW lcdH at hout
    rw [drv_lcdShowChar_eq hsize hdata hfuel, lcdShowChar, if_pos]
    unfold lcdW lcdH
    omega

/-- A letter in the lower right corner, from tables of stripes. -/
theorem lcdShowChar_renders_corner :
    Renders 65 ⟨Vector.replicate _ 0xAA, Vector.replicate _ 0xAA, Vector.replicate _ 0xAA⟩
      ⟨red, blue⟩ 228 216 0x41 24 :=
  (lcdShowChar_renders _ _ 228 216 0x41 24 (Or.inr (Or.inl rfl)) ⟨by decide, by decide⟩ 65
    (by decide)).1 ⟨by decide, by decide⟩

end Lcd

end WeatherTerminal
