import Mathlib.Tactic.Common
import WeatherTerminal.Common.Packed
import WeatherTerminal.Lcd.Bus
import WeatherTerminal.Lcd.Model.Flush
/-!
# What a flush leaves on the panel

The loops of `lcd_fill_array` send one pixel for every cell of the window
they open, in the order the controller fills it. So a flush of an area
puts its buffer there and nothing elsewhere, and areas that make up the
screen leave what one flush of the screen does.
-/

namespace WeatherTerminal

namespace Lcd

variable {s : St7789} {x y : ℕ}

/-! ## The loops -/

/-- The pixels of a row, each by its two bytes, the high one first. -/
def sendRow (pcolor : ℕ → UInt16) (first columns : ℕ) : List Write :=
  (List.range columns).flatMap fun column => (colourBytes (pcolor (first + column))).map .ram8

/-- And those of the first rows, one row behind the other. -/
def sendRows (pcolor : ℕ → UInt16) (columns rows : ℕ) : List Write :=
  (List.range rows).flatMap fun row => sendRow pcolor (row * columns) columns

theorem uint16_ofNat_succ (n : ℕ) : UInt16.ofNat n + 1 = UInt16.ofNat (n + 1) :=
  (UInt16.ofNat_add n 1).symm

/-- One turn of the loop over `x_offset` sends a row. -/
theorem fillArrayRow_eq {fuel : ℕ} {xStart xEnd : UInt16} {columns : ℕ}
    (hcolumns : columns = xEnd.toNat + 1 - xStart.toNat) (hend : columns < 2 ^ 16)
    (hfuel : columns < fuel) (pcolor : ℕ → UInt16) (sent : Sent) :
    fillArrayRow fuel xStart xEnd pcolor sent =
      some ⟨sent.writes ++ sendRow pcolor sent.pixel columns, sent.pixel + columns⟩ := by
  have hcounter : ∀ k ≤ columns, (UInt16.ofNat k).toNat = k := fun k hk =>
    (UInt16.toNat_ofNat').trans (Nat.mod_eq_of_lt (by omega))
  -- after `k` rounds `k` pixels are sent and `x_offset` is `k`
  have hloop := loop_eq_some
    (fun s : Sent × UInt16 => decide (xStart.toNat + s.2.toNat ≤ xEnd.toNat))
    (fun s => some (s.1.send pcolor, s.2 + 1))
    (fun k => ((⟨sent.writes ++ sendRow pcolor sent.pixel k, sent.pixel + k⟩ : Sent),
      UInt16.ofNat k)) hfuel ?_ ?_
  · have hstart : sent.writes ++ sendRow pcolor sent.pixel 0 = sent.writes := List.append_nil _
    simp only [hstart, Nat.add_zero] at hloop
    unfold fillArrayRow
    rw [show (0 : UInt16) = UInt16.ofNat 0 from rfl, hloop]
    rfl
  · intro k hk
    refine ⟨?_, ?_⟩
    · show decide (xStart.toNat + (UInt16.ofNat k).toNat ≤ xEnd.toNat) = true
      rw [hcounter k (by omega)]
      exact decide_eq_true (by omega)
    · show some (_, UInt16.ofNat k + 1) = some (_, UInt16.ofNat (k + 1))
      rw [uint16_ofNat_succ, sendRow, flatMap_range_succ, ← List.append_assoc]
      rfl
  · show decide (xStart.toNat + (UInt16.ofNat columns).toNat ≤ xEnd.toNat) = false
    rw [hcounter columns (Nat.le_refl _)]
    exact decide_eq_false (by omega)

/-- **`lcd_fill_array` ends, and sends its window's worth of pixels**, row by
row. -/
theorem fillArrayLoops_eq {fuel : ℕ} {xStart yStart xEnd yEnd : UInt16}
    (hx : xStart.toNat ≤ xEnd.toNat) (hxEnd : xEnd.toNat < 2 ^ 16 - 1)
    (hy : yStart.toNat ≤ yEnd.toNat) (hyEnd : yEnd.toNat < 2 ^ 16 - 1)
    (hcolumns : xEnd.toNat + 1 - xStart.toNat < fuel)
    (hrows : yEnd.toNat + 1 - yStart.toNat < fuel) (pcolor : ℕ → UInt16) :
    fillArrayLoops fuel xStart yStart xEnd yEnd pcolor =
      some ⟨lcdFillArray xStart yStart xEnd yEnd pcolor,
        (yEnd.toNat + 1 - yStart.toNat) * (xEnd.toNat + 1 - xStart.toNat)⟩ := by
  have hcounter : ∀ k ≤ yEnd.toNat + 1 - yStart.toNat,
      (UInt16.ofNat (yStart.toNat + k)).toNat = yStart.toNat + k := fun k hk =>
    (UInt16.toNat_ofNat').trans (Nat.mod_eq_of_lt (by omega))
  -- after `k` rounds `k` rows are sent and `cycle_y` is `k` rows down
  have hloop := loop_eq_some (fun s : Sent × UInt16 => decide (s.2 ≤ yEnd))
    (fun s => (fillArrayRow fuel xStart xEnd pcolor s.1).map fun sent => (sent, s.2 + 1))
    (fun k => ((⟨lcdAddressSet xStart yStart xEnd yEnd ++
        sendRows pcolor (xEnd.toNat + 1 - xStart.toNat) k,
      k * (xEnd.toNat + 1 - xStart.toNat)⟩ : Sent), UInt16.ofNat (yStart.toNat + k)))
    hrows ?_ ?_
  · have hstart : lcdAddressSet xStart yStart xEnd yEnd ++
        sendRows pcolor (xEnd.toNat + 1 - xStart.toNat) 0 =
        lcdAddressSet xStart yStart xEnd yEnd := List.append_nil _
    simp only [hstart, Nat.zero_mul, Nat.add_zero, UInt16.ofNat_toNat] at hloop
    unfold fillArrayLoops
    rw [hloop]
    rfl
  · intro k hk
    refine ⟨?_, ?_⟩
    · refine decide_eq_true (UInt16.le_iff_toNat_le.mpr ?_)
      rw [hcounter k (by omega)]
      omega
    · simp only [fillArrayRow_eq rfl (by omega : xEnd.toNat + 1 - xStart.toNat < 2 ^ 16) hcolumns,
        Option.map_some, uint16_ofNat_succ, Nat.succ_mul, Nat.add_assoc, List.append_assoc]
      rw [sendRows, sendRows, flatMap_range_succ]
  · refine decide_eq_false fun hle => ?_
    have := UInt16.le_iff_toNat_le.mp hle
    rw [hcounter _ (Nat.le_refl _)] at this
    omega

/-! ## The panel -/

/-- A `lcd_fill_array` is its window and one stream of pixels. -/
theorem lcdFillArray_eq (xStart yStart xEnd yEnd : UInt16) (pixel : ℕ → UInt16) :
    lcdFillArray xStart yStart xEnd yEnd pixel =
      lcdAddressSet xStart yStart xEnd yEnd ++
        ((List.range ((yEnd.toNat + 1 - yStart.toNat) * (xEnd.toNat + 1 - xStart.toNat))).map
          pixel).flatMap fun p => (colourBytes p).map .ram8 := by
  rw [List.flatMap_map, ← flatMap_rows (fun k => (colourBytes (pixel k)).map Write.ram8)]
  rfl

/-- **A `lcd_fill_array` puts its pixels into its window**, row by row, and
leaves the rest. -/
theorem mem_lcdFillArray (s : St7789) {xStart yStart xEnd yEnd : UInt16}
    (hx : xStart.toNat ≤ xEnd.toNat) (hy : yStart.toNat ≤ yEnd.toNat) (pixel : ℕ → UInt16)
    (x y : ℕ) :
    (s.run (lcdFillArray xStart yStart xEnd yEnd pixel)).mem x y =
      if Window.Has ⟨xStart.toNat, xEnd.toNat, yStart.toNat, yEnd.toNat⟩ x y then
        pixel (Window.index ⟨xStart.toNat, xEnd.toNat, yStart.toNat, yEnd.toNat⟩ x y)
      else s.mem x y := by
  have hsize : (yEnd.toNat + 1 - yStart.toNat) * (xEnd.toNat + 1 - xStart.toNat) =
      Window.size ⟨xStart.toNat, xEnd.toNat, yStart.toNat, yEnd.toNat⟩ := by
    rw [Nat.sub_add_comm hx, Nat.sub_add_comm hy, Nat.mul_comm]
    rfl
  rw [lcdFillArray_eq, hsize]
  refine (St7789.mem_addressSet_pixels s xStart yStart xEnd yEnd _ ?_ x y).trans ?_
  · exact Nat.le_of_eq ((List.length_map _).trans List.length_range)
  · by_cases hhas : Window.Has ⟨xStart.toNat, xEnd.toNat, yStart.toNat, yEnd.toNat⟩ x y
    · rw [if_pos hhas, if_pos hhas, List.getD_eq_getElem?_getD, List.getElem?_map,
        List.getElem?_range (Window.index_lt hhas)]
      rfl
    · rw [if_neg hhas, if_neg hhas]

/-! ## Areas -/

/-- A coordinate that fits sixteen bits is the same in them. -/
theorem toNat_uint16 {k : ℕ} (hk : k < 2 ^ 16) : (uint16 k).toNat = k := by
  show (UInt16.ofInt k).toNat = k
  rw [UInt16.ofInt, UInt16.toNat_ofNat']
  omega

namespace Area

variable {a : Area}

/-- The window of an area, with the same corners. -/
def window (a : Area) : Window := ⟨a.x1.toNat, a.x2.toNat, a.y1.toNat, a.y2.toNat⟩

/-- An area has the pixels between its corners, those among them. -/
theorem covers_mk {x1 y1 x2 y2 : ℤ} :
    Area.Covers ⟨x1, y1, x2, y2⟩ x y ↔ (x1 ≤ x ∧ x ≤ x2) ∧ y1 ≤ y ∧ y ≤ y2 := Iff.rfl

/-- The columns of an area are those of its window. -/
theorem width_eq (h : a.OnScreen) : a.x2 - a.x1 + 1 = ((a.window.width : ℕ) : ℤ) := by
  obtain ⟨⟨hx₁, hx, -⟩, -⟩ := h
  show _ = ((a.x2.toNat - a.x1.toNat + 1 : ℕ) : ℤ)
  omega

theorem height_eq (h : a.OnScreen) : a.y2 - a.y1 + 1 = ((a.window.height : ℕ) : ℤ) := by
  obtain ⟨-, hy₁, hy, -⟩ := h
  show _ = ((a.y2.toNat - a.y1.toNat + 1 : ℕ) : ℤ)
  omega

theorem columns_eq (h : a.OnScreen) : a.columns = a.window.width := by
  rw [columns, width_eq h, Int.toNat_natCast]

/-- The pixels of an area are those of its window. -/
theorem size_eq (h : a.OnScreen) : a.size = a.window.height * a.window.width := by
  rw [size, width_eq h, height_eq h, ← Int.natCast_mul, Int.toNat_natCast, Nat.mul_comm]

theorem covers_iff (h : a.OnScreen) (x y : ℕ) : a.Covers x y ↔ a.window.Has x y := by
  have hwidth := width_eq h
  have hheight := height_eq h
  obtain ⟨⟨hx₁, -, -⟩, hy₁, -, -⟩ := h
  show ((a.x1 ≤ x ∧ x ≤ a.x2) ∧ a.y1 ≤ y ∧ y ≤ a.y2) ↔
    a.x1.toNat ≤ x ∧ x < a.x1.toNat + a.window.width ∧
      a.y1.toNat ≤ y ∧ y < a.y1.toNat + a.window.height
  omega

/-- A pixel's place in the buffer is its place in the window. -/
theorem offset_eq (h : a.OnScreen) (hcovers : a.Covers x y) :
    a.offset x y = a.window.index x y := by
  have hwidth := width_eq h
  obtain ⟨⟨hx₁, -, -⟩, hy₁, -, -⟩ := h
  obtain ⟨⟨hleft, -⟩, htop, -⟩ := hcovers
  have hcol : (x : ℤ) - a.x1 = ((x - a.x1.toNat : ℕ) : ℤ) := by omega
  have hrow : (y : ℤ) - a.y1 = ((y - a.y1.toNat : ℕ) : ℤ) := by omega
  rw [offset, hwidth, hcol, hrow, ← Int.natCast_mul, ← Int.natCast_add, Int.toNat_natCast]
  rfl

end Area

/-- **A flush ends, takes the whole buffer of the area, and puts it there.** -/
theorem dispFlush_eq {fuel : ℕ} (hfuel : 240 < fuel) {a : Area} (h : a.OnScreen)
    (colorP : ℕ → UInt16) :
    ∃ ws, dispFlush fuel a colorP = some ⟨ws, a.size⟩ ∧ ∀ (s : St7789) (x y : ℕ),
      (s.run ws).mem x y = if a.Covers x y then colorP (a.offset x y) else s.mem x y := by
  have hsize := Area.size_eq h
  have hcovers := Area.covers_iff h
  have hoffset := fun x y => Area.offset_eq (x := x) (y := y) h
  obtain ⟨⟨hx₁, hx, hx₂⟩, hy₁, hy, hy₂⟩ := h
  change a.x2 < 240 at hx₂
  change a.y2 < 240 at hy₂
  -- on the screen no coordinate is cut
  have hto : ∀ v : ℤ, 0 ≤ v → v < 240 → (uint16 v).toNat = v.toNat := by
    intro v hv hlt
    obtain ⟨k, rfl⟩ := Int.eq_ofNat_of_zero_le hv
    exact toNat_uint16 (by omega)
  have hX₁ := hto a.x1 hx₁ (by omega)
  have hX₂ := hto a.x2 (by omega) hx₂
  have hY₁ := hto a.y1 hy₁ (by omega)
  have hY₂ := hto a.y2 (by omega) hy₂
  refine ⟨lcdFillArray (uint16 a.x1) (uint16 a.y1) (uint16 a.x2) (uint16 a.y2) colorP, ?_, ?_⟩
  · unfold dispFlush
    rw [fillArrayLoops_eq (by omega) (by omega) (by omega) (by omega) (by omega) (by omega), hX₁,
      hX₂, hY₁, hY₂, hsize, Nat.sub_add_comm (by omega), Nat.sub_add_comm (by omega)]
    rfl
  · intro s x y
    rw [mem_lcdFillArray s (by omega) (by omega), hX₁, hX₂, hY₁, hY₂]
    by_cases hin : a.Covers x y
    · rw [if_pos hin, hoffset x y hin]
      exact if_pos ((hcovers x y).mp hin)
    · rw [if_neg hin]
      exact if_neg (mt (hcovers x y).mpr hin)

/-! ## Partitions -/

/-- The buffer of an area holds the screen's pixels at their places in the
area. -/
theorem Area.buffer_offset {a : Area} (h : a.OnScreen) (hcovers : a.Covers x y)
    (screen : ℕ → ℕ → UInt16) : a.buffer screen (a.offset x y) = screen x y := by
  have hhas := (Area.covers_iff h x y).mp hcovers
  have hcell := (Window.cell_eq_iff hhas (a.window.index x y)).mpr
    (Nat.mod_eq_of_lt (Window.index_lt hhas))
  have hrow : a.window.index x y / a.window.width < a.window.height :=
    Nat.div_lt_of_lt_mul (Window.index_lt hhas)
  rw [Window.cell, Prod.mk.injEq, Nat.mod_eq_of_lt hrow] at hcell
  obtain ⟨hcol, hdown⟩ := hcell
  rw [Area.buffer, Area.offset_eq h hcovers, Area.columns_eq h]
  exact congrArg₂ screen hcol hdown

/-- What areas of one screen leave, in any order: the screen in all of them,
and the rest as it was. -/
theorem flushes_eq {fuel : ℕ} (hfuel : 240 < fuel) (screen : ℕ → ℕ → UInt16) {areas : List Area}
    (h : ∀ a ∈ areas, a.OnScreen) :
    ∃ ws, flushes fuel screen areas = some ws ∧ ∀ (s : St7789) (x y : ℕ),
      (s.run ws).mem x y = if ∃ a ∈ areas, a.Covers x y then screen x y else s.mem x y := by
  induction areas with
  | nil =>
      refine ⟨[], rfl, fun s x y => ?_⟩
      rw [if_neg (by rintro ⟨a, ha, -⟩; exact List.not_mem_nil ha)]
      rfl
  | cons a areas ih =>
      have ha : a.OnScreen := h a List.mem_cons_self
      obtain ⟨ws, hws, hmem⟩ := dispFlush_eq hfuel ha (a.buffer screen)
      obtain ⟨rest, hrest, hrestMem⟩ := ih fun b hb => h b (List.mem_cons_of_mem a hb)
      refine ⟨ws ++ rest, by rw [flushes, hws, hrest]; rfl, fun s x y => ?_⟩
      rw [St7789.run_append, hrestMem, hmem]
      -- a later area shows the same screen, so it may cover this one
      by_cases hlater : ∃ b ∈ areas, b.Covers x y
      · rw [if_pos hlater, if_pos]
        obtain ⟨b, hb, hcovers⟩ := hlater
        exact ⟨b, List.mem_cons_of_mem a hb, hcovers⟩
      · rw [if_neg hlater]
        by_cases hhere : a.Covers x y
        · rw [if_pos hhere, if_pos ⟨a, List.mem_cons_self, hhere⟩, Area.buffer_offset ha hhere]
        · rw [if_neg hhere, if_neg]
          rintro ⟨b, hb, hcovers⟩
          rcases List.mem_cons.mp hb with rfl | hb
          · exact hhere hcovers
          · exact hlater ⟨b, hb, hcovers⟩

/-- The whole screen is an area on the screen. -/
theorem Area.onScreen_screen : Area.screen.OnScreen := by decide

theorem Area.covers_screen : Area.screen.Covers x y ↔ x < 240 ∧ y < 240 := by
  refine Area.covers_mk.trans ?_
  show (0 ≤ (x : ℤ) ∧ (x : ℤ) ≤ 239) ∧ 0 ≤ (y : ℤ) ∧ (y : ℤ) ≤ 239 ↔ _
  omega

/-- Areas that make up the screen cover what it covers. -/
theorem Partition.covers_iff {areas : List Area} (h : Partition areas) :
    (∃ a ∈ areas, a.Covers x y) ↔ Area.screen.Covers x y := by
  rw [Area.covers_screen]
  constructor
  · rintro ⟨a, ha, hcovers⟩
    obtain ⟨⟨-, -, hx₂⟩, -, -, hy₂⟩ := h.onScreen a ha
    obtain ⟨⟨-, hright⟩, -, hbottom⟩ := hcovers
    change a.x2 < 240 at hx₂
    change a.y2 < 240 at hy₂
    omega
  · rintro ⟨hx, hy⟩
    exact h.covers x hx y hy

/-- **A flush is exact**: with fuel for a row and for a column of the panel
its loops end, the whole buffer of the area is taken, the area holds it and
nothing else changes. **And areas that make up the screen, flushed in any
order, leave what one flush of the screen leaves.** -/
theorem dispFlush_exact (fuel : ℕ) (hfuel : 240 < fuel) :
    (∀ (s : St7789) (area : Area) (colorP : ℕ → UInt16), area.OnScreen →
      ∃ ws, dispFlush fuel area colorP = some ⟨ws, area.size⟩ ∧ ∀ x y : ℕ,
        (s.run ws).mem x y =
          if area.Covers x y then colorP (area.offset x y) else s.mem x y) ∧
    ∀ (s : St7789) (screen : ℕ → ℕ → UInt16) (areas : List Area), Partition areas →
      ∃ ws sent, flushes fuel screen areas = some ws ∧
        dispFlush fuel Area.screen (Area.screen.buffer screen) = some sent ∧
        (s.run ws).mem = (s.run sent.writes).mem := by
  refine ⟨fun s area colorP h => ?_, fun s screen areas h => ?_⟩
  · obtain ⟨ws, hws, hmem⟩ := dispFlush_eq hfuel h colorP
    exact ⟨ws, hws, hmem s⟩
  · obtain ⟨ws, hws, hmem⟩ := flushes_eq hfuel screen h.onScreen
    obtain ⟨whole, hwhole, hwholeMem⟩ :=
      dispFlush_eq hfuel Area.onScreen_screen (Area.screen.buffer screen)
    refine ⟨ws, _, hws, hwhole, funext fun x => funext fun y => ?_⟩
    rw [hmem, hwholeMem]
    by_cases hcovers : Area.screen.Covers x y
    · rw [if_pos (h.covers_iff.mpr hcovers), if_pos hcovers,
        Area.buffer_offset Area.onScreen_screen hcovers]
    · rw [if_neg (mt h.covers_iff.mp hcovers), if_neg hcovers]

/-- The right half of a dark screen before the left one. -/
theorem dispFlush_exact_halves :
    (∀ (s : St7789) (area : Area) (colorP : ℕ → UInt16), area.OnScreen →
      ∃ ws, dispFlush 241 area colorP = some ⟨ws, area.size⟩ ∧ ∀ x y : ℕ,
        (s.run ws).mem x y =
          if area.Covers x y then colorP (area.offset x y) else s.mem x y) ∧
    Area.OnScreen ⟨120, 0, 239, 239⟩ ∧
    ∃ ws sent, flushes 241 (fun _ _ => 0) [⟨120, 0, 239, 239⟩, ⟨0, 0, 119, 239⟩] = some ws ∧
      dispFlush 241 Area.screen (Area.screen.buffer fun _ _ => 0) = some sent ∧
      ((St7789.powerOn fun _ _ => 0xFFFF).run ws).mem =
        ((St7789.powerOn fun _ _ => 0xFFFF).run sent.writes).mem := by
  refine ⟨(dispFlush_exact 241 (by omega)).1, by decide,
    (dispFlush_exact 241 (by omega)).2 _ _ _ ⟨?_, ?_, ?_⟩⟩
  · intro a ha
    rcases List.mem_cons.mp ha with rfl | ha
    · decide
    · obtain rfl := List.mem_singleton.mp ha
      decide
  · refine List.pairwise_pair.mpr fun x y => ?_
    rw [Area.covers_mk, Area.covers_mk]
    omega
  · intro x hx y hy
    change x < 240 at hx
    change y < 240 at hy
    by_cases hhalf : x < 120
    · exact ⟨_, List.mem_cons_of_mem _ List.mem_cons_self, Area.covers_mk.mpr (by omega)⟩
    · exact ⟨_, List.mem_cons_self, Area.covers_mk.mpr (by omega)⟩

end Lcd

end WeatherTerminal
