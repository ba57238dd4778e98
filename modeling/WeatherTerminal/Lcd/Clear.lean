import WeatherTerminal.Lcd.Bus
/-!
# When the panel is cleared

`lcd_clear` asks `LCD_SetCursor` to go to the corner, which asks for
another controller and does nothing, so the pixels go into the window the
last call left; and they go with their bytes exchanged. What is outside
that window stays.
-/

namespace WeatherTerminal

namespace Lcd

variable {s : St7789} {x y : ℕ}

/-! ## Windows the driver leaves -/

/-- The window of power-on, or one with its corners on the panel. -/
def Settled (w : Window) : Prop :=
  w = ⟨0, 239, 0, 319⟩ ∨
    (w.x₁ < lcddev.width ∧ w.x₂ < lcddev.width) ∧ w.y₁ < lcddev.height ∧ w.y₂ < lcddev.height

/-- A window whose corners are on the panel is one of the driver's. -/
theorem settled_of_onPanel {x1 y1 x2 y2 : UInt16} (h₁ : OnPanel x1 y1) (h₂ : OnPanel x2 y2) :
    Settled ⟨x1.toNat, x2.toNat, y1.toNat, y2.toNat⟩ :=
  Or.inr ⟨⟨h₁.1, h₂.1⟩, h₁.2, h₂.2⟩

/-- **A panel's worth of pixels reaches every cell of the window that is on
the panel.** -/
theorem Settled.index_lt {w : Window} (h : Settled w) (hx : x < lcddev.width)
    (hy : y < lcddev.height) (hhas : w.Has x y) :
    w.index x y < lcddev.width * lcddev.height := by
  rcases h with rfl | ⟨⟨hx₁, hx₂⟩, hy₁, hy₂⟩
  · show (y - 0) * 240 + (x - 0) < 240 * 240
    change x < 240 at hx
    change y < 240 at hy
    omega
  · refine Nat.lt_of_lt_of_le (Window.index_lt hhas) (Nat.mul_le_mul ?_ ?_)
    · unfold Window.width
      omega
    · unfold Window.height
      omega

theorem Settled.corner {w : Window} (h : Settled w) :
    w.x₁ < lcddev.width ∧ w.y₁ < lcddev.height ∧ w.Has w.x₁ w.y₁ := by
  have hhas : w.Has w.x₁ w.y₁ :=
    ⟨Nat.le_refl _, Nat.lt_add_of_pos_right Window.width_pos, Nat.le_refl _,
      Nat.lt_add_of_pos_right Window.height_pos⟩
  rcases h with rfl | ⟨⟨hx₁, -⟩, hy₁, -⟩
  · exact ⟨by decide, by decide, hhas⟩
  · exact ⟨hx₁, hy₁, hhas⟩

/-! ## The calls -/

/-- A buffer is sent as data. -/
theorem isData_writeDataBuffer (buf : List UInt8) :
    ∀ w ∈ lcdWriteDataBuffer buf, St7789.IsData w := by
  intro w hw
  obtain ⟨v, -, rfl⟩ := List.mem_map.mp hw
  exact trivial

theorem isData_writeHalfWord (da : UInt16) : ∀ w ∈ lcdWriteHalfWord da, St7789.IsData w := by
  intro w hw
  obtain rfl := List.mem_singleton.mp hw
  exact trivial

/-- Two rows of such stores are one. -/
theorem isData_append {ws vs : List Write} (hws : ∀ w ∈ ws, St7789.IsData w)
    (hvs : ∀ w ∈ vs, St7789.IsData w) : ∀ w ∈ ws ++ vs, St7789.IsData w :=
  fun w hw => (List.mem_append.mp hw).elim (hws w) (hvs w)

theorem isData_flatMap {α : Type} {l : List α} {f : α → List Write}
    (hf : ∀ a, ∀ w ∈ f a, St7789.IsData w) : ∀ w ∈ l.flatMap f, St7789.IsData w := by
  intro w hw
  obtain ⟨a, -, ha⟩ := List.mem_flatMap.mp hw
  exact hf a w ha

theorem isData_fillLoop (color : UInt16) (size sizeRemain : ℕ) :
    ∀ w ∈ fillLoop color size sizeRemain, St7789.IsData w := by
  induction size, sizeRemain using fillLoop.induct with
  | case1 size sizeRemain ihMore ihLast =>
      rw [fillLoop]
      refine isData_append (isData_writeDataBuffer _) ?_
      by_cases hzero : sizeRemain = 0
      · rw [if_pos hzero]
        exact fun _ h => absurd h List.not_mem_nil
      · rw [if_neg hzero]
        by_cases hmore : sizeRemain > lcdClearSendNumber
        · rw [if_pos hmore]
          exact ihMore hmore
        · rw [if_neg hmore]
          exact ihLast hzero hmore

/-- A window set, and pixels behind it: the window is the one that was set. -/
theorem run_addressSet_window (s : St7789) (x1 y1 x2 y2 : UInt16) {ws : List Write}
    (hws : ∀ w ∈ ws, St7789.IsData w) :
    (s.run (lcdAddressSet x1 y1 x2 y2 ++ ws)).window =
      ⟨x1.toNat, x2.toNat, y1.toNat, y2.toNat⟩ := by
  rw [St7789.run_append, St7789.run_addressSet]
  exact St7789.run_data_window ⟨none, rfl⟩ hws

/-! ## The clear -/

/-- A clear starts at the corner of the window there is, and sends a pixel for
each of the panel. -/
theorem run_lcdClear (s : St7789) (c : UInt16) :
    s.run (lcdClear c) =
      ⟨s.raster.corner.puts
        (List.replicate (lcddev.width * lcddev.height) (changeByteOrder c)), .ram none⟩ := by
  rw [lcdClear, St7789.lcdSetCursor_eq, List.nil_append, ← List.map_replicate, St7789.run_append,
    St7789.run_prepare, St7789.run_ram16 rfl, List.map_replicate]

/-- One colour over and over, from the corner of the window. -/
theorem mem_corner_puts (s : St7789) (n : ℕ) (p : UInt16) (x y : ℕ) :
    St7789.mem ⟨s.raster.corner.puts (List.replicate n p), .ram none⟩ x y =
      if s.window.Has x y ∧ s.window.index x y < n then p else s.mem x y :=
  Raster.puts_replicate_mem Window.cell_zero.symm n p x y

/-- Starting at the corner and putting pixels leave the window. -/
theorem window_corner_puts (s : St7789) (n : ℕ) (p : UInt16) :
    St7789.window ⟨s.raster.corner.puts (List.replicate n p), .ram none⟩ = s.window :=
  Raster.puts_window _

/-- **What a clear leaves in a pixel**: the colour in the other byte order, if
the window has the pixel. -/
theorem mem_lcdClear (s : St7789) (c : UInt16) (x y : ℕ) :
    (s.run (lcdClear c)).mem x y =
      if s.window.Has x y ∧ s.window.index x y < lcddev.width * lcddev.height then
        changeByteOrder c
      else s.mem x y :=
  (congrArg (fun t => St7789.mem t x y) (run_lcdClear s c)).trans (mem_corner_puts s _ _ x y)

theorem window_lcdClear (s : St7789) (c : UInt16) : (s.run (lcdClear c)).window = s.window :=
  (congrArg St7789.window (run_lcdClear s c)).trans (window_corner_puts s _ _)

/-- A coordinate of the panel is the same in sixteen bits. -/
theorem toNat_ofNat_lt {k : ℕ} (h : k < 240) : (UInt16.ofNat k).toNat < 240 := by
  rw [UInt16.toNat_ofNat', Nat.mod_eq_of_lt (by omega)]
  exact h

/-- A character leaves a window of the driver, whether it is shown or not. -/
theorem settled_lcdShowChar (fonts : ℕ → ℕ → UInt8) (cs : Colours) (x y : ℕ) (data : UInt8)
    (size : ℕ) (granted : Bool) (h : Settled s.window) :
    Settled (s.run (lcdShowChar fonts cs x y data size granted)).window := by
  unfold lcdShowChar
  by_cases hout : x > lcdW - size / 2 ∨ y > lcdH - size
  · rw [if_pos hout]
    exact h
  · rw [if_neg hout]
    by_cases hsize : size = 16 ∨ size = 24 ∨ size = 32
    · have hdata : ∀ ws : List Write, (∀ w ∈ ws, St7789.IsData w) →
          Settled (s.run (lcdAddressSet (UInt16.ofNat x) (UInt16.ofNat y)
            (UInt16.ofNat (x + size / 2 - 1)) (UInt16.ofNat (y + size - 1)) ++ ws)).window := by
        intro ws hws
        rw [run_addressSet_window s _ _ _ _ hws]
        obtain ⟨hx, hy⟩ := not_or.mp hout
        unfold lcdW at hx
        unfold lcdH at hy
        refine settled_of_onPanel ⟨?_, ?_⟩ ⟨?_, ?_⟩
        · exact toNat_ofNat_lt (by omega)
        · exact toNat_ofNat_lt (by omega)
        · exact toNat_ofNat_lt (by omega)
        · exact toNat_ofNat_lt (by omega)
      rw [if_pos hsize]
      cases granted with
      | true => exact hdata _ (isData_writeDataBuffer _)
      | false => exact hdata _ (isData_flatMap isData_writeHalfWord)
    · rw [if_neg hsize]
      exact h

theorem settled_showChars (fonts : ℕ → ℕ → UInt8) (cs : Colours) (size : ℕ) (x y : ℕ)
    (text : List (UInt8 × Bool)) (h : Settled s.window) :
    Settled (s.run (showChars fonts cs size x y text)).window := by
  induction text generalizing s x y with
  | nil => exact h
  | cons c text ih =>
      rw [showChars]
      -- the bottom of the panel clears it, which leaves the window
      by_cases hbottom : (if x > lcdW - size / 2 then (0, y + size) else (x, y)).2 > lcdH - size
      · simp only [if_pos hbottom]
        rw [St7789.run_append, St7789.run_append]
        refine ih _ _ (settled_lcdShowChar fonts cs _ _ _ _ _ ?_)
        rw [window_lcdClear]
        exact h
      · simp only [if_neg hbottom]
        rw [St7789.run_append, List.nil_append]
        exact ih _ _ (settled_lcdShowChar fonts cs _ _ _ _ _ h)

/-- **A call on the panel leaves a window on the panel.** -/
theorem settled_call (fonts : ℕ → ℕ → UInt8) {k : Call} (hk : k.InPanel) (h : Settled s.window) :
    Settled (s.run (k.writes fonts)).window := by
  -- a call sets a window of its own, or leaves the one it finds
  cases k with
  | addressSet x1 y1 x2 y2 =>
      show Settled (s.run (lcdAddressSet x1 y1 x2 y2)).window
      rw [St7789.run_addressSet]
      exact settled_of_onPanel hk.1 hk.2
  | fillArray x1 y1 x2 y2 pixel =>
      show Settled (s.run (lcdFillArray x1 y1 x2 y2 pixel)).window
      rw [lcdFillArray, run_addressSet_window]
      · exact settled_of_onPanel hk.1 hk.2
      · exact isData_flatMap fun _ => isData_flatMap fun _ => isData_writeDataBuffer _
  | drawPoint x y =>
      show Settled (s.run (lcdDrawPoint x y)).window
      rw [lcdDrawPoint, run_addressSet_window _ _ _ _ _ (isData_writeHalfWord blue)]
      exact settled_of_onPanel hk hk
  | fill x1 y1 x2 y2 color granted =>
      show Settled (s.run (lcdFill x1 y1 x2 y2 color granted)).window
      unfold lcdFill
      rw [run_addressSet_window]
      · exact settled_of_onPanel hk.1 hk.2
      · cases granted with
        | true => exact isData_fillLoop color _ _
        | false => exact isData_flatMap fun _ => isData_flatMap fun _ => isData_writeHalfWord color
  | showString cs x y size text =>
      show Settled (s.run (lcdShowString fonts cs x y size text)).window
      unfold lcdShowString
      by_cases hsize : size ≠ 16 ∧ size ≠ 24 ∧ size ≠ 32
      · rw [if_pos hsize]
        exact h
      · rw [if_neg hsize]
        exact settled_showChars fonts cs size _ _ text h
  | clear color =>
      show Settled (s.run (lcdClear color)).window
      rw [window_lcdClear]
      exact h

/-- **And so does a run of them**, by induction over the calls. -/
theorem settled_calls (fonts : ℕ → ℕ → UInt8) {calls : List Call} (hcalls : ∀ k ∈ calls, k.InPanel)
    (h : Settled s.window) : Settled (s.run (calls.flatMap (Call.writes fonts))).window := by
  induction calls generalizing s with
  | nil => exact h
  | cons k calls ih =>
      rw [List.flatMap_cons, St7789.run_append]
      exact ih (fun k' hk' => hcalls k' (List.mem_cons_of_mem k hk'))
        (settled_call fonts (hcalls k List.mem_cons_self) h)

/-! ## When the panel is cleared -/

/-- The panel holds one colour, in each of its pixels. -/
def Cleared (s : St7789) (c : UInt16) : Prop :=
  ∀ x < lcddev.width, ∀ y < lcddev.height, s.mem x y = c

/-- **A clear from a window of the driver** clears where the colour is the
same in both byte orders and the rest of the panel has it. -/
theorem cleared_iff (h : Settled s.window) (c : UInt16) :
    Cleared (s.run (lcdClear c)) c ↔ changeByteOrder c = c ∧
      ∀ x < lcddev.width, ∀ y < lcddev.height, ¬s.window.Has x y → s.mem x y = c := by
  unfold Cleared
  simp only [mem_lcdClear]
  constructor
  · intro hall
    refine ⟨?_, fun x hx y hy hout => ?_⟩
    · obtain ⟨hx, hy, hhas⟩ := h.corner
      have hcorner := hall _ hx _ hy
      rwa [if_pos ⟨hhas, h.index_lt hx hy hhas⟩] at hcorner
    · have hpixel := hall x hx y hy
      rwa [if_neg fun hin => hout hin.1] at hpixel
  · rintro ⟨hbytes, hout⟩ x hx y hy
    by_cases hhas : s.window.Has x y
    · rw [if_pos ⟨hhas, h.index_lt hx hy hhas⟩, hbytes]
    · rw [if_neg fun hin => hhas hin.1]
      exact hout x hx y hy hhas

/-- **`lcd_clear` clears the panel exactly where the two bytes of the colour
are one byte and what the last window leaves out is that colour already.** -/
theorem lcdClear_clears_iff (fonts : ℕ → ℕ → UInt8) (mem : ℕ → ℕ → UInt16) (calls : List Call)
    (hcalls : ∀ k ∈ calls, k.InPanel) (c : UInt16) :
    let s := (St7789.powerOn mem).run (calls.flatMap (Call.writes fonts))
    Cleared (s.run (lcdClear c)) c ↔ changeByteOrder c = c ∧
      ∀ x < lcddev.width, ∀ y < lcddev.height, ¬s.window.Has x y → s.mem x y = c :=
  cleared_iff (settled_calls fonts hcalls (Or.inl rfl)) c

/-- A white clear behind a point in the corner, whose window is the one it
clears through. -/
theorem lcdClear_clears_iff_point :
    let s := (St7789.powerOn fun _ _ => 0).run
      ([Call.drawPoint 0 0].flatMap (Call.writes fun _ _ => 0))
    Cleared (s.run (lcdClear 0xFFFF)) 0xFFFF ↔ changeByteOrder 0xFFFF = 0xFFFF ∧
      ∀ x < lcddev.width, ∀ y < lcddev.height, ¬s.window.Has x y → s.mem x y = 0xFFFF :=
  lcdClear_clears_iff (fun _ _ => 0) (fun _ _ => 0) [.drawPoint 0 0]
    (by intro k hk; obtain rfl := List.mem_singleton.mp hk; exact ⟨by decide, by decide⟩) 0xFFFF

/-- **Behind a point on a dark panel a white clear is lost**: it goes into
the window of the point. -/
theorem not_cleared_point :
    ¬∀ (fonts : ℕ → ℕ → UInt8) (mem : ℕ → ℕ → UInt16) (calls : List Call),
      (∀ k ∈ calls, k.InPanel) → ∀ c : UInt16,
        Cleared (((St7789.powerOn mem).run (calls.flatMap (Call.writes fonts))).run (lcdClear c))
          c := by
  intro h
  have hcall : ∀ k ∈ [Call.drawPoint 0 0], k.InPanel := by
    intro k hk
    obtain rfl := List.mem_singleton.mp hk
    exact ⟨by decide, by decide⟩
  have hcleared := h (fun _ _ => 0) (fun _ _ => 0) [.drawPoint 0 0] hcall 0xFFFF
  have hpixel := hcleared 1 (by decide) 1 (by decide)
  rw [mem_lcdClear, if_neg] at hpixel
  · exact absurd hpixel (by decide)
  · exact fun hin => absurd hin.1 (by decide)

end Lcd

end WeatherTerminal
