import WeatherTerminal.Lcd.Fill
import WeatherTerminal.Lcd.Line
/-!
# The two paths of `lcd_draw_line`

The stepping loop paints every pixel from one end to the other. The fast
path for a horizontal line sends one pixel less than that, none for a line
of one pixel, and from right to left its count wraps and the loop runs out
of its buffer. So it never paints what the loop would.
-/

namespace WeatherTerminal

namespace Lcd

variable {s : St7789} {color : UInt16}

/-! ## The stepping loop -/

theorem mem_drawPointIn (s : St7789) (color x y : UInt16) (a b : ℕ) :
    (s.run (drawPointIn color x y)).mem a b =
      if (a, b) = (x.toNat, y.toNat) then color else s.mem a b := by
  have hpixel : (lcdWriteHalfWord color).flatMap Write.bytes =
      ([color].flatMap fun p => (colourBytes p).map Write.ram8).flatMap Write.bytes := by
    rw [bytes_writeHalfWord, List.flatMap_singleton, ← lcdWriteDataBuffer, bytes_writeDataBuffer]
  rw [drawPointIn, St7789.run_append, St7789.run_addressSet, St7789.run_congr hpixel,
    St7789.run_colourBytes rfl]
  rfl

/-- Points on the panel, all of one colour, set their own pixels. -/
theorem mem_drawPointsIn (s : St7789) (color : UInt16) {ps : List (ℤ × ℤ)}
    (hps : ∀ p ∈ ps, (0 ≤ p.1 ∧ p.1 < 2 ^ 16) ∧ 0 ≤ p.2 ∧ p.2 < 2 ^ 16) (a b : ℕ) :
    (s.run (ps.flatMap fun p => drawPointIn color (uint16 p.1) (uint16 p.2))).mem a b =
      if ((a : ℤ), (b : ℤ)) ∈ ps then color else s.mem a b := by
  induction ps generalizing s with
  | nil => rfl
  | cons p ps ih =>
      obtain ⟨⟨hx, hx'⟩, hy, hy'⟩ := hps p List.mem_cons_self
      obtain ⟨x, hpx⟩ := Int.eq_ofNat_of_zero_le hx
      obtain ⟨y, hpy⟩ := Int.eq_ofNat_of_zero_le hy
      have hhere : (a, b) = ((uint16 p.1).toNat, (uint16 p.2).toNat) ↔ ((a : ℤ), (b : ℤ)) = p := by
        rw [hpx, hpy, toNat_uint16 (by omega), toNat_uint16 (by omega), Prod.ext_iff, Prod.ext_iff]
        show _ ↔ (a : ℤ) = p.1 ∧ (b : ℤ) = p.2
        omega
      rw [List.flatMap_cons, St7789.run_append, ih _ fun q hq => hps q (List.mem_cons_of_mem p hq),
        mem_drawPointIn]
      simp only [hhere, List.mem_cons]
      by_cases hrest : ((a : ℤ), (b : ℤ)) ∈ ps
      · rw [if_pos hrest, if_pos (Or.inr hrest)]
      · rw [if_neg hrest]
        by_cases hp : ((a : ℤ), (b : ℤ)) = p
        · rw [if_pos hp, if_pos (Or.inl hp)]
        · rw [if_neg hp, if_neg (not_or.mpr ⟨hp, hrest⟩)]

/-- The stores are made, and they give the pixels between two columns of a
row the colour, both included, and leave the rest. -/
def PaintsSpan (ws : Option (List Write)) (color x1 x2 y : UInt16) : Prop :=
  ∃ vs, ws = some vs ∧ ∀ (s : St7789) (a b : ℕ), (s.run vs).mem a b =
    if (min x1.toNat x2.toNat ≤ a ∧ a ≤ max x1.toNat x2.toNat) ∧ b = y.toNat then color
    else s.mem a b

/-- The points of a horizontal line are those between its ends. -/
theorem mem_points_transverse {x1 x2 y : UInt16} (a b : ℕ) :
    ((a : ℤ), (b : ℤ)) ∈ points x1 y x2 y ↔
      (min x1.toNat x2.toNat ≤ a ∧ a ≤ max x1.toNat x2.toNat) ∧ b = y.toNat := by
  have hline := isLine_points x1 y x2 y
  constructor
  · intro hmem
    obtain ⟨⟨hleft, hright⟩, htop, hbottom⟩ := hline.bounded _ hmem
    omega
  · rintro ⟨⟨hleft, hright⟩, rfl⟩
    have hlong : ((x2.toNat : ℤ) - x1.toNat).natAbs = distance x1 y x2 y := by
      unfold distance
      omega
    obtain ⟨p, hp, hcol, -⟩ := hline.columns hlong a ⟨by omega, by omega⟩
    obtain ⟨-, htop, hbottom⟩ := hline.bounded p hp
    have hrow : p.2 = y.toNat := by omega
    rwa [← hcol, ← hrow]

/-- **The stepping loop paints the whole line**, whichever end is first. -/
theorem stepLine_paints {fuel : ℕ} (hfuel : 2 ^ 16 ≤ fuel) {x1 x2 y : UInt16}
    (h₁ : OnPanel x1 y) (h₂ : OnPanel x2 y) (color : UInt16) :
    PaintsSpan (stepLine color fuel x1 y x2 y) color x1 x2 y := by
  obtain ⟨hx₁, hy⟩ := h₁
  obtain ⟨hx₂, -⟩ := h₂
  change x1.toNat < 240 at hx₁
  change x2.toNat < 240 at hx₂
  change y.toNat < 240 at hy
  have hdistance : distance x1 y x2 y < 240 := by
    unfold distance
    omega
  unfold stepLine
  rw [linePoints_eq (by omega) (by omega)]
  refine ⟨_, rfl, fun s a b => ?_⟩
  rw [mem_drawPointsIn]
  · simp only [mem_points_transverse]
  · intro p hp
    obtain ⟨⟨hleft, hright⟩, htop, hbottom⟩ := (isLine_points x1 y x2 y).bounded p hp
    omega

/-! ## The fast path -/

/-- Within the buffer the loop writes colour after colour, from its start. -/
theorem fillLineBuf_eq (color : UInt16) (n i : ℕ) (rest : List UInt8) (h : 2 * n ≤ rest.length) :
    fillLineBuf color n i ((List.replicate i (colourBytes color)).flatten ++ rest) =
      some ((List.replicate (i + n) (colourBytes color)).flatten ++ rest.drop (2 * n)) := by
  induction n generalizing i rest with
  | zero => rfl
  | succ n ih =>
      obtain ⟨u, v, rest, rfl⟩ : ∃ u v tail, rest = u :: v :: tail := by
        rcases rest with _ | ⟨u, _ | ⟨v, tail⟩⟩
        · simp at h
        · simp at h; omega
        · exact ⟨u, v, tail, rfl⟩
      have hlength : ((List.replicate i (colourBytes color)).flatten).length = 2 * i := by
        rw [List.length_flatten, List.map_replicate, List.sum_replicate_nat, Nat.mul_comm]
        rfl
      -- one colour more behind those that are there
      have hset : (((List.replicate i (colourBytes color)).flatten ++ u :: v :: rest).set (2 * i)
          (color >>> 8).toUInt8).set (2 * i + 1) color.toUInt8 =
          (List.replicate (i + 1) (colourBytes color)).flatten ++ rest := by
        rw [List.set_append_right _ _ (Nat.le_of_eq hlength), hlength, Nat.sub_self,
          List.set_append_right _ _ (by omega), hlength, Nat.add_sub_cancel_left,
          List.replicate_succ', List.flatten_append, List.append_assoc]
        rfl
      have hpair : (u :: v :: rest).length = rest.length + 2 := rfl
      have hdrop : (u :: v :: rest).drop (2 * (n + 1)) = rest.drop (2 * n) := by
        rw [Nat.mul_succ]
        rfl
      rw [fillLineBuf, if_pos (by rw [List.length_append, hlength, hpair]; omega), hset,
        ih (i + 1) rest (by omega), hdrop, Nat.add_right_comm, Nat.add_assoc]

/-- With more rounds than that it writes behind the buffer. -/
theorem fillLineBuf_eq_none (color : UInt16) (n i : ℕ) (buf : List UInt8)
    (h : buf.length < 2 * (i + n)) (hi : 2 * i ≤ buf.length) :
    fillLineBuf color n i buf = none := by
  induction n generalizing i buf with
  | zero => omega
  | succ n ih =>
      rw [fillLineBuf]
      split
      · exact ih _ _ (by rw [List.length_set, List.length_set]; omega)
          (by rw [List.length_set, List.length_set]; omega)
      · rfl

/-- From left to right the last pixel of the line is missing. -/
theorem drawTransverseLine_eq {x1 x2 : UInt16} (hx : x1.toNat ≤ x2.toNat) (hpanel : x2.toNat < 240)
    (foreColor y1 y2 : UInt16) :
    drawTransverseLine foreColor x1 y1 x2 y2 =
      some (lcdAddressSet x1 y1 x2 y2 ++ sendColour foreColor (x2.toNat - x1.toNat)) := by
  have hcount : lineCount x1 x2 = x2.toNat - x1.toNat := by
    unfold lineCount
    omega
  have hzeros : (List.replicate lineBufSize (0 : UInt8)).length = 480 := List.length_replicate
  have hfill := fillLineBuf_eq foreColor (x2.toNat - x1.toNat) 0 (List.replicate lineBufSize 0)
    (by omega)
  have hlength :
      ((List.replicate (0 + (x2.toNat - x1.toNat)) (colourBytes foreColor)).flatten).length =
        (x2.toNat - x1.toNat) * 2 := by
    rw [List.length_flatten, List.map_replicate, List.sum_replicate_nat, Nat.zero_add]
    rfl
  change fillLineBuf _ _ _ (List.replicate lineBufSize 0) = _ at hfill
  unfold drawTransverseLine
  simp only [hcount, hfill, Option.bind_some]
  rw [if_pos (by unfold lineBufSize; omega), ← hlength, List.take_left, Nat.zero_add]
  rfl

/-- From right to left the count wraps, and the loop writes behind the buffer.
-/
theorem drawTransverseLine_eq_none {x1 x2 : UInt16} (hx : x2.toNat < x1.toNat)
    (foreColor y1 y2 : UInt16) : drawTransverseLine foreColor x1 y1 x2 y2 = none := by
  have hx₁ := x1.toNat_lt
  have hzeros : (List.replicate lineBufSize (0 : UInt8)).length = 480 := List.length_replicate
  have hcount : 240 < lineCount x1 x2 := by
    unfold lineCount
    omega
  unfold drawTransverseLine
  rw [fillLineBuf_eq_none _ _ _ _ (by omega) (Nat.zero_le _)]
  rfl

/-- **The fast path never paints its line**, in whichever direction it goes.
-/
theorem not_paintsSpan_transverse {x1 x2 : UInt16} (hpanel : x2.toNat < 240)
    (foreColor y : UInt16) :
    ¬PaintsSpan (drawTransverseLine foreColor x1 y x2 y) foreColor x1 x2 y := by
  rintro ⟨ws, hws, hpaints⟩
  rcases Nat.lt_or_ge x2.toNat x1.toNat with hback | hforth
  · rw [drawTransverseLine_eq_none hback] at hws
    cases hws
  · rw [drawTransverseLine_eq hforth hpanel] at hws
    -- a panel of another colour keeps it at the last pixel
    have hlast := hpaints (St7789.powerOn fun _ _ => foreColor + 1) x2.toNat y.toNat
    rw [← Option.some.inj hws, mem_sendColour, if_neg, if_pos ⟨by omega, rfl⟩] at hlast
    · have hnext : (foreColor + 1).toNat = foreColor.toNat := congrArg UInt16.toNat hlast
      have := foreColor.toNat_lt
      rw [UInt16.toNat_add] at hnext
      change (foreColor.toNat + 1) % 2 ^ 16 = foreColor.toNat at hnext
      omega
    · rintro ⟨-, hindex⟩
      unfold Window.index at hindex
      simp only at hindex
      omega

/-- **A horizontal `lcd_draw_line` never paints what its stepping loop
would** in the foreground colour, which is the whole line. -/
theorem lcdDrawLine_never_paints (foreColor x1 x2 y : UInt16) (h₁ : OnPanel x1 y)
    (h₂ : OnPanel x2 y) (fuel : ℕ) (hfuel : 2 ^ 16 ≤ fuel) :
    PaintsSpan (stepLine foreColor fuel x1 y x2 y) foreColor x1 x2 y ∧
      ¬PaintsSpan (Drv.lcdDrawLine foreColor fuel x1 y x2 y) foreColor x1 x2 y := by
  refine ⟨stepLine_paints hfuel h₁ h₂ foreColor, ?_⟩
  rw [Drv.lcdDrawLine, if_pos rfl]
  exact not_paintsSpan_transverse h₂.1 foreColor y

/-- A line from right to left, which the stepping loop would paint. -/
theorem lcdDrawLine_never_paints_back :
    PaintsSpan (stepLine red (2 ^ 16) 9 4 3 4) red 9 3 4 ∧
      ¬PaintsSpan (Drv.lcdDrawLine red (2 ^ 16) 9 4 3 4) red 9 3 4 :=
  lcdDrawLine_never_paints red 9 3 4 ⟨by decide, by decide⟩ ⟨by decide, by decide⟩ (2 ^ 16)
    (Nat.le_refl _)

/-- **A line of one pixel paints none**, though it is within the panel. -/
theorem not_paints_pixel :
    ¬∀ foreColor x1 x2 y : UInt16, OnPanel x1 y → OnPanel x2 y → ∀ fuel, 2 ^ 16 ≤ fuel →
      PaintsSpan (Drv.lcdDrawLine foreColor fuel x1 y x2 y) foreColor x1 x2 y := by
  intro h
  have hpaints := h red 5 5 7 ⟨by decide, by decide⟩ ⟨by decide, by decide⟩ (2 ^ 16) (Nat.le_refl _)
  rw [Drv.lcdDrawLine, if_pos rfl] at hpaints
  exact not_paintsSpan_transverse (by decide) red 7 hpaints

end Lcd

end WeatherTerminal
