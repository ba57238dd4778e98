import WeatherTerminal.Lcd.Line
import WeatherTerminal.Lcd.Model.Graphic
/-!
# When the graphic operations draw what they are told

`LCD_Fast_DrawPoint` sends the bytes of a coordinate by 16-bit stores, so
each is followed by a byte of its own: the window starts at the corner of
the panel, and the pixel lands there with its bytes exchanged. A line is a
row of such points. `LCD_BlitLine` leaves the window to `LCD_SetCursor`,
which does nothing. Only `lcd_fill_array` draws where it is told.
-/

namespace WeatherTerminal

namespace Lcd

variable {s : St7789} {color : UInt16} {x y a b : ℕ}

/-! ## Points -/

/-- **A fast point lands in the corner**, its bytes exchanged. -/
theorem mem_fastDrawPoint (s : St7789) (color : UInt16) (hx : x < 256) (hy : y < 256) (a b : ℕ) :
    (s.run (lcdFastDrawPoint color x y)).mem a b =
      if (a, b) = (0, 0) then changeByteOrder color else s.mem a b := by
  have hhigh : ∀ v : ℕ, v < 256 → uint16 ((v : ℤ) / 256) = 0 := by
    intro v hv
    have : (v : ℤ) / 256 = 0 := by omega
    rw [this]
    rfl
  unfold lcdFastDrawPoint
  rw [hhigh x hx, hhigh y hy]
  -- the pointer is where the first two bytes of each range say
  show (if (a, b) = ((word 0 0).toNat, (word 0 0).toNat) then
      word color.toUInt8 (color >>> 8).toUInt8 else s.mem a b) = _
  rw [word_swapped]
  rfl

/-- And so do any number of them, all in the corner. -/
theorem mem_fastDrawPoints (s : St7789) (color : UInt16) {ps : List (ℤ × ℤ)} (hne : ps ≠ [])
    (hps : ∀ p ∈ ps, (0 ≤ p.1 ∧ p.1 < 256) ∧ 0 ≤ p.2 ∧ p.2 < 256) (a b : ℕ) :
    (s.run (ps.flatMap fun p => lcdFastDrawPoint color p.1 p.2)).mem a b =
      if (a, b) = (0, 0) then changeByteOrder color else s.mem a b := by
  induction ps generalizing s with
  | nil => exact absurd rfl hne
  | cons p ps ih =>
      obtain ⟨⟨hx, hx'⟩, hy, hy'⟩ := hps p List.mem_cons_self
      obtain ⟨x, hpx⟩ := Int.eq_ofNat_of_zero_le hx
      obtain ⟨y, hpy⟩ := Int.eq_ofNat_of_zero_le hy
      have hpoint := mem_fastDrawPoint s color (x := x) (y := y) (by omega) (by omega) a b
      rw [List.flatMap_cons, St7789.run_append, hpx, hpy]
      rcases ps.eq_nil_or_concat' with rfl | ⟨front, last, hlast⟩
      · exact hpoint
      · rw [ih _ (by rw [hlast]; exact List.append_ne_nil_of_right_ne_nil _ (List.cons_ne_nil _ _))
          fun q hq => hps q (List.mem_cons_of_mem p hq), hpoint]
        by_cases hcorner : (a, b) = (0, 0)
        · rw [if_pos hcorner, if_pos hcorner]
        · rw [if_neg hcorner, if_neg hcorner]

/-- **A line, too, lands in the corner**, however long it is. -/
theorem mem_drawLine (s : St7789) (color : UInt16) {x1 y1 x2 y2 : UInt16} (h₁ : OnPanel x1 y1)
    (h₂ : OnPanel x2 y2) (a b : ℕ) :
    (s.run (lcdDrawLine color x1 y1 x2 y2)).mem a b =
      if (a, b) = (0, 0) then changeByteOrder color else s.mem a b := by
  obtain ⟨hx₁, hy₁⟩ := h₁
  obtain ⟨hx₂, hy₂⟩ := h₂
  change x1.toNat < 240 at hx₁
  change y1.toNat < 240 at hy₁
  change x2.toNat < 240 at hx₂
  change y2.toNat < 240 at hy₂
  rw [lcdDrawLine_eq]
  refine mem_fastDrawPoints s color ?_ ?_ a b
  · rw [points_eq_cons]
    exact List.cons_ne_nil _ _
  · intro p hp
    obtain ⟨⟨hleft, hright⟩, htop, hbottom⟩ := (isLine_points x1 y1 x2 y2).bounded p hp
    omega

/-- A pixel of the panel is one in sixteen bits as well. -/
theorem onPanel_uint16 (hx : x < lcddev.width) (hy : y < lcddev.height) :
    OnPanel (uint16 x) (uint16 y) := by
  change x < 240 at hx
  change y < 240 at hy
  unfold OnPanel
  rw [toNat_uint16 (by omega), toNat_uint16 (by omega)]
  exact ⟨hx, hy⟩

/-! ## Blits -/

/-- What a blit leaves on a pixel of the window it finds. -/
def landing (s : St7789) (pixels : List UInt16) (a b : ℕ) : Option UInt16 :=
  if s.window.Has a b then
    (pixels[s.window.lastVisit pixels.length (s.window.index a b)]?).map changeByteOrder
  else none

/-- **A blit goes into the window it finds**, wherever it is told to. -/
theorem mem_blitLine (s : St7789) (pixels : List UInt16) (x y : ℤ) (a b : ℕ) :
    (s.run (lcdBlitLine pixels x y)).mem a b = (landing s pixels a b).getD (s.mem a b) := by
  have hrun : s.run (lcdBlitLine pixels x y) =
      ⟨s.raster.corner.puts (pixels.map changeByteOrder), .ram none⟩ := by
    rw [lcdBlitLine, St7789.lcdSetCursor_eq, List.nil_append, St7789.run_append, St7789.run_prepare,
      St7789.run_ram16 rfl]
  rw [hrun]
  refine (Raster.puts_mem Window.cell_zero.symm _ a b).trans ?_
  show (if s.window.Has a b then _ else s.mem a b) = _
  unfold landing
  by_cases hhas : s.window.Has a b
  · rw [if_pos hhas, if_pos hhas, List.length_map, List.getD_eq_getElem?_getD, List.getElem?_map]
    rfl
  · rw [if_neg hhas, if_neg hhas]
    rfl

/-! ## One operation -/

/-- When a pixel in the corner will do for what is set: all else that is to
be set holds the colour, and the corner is to hold what lands there. -/
def CornerMet (s : St7789) (color : UInt16) (sets : ℕ → ℕ → Option UInt16) : Prop :=
  (∀ a < lcddev.width, ∀ b < lcddev.height, (a, b) ≠ (0, 0) → sets a b = some color →
    s.mem a b = color) ∧
  if sets 0 0 = some color then changeByteOrder color = color
  else s.mem 0 0 = changeByteOrder color

/-- When an operation draws what it is told: of the state before it. -/
def Op.Met (s : St7789) : Op → Prop
  | .drawPoint color x y => CornerMet s color (Op.drawPoint color x y).sets
  | .hLine color x1 x2 y => CornerMet s color (Op.hLine color x1 x2 y).sets
  | .vLine color x y1 y2 => CornerMet s color (Op.vLine color x y1 y2).sets
  | .blitLine pixels x y => ∀ a < lcddev.width, ∀ b < lcddev.height,
      (∀ p, landing s pixels a b = some p →
        p = ((Op.blitLine pixels x y).sets a b).getD (s.mem a b)) ∧
      ∀ q, landing s pixels a b = none → (Op.blitLine pixels x y).sets a b = some q →
        s.mem a b = q
  | .fillArray .. => True

/-- A pixel in the corner is all that is set, so the frame is shown where it
asks for no more. -/
theorem shows_corner_iff {t : St7789} {sets : ℕ → ℕ → Option UInt16}
    (hsets : ∀ a b, sets a b = some color ∨ sets a b = none)
    (ht : ∀ a b, t.mem a b = if (a, b) = (0, 0) then changeByteOrder color else s.mem a b) :
    Shows t (fun a b => (sets a b).getD (s.mem a b)) ↔ CornerMet s color sets := by
  unfold Shows CornerMet
  simp only [ht]
  constructor
  · intro hall
    refine ⟨fun a ha b hb hne hset => ?_, ?_⟩
    · have := hall a ha b hb
      rwa [if_neg hne, hset] at this
    · have hcorner := hall 0 (by decide) 0 (by decide)
      rw [if_pos rfl] at hcorner
      rcases hsets 0 0 with hset | hset
      · rw [if_pos hset]
        rwa [hset] at hcorner
      · rw [if_neg (by rw [hset]; exact nofun)]
        rw [hset] at hcorner
        exact hcorner.symm
  · rintro ⟨helse, hcorner⟩ a ha b hb
    by_cases hzero : (a, b) = (0, 0)
    · obtain ⟨rfl, rfl⟩ := Prod.mk.inj hzero
      rw [if_pos rfl]
      rcases hsets 0 0 with hset | hset
      · rw [if_pos hset] at hcorner
        rw [hset]
        exact hcorner
      · rw [if_neg (by rw [hset]; exact nofun)] at hcorner
        rw [hset]
        exact hcorner.symm
    · rw [if_neg hzero]
      rcases hsets a b with hset | hset
      · rw [hset]
        exact helse a ha b hb hzero hset
      · rw [hset]
        rfl

/-- Two results over one default are one where they agree, or where the
default is what is set. -/
theorem getD_eq_getD_iff {p q : Option UInt16} {m : UInt16} :
    p.getD m = q.getD m ↔
      (∀ p', p = some p' → p' = q.getD m) ∧ ∀ q', p = none → q = some q' → m = q' := by
  rcases p with _ | p
  · rcases q with _ | q
    · exact iff_of_true rfl ⟨nofun, nofun⟩
    · exact ⟨fun h => ⟨nofun, fun q' _ hq => h.trans (Option.some.inj hq)⟩, fun h => h.2 q rfl rfl⟩
  · exact ⟨fun h => ⟨fun p' hp => (Option.some.inj hp).symm.trans h, nofun⟩, fun h => h.1 p rfl⟩

/-- **An operation draws what it is told exactly where its condition is
met.** -/
theorem shows_draw_iff {op : Op} (hop : op.InPanel) :
    Shows (s.run op.writes) (op.draw s.mem) ↔ op.Met s := by
  have hite : ∀ (p : Prop) [Decidable p] (c : UInt16),
      (if p then some c else none) = some c ∨ (if p then some c else none) = none := by
    intro p _ c
    split
    · exact Or.inl rfl
    · exact Or.inr rfl
  -- points and lines go to the corner, the array to its window
  cases op with
  | drawPoint color x y =>
      obtain ⟨hx, hy⟩ := hop
      change x < 240 at hx
      change y < 240 at hy
      exact shows_corner_iff (fun a b => hite _ color)
        (mem_fastDrawPoint s color (by omega) (by omega))
  | hLine color x1 x2 y =>
      obtain ⟨⟨hx₁, hx₂⟩, hy⟩ := hop
      exact shows_corner_iff (fun a b => hite _ color)
        (mem_drawLine s color (onPanel_uint16 hx₁ hy) (onPanel_uint16 hx₂ hy))
  | vLine color x y1 y2 =>
      obtain ⟨hx, hy₁, hy₂⟩ := hop
      exact shows_corner_iff (fun a b => hite _ color)
        (mem_drawLine s color (onPanel_uint16 hx hy₁) (onPanel_uint16 hx hy₂))
  | blitLine pixels x y =>
      refine forall_congr' fun a => forall_congr' fun _ => forall_congr' fun b =>
        forall_congr' fun _ => ?_
      show (s.run (lcdBlitLine pixels x y)).mem a b = _ ↔ _
      rw [mem_blitLine]
      exact getD_eq_getD_iff
  | fillArray xStart yStart xEnd yEnd pixel =>
      obtain ⟨-, hx, hy⟩ := hop
      refine iff_of_true (fun a _ b _ => ?_) trivial
      refine (mem_lcdFillArray s (UInt16.le_iff_toNat_le.mp hx) (UInt16.le_iff_toNat_le.mp hy) pixel
        a b).trans ?_
      show _ = (if Window.Has ⟨xStart.toNat, xEnd.toNat, yStart.toNat, yEnd.toNat⟩ a b then
        some _ else none).getD (s.mem a b)
      by_cases hhas : Window.Has ⟨xStart.toNat, xEnd.toNat, yStart.toNat, yEnd.toNat⟩ a b
      · rw [if_pos hhas, if_pos hhas]
        rfl
      · rw [if_neg hhas, if_neg hhas]
        rfl

/-! ## Runs of them -/

/-- What is drawn depends on what is shown, not on the rest of the memory. -/
theorem shows_draw_congr {t : St7789} {frame : ℕ → ℕ → UInt16} (hs : Shows s frame) (op : Op) :
    Shows t (op.draw s.mem) ↔ Shows t (op.draw frame) := by
  refine forall_congr' fun a => forall_congr' fun ha => forall_congr' fun b =>
    forall_congr' fun hb => ?_
  rw [Op.draw, Op.draw, hs a ha b hb]

/-- **Behind every prefix of a run the panel shows the ideal frame exactly
where every operation meets its condition** in the state it finds. -/
theorem shows_ideal_iff (s : St7789) (ops : List Op) (hops : ∀ op ∈ ops, op.InPanel) :
    (∀ front, front <+: ops →
      Shows (s.run (front.flatMap Op.writes)) (front.foldl Op.draw s.mem)) ↔
    ∀ front op, front ++ [op] <+: ops → op.Met (s.run (front.flatMap Op.writes)) := by
  have hnext : ∀ front op, front ++ [op] <+: ops →
      Shows (s.run (front.flatMap Op.writes)) (front.foldl Op.draw s.mem) →
      (Shows (s.run ((front ++ [op]).flatMap Op.writes)) ((front ++ [op]).foldl Op.draw s.mem) ↔
        op.Met (s.run (front.flatMap Op.writes))) := by
    intro front op hfront hshows
    have hop := hops op (hfront.subset (List.mem_append_right front (List.mem_singleton_self op)))
    rw [List.flatMap_append, List.flatMap_singleton, St7789.run_append, List.foldl_append,
      List.foldl_cons, List.foldl_nil, ← shows_draw_congr hshows, shows_draw_iff hop]
  constructor
  · intro hall front op hfront
    have hbefore := hall front ((List.prefix_append front [op]).trans hfront)
    exact (hnext front op hfront hbefore).mp (hall _ hfront)
  · intro hmet front
    induction front using List.reverseRecOn with
    | nil => exact fun _ a _ b _ => rfl
    | append_singleton front op ih =>
        intro hfront
        have hbefore := ih ((List.prefix_append front [op]).trans hfront)
        exact (hnext front op hfront hbefore).mpr (hmet front op hfront)

/-- A line behind a square: the frames are shown as long as each operation
finds what it needs. -/
theorem shows_ideal_iff_squareLine :
    let s := St7789.powerOn fun _ _ => 0
    let ops := [Op.fillArray 3 4 5 6 (fun _ => red), .hLine red 3 9 4]
    (∀ front, front <+: ops →
      Shows (s.run (front.flatMap Op.writes)) (front.foldl Op.draw s.mem)) ↔
    ∀ front op, front ++ [op] <+: ops → op.Met (s.run (front.flatMap Op.writes)) := by
  refine shows_ideal_iff _ [Op.fillArray 3 4 5 6 (fun _ => red), .hLine red 3 9 4] fun op hop => ?_
  rcases List.mem_cons.mp hop with rfl | hop
  · exact ⟨⟨by decide, by decide⟩, by decide, by decide⟩
  · obtain rfl := List.mem_singleton.mp hop
    exact ⟨⟨by decide, by decide⟩, by decide⟩

/-- **A red point of a dark panel lands in the corner**, not where it is
told. -/
theorem not_shows_point :
    ¬∀ (s : St7789) (ops : List Op), (∀ op ∈ ops, op.InPanel) →
      Shows (s.run (ops.flatMap Op.writes)) (ops.foldl Op.draw s.mem) := by
  intro h
  have hpoint : (Op.drawPoint red 5 5).InPanel := ⟨by decide, by decide⟩
  have hshows := h (St7789.powerOn fun _ _ => 0) [.drawPoint red 5 5] (by
    intro op hop
    obtain rfl := List.mem_singleton.mp hop
    exact hpoint)
  rw [List.flatMap_singleton] at hshows
  obtain ⟨helse, -⟩ := (shows_draw_iff hpoint).mp hshows
  exact absurd (helse 5 (by decide) 5 (by decide) (by decide) rfl) (by decide)

end Lcd

end WeatherTerminal
