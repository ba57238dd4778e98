import Mathlib.Data.List.Chain
import Mathlib.Tactic.Common
import WeatherTerminal.Lcd.Model.Text
/-!
# When a text stays on the panel and in its font

Wherever it starts, the two wraps of `lcd_show_string` keep every
character on the panel and off the one before it. What they do not look at
is the character: its byte less the space selects the glyph, and the
tables end with the closing brace.
-/

namespace WeatherTerminal

namespace Lcd

variable {size x y : ℕ} {text : List (UInt8 × Bool)}

/-- A size that `lcd_show_string` accepts: one of the three the fonts have. -/
def FontSize (size : ℕ) : Prop := size = 16 ∨ size = 24 ∨ size = 32

/-! ## The places -/

/-- **What the wraps make of a place**: it stays, goes to the next line, or
back to the top. -/
theorem wrap_cases (size x y : ℕ) :
    x ≤ lcdW - size / 2 ∧ y ≤ lcdH - size ∧ wrap size x y = (x, y, false) ∨
      lcdW - size / 2 < x ∧ y + size ≤ lcdH - size ∧ wrap size x y = (0, y + size, false) ∨
      wrap size x y = (0, 0, true) := by
  unfold wrap
  by_cases hright : x > lcdW - size / 2
  · simp only [if_pos hright]
    by_cases hbottom : y + size > lcdH - size
    · exact Or.inr (Or.inr (if_pos hbottom))
    · exact Or.inr (Or.inl ⟨hright, by omega, if_neg hbottom⟩)
  · simp only [if_neg hright]
    by_cases hbottom : y > lcdH - size
    · exact Or.inr (Or.inr (if_pos hbottom))
    · exact Or.inl ⟨by omega, by omega, if_neg hbottom⟩

/-- A text is shown place by place, in the order of its characters. -/
theorem showChars_eq (fonts : ℕ → ℕ → UInt8) (cs : Colours) (size x y : ℕ)
    (text : List (UInt8 × Bool)) :
    showChars fonts cs size x y text =
      (layout size x y text).flatMap (Glyph.writes fonts cs size) := by
  induction text generalizing x y with
  | nil => rfl
  | cons c text ih =>
      unfold showChars layout wrap Glyph.writes
      by_cases hbottom : (if x > lcdW - size / 2 then (0, y + size) else (x, y)).2 > lcdH - size
      · simp only [if_pos hbottom, ih]
        rfl
      · simp only [if_neg hbottom, ih]
        rfl

/-- The first character is at the place the wraps make, and the next behind
it. -/
theorem layout_cons (size x y : ℕ) (c : UInt8 × Bool) (text : List (UInt8 × Bool)) :
    layout size x y (c :: text) =
      ⟨(wrap size x y).1, (wrap size x y).2.1, c.1, c.2, (wrap size x y).2.2⟩ ::
        layout size ((wrap size x y).1 + size / 2) (wrap size x y).2.1 text := by
  obtain ⟨p, granted⟩ := c
  rfl

/-- The window of a glyph is on the panel, all of it. -/
def Glyph.Inside (size : ℕ) (g : Glyph) : Prop :=
  g.x + size / 2 ≤ lcdW ∧ g.y + size ≤ lcdH

/-- The next glyph does not touch this one, or the text went to the top. -/
def Glyph.Apart (size : ℕ) (g h : Glyph) : Prop :=
  h.top = true ∨ g.x + size / 2 ≤ h.x ∨ g.y + size ≤ h.y

/-- **Every place is on the panel**, by induction over the text. -/
theorem inside_of_mem_layout (hsize : FontSize size) :
    ∀ g ∈ layout size x y text, g.Inside size := by
  have hfits : size / 2 ≤ lcdW ∧ size ≤ lcdH := by
    rcases hsize with rfl | rfl | rfl <;> decide
  induction text generalizing x y with
  | nil => exact fun g hg => absurd hg List.not_mem_nil
  | cons c text ih =>
      intro g hg
      rw [layout_cons] at hg
      rcases List.mem_cons.mp hg with rfl | hg
      · unfold Glyph.Inside
        rcases wrap_cases size x y with ⟨hx, hy, hwrap⟩ | ⟨-, hy, hwrap⟩ | hwrap <;>
          simp only [hwrap] <;> omega
      · exact ih g hg

/-- **And apart from the one before it**, so that no character is drawn over
the last. -/
theorem isChain_layout (g : Glyph) :
    (g :: layout size (g.x + size / 2) g.y text).IsChain (Glyph.Apart size) := by
  induction text generalizing g with
  | nil => exact List.isChain_singleton g
  | cons c text ih =>
      rw [layout_cons]
      refine List.isChain_cons_cons.mpr ⟨?_, ih ⟨_, _, c.1, c.2, _⟩⟩
      unfold Glyph.Apart
      rcases wrap_cases size (g.x + size / 2) g.y with ⟨-, -, hwrap⟩ | ⟨-, -, hwrap⟩ | hwrap
      · rw [hwrap]
        exact Or.inr (Or.inl (Nat.le_refl _))
      · rw [hwrap]
        exact Or.inr (Or.inr (Nat.le_refl _))
      · rw [hwrap]
        exact Or.inl rfl

/-! ## The characters -/

/-- **Every character is drawn**, into its own window and with its own glyph.
-/
theorem lcdShowChar_eq (hsize : FontSize size) {g : Glyph} (h : g.Inside size)
    (fonts : ℕ → ℕ → UInt8) (cs : Colours) :
    lcdShowChar fonts cs g.x g.y g.data size g.granted =
      lcdAddressSet (UInt16.ofNat g.x) (UInt16.ofNat g.y) (UInt16.ofNat (g.x + size / 2 - 1))
          (UInt16.ofNat (g.y + size - 1)) ++
        if g.granted then
          lcdWriteDataBuffer ((charColours (fonts size) cs size (g.data - 0x20)).flatMap colourBytes)
        else (charColours (fonts size) cs size (g.data - 0x20)).flatMap lcdWriteHalfWord := by
  obtain ⟨hx, hy⟩ := h
  unfold lcdShowChar
  rw [if_neg (by omega)]
  exact if_pos hsize

/-- The bytes read are all a character depends on, so the rest of the font may
be anything. -/
theorem charColours_congr {font font' : ℕ → UInt8} (cs : Colours) {data : UInt8}
    (h : ∀ i ∈ fontReads size data, font i = font' i) :
    charColours font cs size data = charColours font' cs size data := by
  unfold charColours
  unfold fontReads at h
  by_cases hsize : size = 24
  · rw [if_pos hsize, List.forall_mem_map] at h
    rw [if_pos hsize, if_pos hsize]
    exact List.flatMap_congr fun pos hpos => by rw [h pos hpos]
  · rw [if_neg hsize, List.forall_mem_map] at h
    rw [if_neg hsize, if_neg hsize]
    exact List.flatMap_congr fun pos hpos => by rw [h pos hpos]

/-- A run of bytes is within a table where its end is. -/
theorem forall_range_lt_iff {n base bound : ℕ} (hn : 0 < n) :
    (∀ i ∈ (List.range n).map (base + ·), i < bound) ↔ base + n ≤ bound := by
  rw [List.forall_mem_map]
  constructor
  · intro h
    have := h (n - 1) (List.mem_range.mpr (by omega))
    omega
  · intro h pos hpos
    have := List.mem_range.mp hpos
    omega

/-- The characters the tables have a glyph of: those from the blank to the
closing brace. -/
theorem glyph_lt_iff (p : UInt8) : (p - 0x20).toNat < fontGlyphs ↔ 0x20 ≤ p ∧ p ≤ 0x7D := by
  have hp := p.toNat_lt
  have hdata : (p - 0x20).toNat = (2 ^ 8 - 32 + p.toNat) % 2 ^ 8 := UInt8.toNat_sub p 0x20
  rw [hdata, UInt8.le_iff_toNat_le, UInt8.le_iff_toNat_le]
  show _ < 94 ↔ 32 ≤ p.toNat ∧ p.toNat ≤ 125
  omega

/-- **They are in the table exactly where the character is a glyph of it.** -/
theorem fontReads_lt_iff (hsize : FontSize size) (p : UInt8) :
    (∀ i ∈ fontReads size (p - 0x20), i < fontTableSize size) ↔ 0x20 ≤ p ∧ p ≤ 0x7D := by
  rw [← glyph_lt_iff]
  unfold fontGlyphs
  rcases hsize with rfl | rfl | rfl
  · exact (forall_range_lt_iff (by decide)).trans
      (show _ * 16 * 8 / 8 + 16 ≤ 94 * 16 ↔ _ by omega)
  · exact (forall_range_lt_iff (by decide)).trans
      (show _ * 384 / 8 + 48 ≤ 94 * 48 ↔ _ by omega)
  · exact (forall_range_lt_iff (by decide)).trans
      (show _ * 32 * 16 / 8 + 64 ≤ 94 * 64 ↔ _ by omega)

/-! ## The text -/

/-- A text stays on the panel and in its font: it is shown place by place,
every character is drawn into its own window, the window is on the panel
and apart from the one before, and the bytes read are in the table. -/
structure StaysWithin (size x y : ℕ) (text : List (UInt8 × Bool)) : Prop where
  drawn : ∀ g ∈ layout size x y text, ∀ (fonts : ℕ → ℕ → UInt8) (cs : Colours), ∃ ws,
    lcdShowChar fonts cs g.x g.y g.data size g.granted =
      lcdAddressSet (UInt16.ofNat g.x) (UInt16.ofNat g.y) (UInt16.ofNat (g.x + size / 2 - 1))
        (UInt16.ofNat (g.y + size - 1)) ++ ws
  inside : ∀ g ∈ layout size x y text, g.Inside size
  apart : (layout size x y text).IsChain (Glyph.Apart size)
  reads : ∀ g ∈ layout size x y text, ∀ i ∈ fontReads size (g.data - 0x20), i < fontTableSize size

theorem map_data_layout (size x y : ℕ) (text : List (UInt8 × Bool)) :
    (layout size x y text).map Glyph.data = text.map Prod.fst := by
  induction text generalizing x y with
  | nil => rfl
  | cons c text ih =>
      rw [layout_cons, List.map_cons, List.map_cons, ih]

/-- **`lcd_show_string` stays on the panel and in its font exactly where the
text is of glyphs of the font**, from the space to the closing brace. -/
theorem lcdShowString_staysWithin_iff (x y : UInt16) (size : ℕ) (text : List (UInt8 × Bool))
    (_hstart : OnPanel x y) (hsize : FontSize size) :
    (∀ fonts cs, lcdShowString fonts cs x y size text =
      (layout size x.toNat y.toNat text).flatMap (Glyph.writes fonts cs size)) ∧
    (StaysWithin size x.toNat y.toNat text ↔ ∀ c ∈ text, 0x20 ≤ c.1 ∧ c.1 ≤ 0x7D) := by
  have hmem : ∀ P : UInt8 → Prop,
      (∀ g ∈ layout size x.toNat y.toNat text, P g.data) ↔ ∀ c ∈ text, P c.1 := by
    intro P
    have hmap := map_data_layout size x.toNat y.toNat text
    rw [← List.forall_mem_map (f := Glyph.data), hmap, List.forall_mem_map]
  refine ⟨fun fonts cs => ?_, ?_⟩
  · unfold lcdShowString FontSize at *
    rw [if_neg (by omega)]
    exact showChars_eq fonts cs size x.toNat y.toNat text
  · constructor
    · intro h
      exact (hmem fun p => 0x20 ≤ p ∧ p ≤ 0x7D).mp fun g hg =>
        (fontReads_lt_iff hsize g.data).mp (h.reads g hg)
    · intro h
      have hinside : ∀ g ∈ layout size x.toNat y.toNat text, g.Inside size :=
        inside_of_mem_layout hsize
      refine ⟨fun g hg fonts cs => ⟨_, lcdShowChar_eq hsize (hinside g hg) fonts cs⟩, hinside, ?_,
        fun g hg => (fontReads_lt_iff hsize g.data).mpr
          ((hmem fun p => 0x20 ≤ p ∧ p ≤ 0x7D).mpr h g hg)⟩
      cases text with
      | nil => exact List.isChain_nil
      | cons c text =>
          rw [layout_cons]
          exact isChain_layout ⟨_, _, c.1, c.2, _⟩

/-- Two characters from the lower right on, which are shown from the top
again. -/
theorem lcdShowString_staysWithin_iff_corner :
    let text : List (UInt8 × Bool) := [(0x48, true), (0x69, false)]
    (∀ fonts cs, lcdShowString fonts cs 230 230 24 text =
      (layout 24 (230 : UInt16).toNat (230 : UInt16).toNat text).flatMap
        (Glyph.writes fonts cs 24)) ∧
    (StaysWithin 24 (230 : UInt16).toNat (230 : UInt16).toNat text ↔
      ∀ c ∈ text, 0x20 ≤ c.1 ∧ c.1 ≤ 0x7D) :=
  lcdShowString_staysWithin_iff 230 230 24 _ ⟨by decide, by decide⟩ (Or.inr (Or.inl rfl))

/-- **A tilde is read from behind the table**, though its text begins on the
panel. -/
theorem not_staysWithin_tilde :
    ¬∀ (x y : UInt16) (size : ℕ) (text : List (UInt8 × Bool)), OnPanel x y → FontSize size →
      text.length ≤ 99 → StaysWithin size x.toNat y.toNat text := by
  intro h
  have hstays := h 0 0 16 [(0x7E, true)] ⟨by decide, by decide⟩ (Or.inl rfl) (by decide)
  have hreads := hstays.reads
  rw [layout_cons] at hreads
  have htilde := hreads _ List.mem_cons_self
  exact absurd ((fontReads_lt_iff (Or.inl rfl) 0x7E).mp htilde) (by decide)

end Lcd

end WeatherTerminal
