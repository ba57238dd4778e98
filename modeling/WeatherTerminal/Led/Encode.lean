import Mathlib.Tactic.IntervalCases
import WeatherTerminal.Led.Model.Dma
/-!
# The LED strip — what a refresh leaves in the buffer

The stores of a refresh cover the buffer and each of them is the byte the
encoding has there, so whatever the buffer held the refresh leaves the
encoding and nothing else.
-/

namespace WeatherTerminal

/-! ## Lists made of pieces of one length -/

section

variable {α β : Type} {f : α → List β} {w : ℕ}

/-- Pieces of one length, one behind the other, are as many times as long. -/
theorem length_pieces (hf : ∀ a, (f a).length = w) (l : List α) :
    (l.flatMap f).length = w * l.length := by
  induction l with
  | nil => rfl
  | cons a l ih =>
      rw [List.flatMap_cons, List.length_append, hf, ih, List.length_cons, Nat.mul_succ,
        Nat.add_comm]

/-- The `o`-th element of the `i`-th piece stands at `i` lengths and `o` more.
-/
theorem getElem?_pieces (hf : ∀ a, (f a).length = w) (l : List α) {i o : ℕ} (ho : o < w) :
    (l.flatMap f)[w * i + o]? = l[i]?.bind fun a => (f a)[o]? := by
  induction l generalizing i with
  | nil => rfl
  | cons a l ih =>
      rw [List.flatMap_cons]
      rcases i with - | i
      · rw [Nat.mul_zero, Nat.zero_add, List.getElem?_append_left (by rw [hf]; exact ho)]
        rfl
      · have hback : w * (i + 1) + o - w = w * i + o := by
          rw [Nat.mul_succ]
          omega
        rw [List.getElem?_append_right (by rw [hf, Nat.mul_succ]; omega), hf, hback, ih]
        rfl

end

namespace Led

variable {i j : ℕ} {c : RGBColor} {rgb : RgbData} {p : ℕ × UInt8}

/-! ## The encoding -/

/-- A colour takes twenty-four pulses, one for each of its bits. -/
theorem length_colourPulses (c : RGBColor) : (colourPulses c).length = 24 := rfl

/-- A refresh takes that many for each LED. -/
theorem length_pulses (r : Refresh) : r.pulses.length = ledNum * 24 := by
  cases r with
  | reflash rgb =>
      refine (length_pieces length_colourPulses rgb.leds).trans ?_
      rw [rgb.length_eq]
      rfl
  | rst => exact List.length_replicate

/-- Its frame is as long as the buffer of the transfer. -/
theorem length_frame (r : Refresh) : r.frame.length = bufferSize := by
  refine (length_pieces (w := 2) (fun _ => rfl) r.pulses).trans ?_
  rw [length_pulses]
  rfl

/-- A half-word of a frame: the pulse, and a zero. -/
theorem halfWords_getElem? (pulses : List UInt8) (k : ℕ) :
    (pulses.flatMap fun w => [w, 0])[2 * k]? = pulses[k]? ∧
      (pulses.flatMap fun w => [w, 0])[2 * k + 1]? = pulses[k]?.map fun _ => 0 := by
  have hone := getElem?_pieces (f := fun v : UInt8 => [v, 0]) (w := 2) (fun _ => rfl) pulses
    (i := k) (o := 0) (by omega)
  have htwo := getElem?_pieces (f := fun v : UInt8 => [v, 0]) (w := 2) (fun _ => rfl) pulses
    (i := k) (o := 1) (by omega)
  refine ⟨hone.trans ?_, htwo.trans ?_⟩
  · cases pulses[k]? <;> rfl
  · cases pulses[k]? <;> rfl

/-- The three bits of weight `2 ^ j` of a colour. -/
theorem colourPulses_getElem? (c : RGBColor) (hj : j < 8) :
    (colourPulses c)[7 - j]? = some (pulse (c.G.toNat.testBit j)) ∧
      (colourPulses c)[15 - j]? = some (pulse (c.R.toNat.testBit j)) ∧
      (colourPulses c)[23 - j]? = some (pulse (c.B.toNat.testBit j)) := by
  interval_cases j <;> exact ⟨rfl, rfl, rfl⟩

/-- The pulse of a bit is the one of its colour, at its place among the
twenty-four. -/
theorem pulses_getElem? {leds : List RGBColor} {q : ℕ} (hc : leds[i]? = some c) (hq : q < 24) :
    (leds.flatMap colourPulses)[24 * i + q]? = (colourPulses c)[q]? := by
  rw [getElem?_pieces length_colourPulses _ hq, hc]
  rfl

/-! ## The stores -/

/-- A bit selects its pulse width, the array being indexed by it. -/
theorem tile_and_one (v : UInt8) : tile.getD (v &&& 1).toNat 0 = pulse (v.toNat.testBit 0) := by
  have hand : (v &&& 1).toNat = v.toNat % 2 := by
    rw [UInt8.toNat_and]
    exact Nat.and_one_is_mod v.toNat
  rw [hand, Nat.testBit_zero]
  rcases Nat.mod_two_eq_zero_or_one v.toNat with h | h
  · rw [h]
    rfl
  · rw [h]
    rfl

theorem testBit_shiftRight (v : UInt8) (q : ℕ) :
    (v >>> 1).toNat.testBit q = v.toNat.testBit (q + 1) := by
  rw [UInt8.toNat_shiftRight]
  show (v.toNat >>> 1).testBit q = _
  rw [Nat.testBit_shiftRight, Nat.add_comm]

/-- `bitStores` with the bits that select the widths in place of the colour.
-/
def pulseStores (i j : ℕ) (g r b : Bool) : List (ℕ × UInt8) :=
  [(14 + i * 48 - 2 * j, pulse g), (14 + i * 48 - 2 * j + 1, 0),
    (30 + i * 48 - 2 * j, pulse r), (30 + i * 48 - 2 * j + 1, 0),
    (46 + i * 48 - 2 * j, pulse b), (46 + i * 48 - 2 * j + 1, 0)]

/-- **The inner loop**: after `q` shifts the lowest bit is bit `q`. -/
theorem mem_ledStores {n : ℕ} {dat : RGBColor} :
    p ∈ ledStores i n j dat ↔ ∃ q < n, p ∈ pulseStores i (j + q) (dat.G.toNat.testBit q)
      (dat.R.toNat.testBit q) (dat.B.toNat.testBit q) := by
  induction n generalizing j dat with
  | zero => exact iff_of_false List.not_mem_nil fun ⟨q, hq, _⟩ => Nat.not_lt_zero q hq
  | succ n ih =>
      have hfirst : bitStores i j dat = pulseStores i j (dat.G.toNat.testBit 0)
          (dat.R.toNat.testBit 0) (dat.B.toNat.testBit 0) := by
        simp only [bitStores, pulseStores, tile_and_one]
      rw [ledStores, List.mem_append, hfirst, ih]
      simp only [testBit_shiftRight]
      constructor
      · rintro (h | ⟨q, hq, h⟩)
        · exact ⟨0, by omega, h⟩
        · exact ⟨q + 1, by omega, by rwa [Nat.add_assoc, Nat.add_comm 1 q] at h⟩
      · rintro ⟨q, hq, h⟩
        rcases q with - | q
        · exact Or.inl h
        · exact Or.inr ⟨q, by omega, by rwa [Nat.add_assoc, Nat.add_comm 1 q]⟩

/-- The stores LED by LED, bit by bit: which of them there are. -/
theorem mem_stripStores {leds : List RGBColor} :
    p ∈ stripStores leds ↔ ∃ i c, leds[i]? = some c ∧ ∃ j < 8,
      p ∈ pulseStores i j (c.G.toNat.testBit j) (c.R.toNat.testBit j) (c.B.toNat.testBit j) := by
  simp only [stripStores, List.mem_flatMap, Prod.exists, List.mem_zipIdx_iff_getElem?,
    mem_ledStores, Nat.zero_add]
  exact exists_comm

/-- **A store of `RGB_Reflash` is the byte the encoding has there.** -/
theorem strip_agrees {leds : List RGBColor} (hp : p ∈ stripStores leds) :
    (stripFrame leds)[p.1]? = some p.2 := by
  obtain ⟨i, c, hc, j, hj, hp⟩ := mem_stripStores.mp hp
  obtain ⟨hg, hr, hb⟩ := colourPulses_getElem? c hj
  have hword : ∀ {q : ℕ} {w : UInt8}, q < 24 → (colourPulses c)[q]? = some w →
      (stripFrame leds)[2 * (24 * i + q)]? = some w ∧
        (stripFrame leds)[2 * (24 * i + q) + 1]? = some 0 := by
    intro q w hq hw
    obtain ⟨hlow, hhigh⟩ := halfWords_getElem? (leds.flatMap colourPulses) (24 * i + q)
    rw [pulses_getElem? hc hq, hw] at hlow hhigh
    exact ⟨hlow, hhigh⟩
  have hgreen := hword (by omega) hg
  have hred := hword (by omega) hr
  have hblue := hword (by omega) hb
  rw [show 2 * (24 * i + (7 - j)) = 14 + i * 48 - 2 * j by omega] at hgreen
  rw [show 2 * (24 * i + (15 - j)) = 30 + i * 48 - 2 * j by omega] at hred
  rw [show 2 * (24 * i + (23 - j)) = 46 + i * 48 - 2 * j by omega] at hblue
  simp only [pulseStores, List.mem_cons, List.not_mem_nil, or_false] at hp
  rcases hp with rfl | rfl | rfl | rfl | rfl | rfl
  · exact hgreen.1
  · exact hgreen.2
  · exact hred.1
  · exact hred.2
  · exact hblue.1
  · exact hblue.2

/-- **And every byte of the buffer is stored**, so that nothing of the last
frame is left. -/
theorem strip_covers (leds : List RGBColor) {b : ℕ} (hb : b < leds.length * 48) :
    ∃ v, (b, v) ∈ stripStores leds := by
  have hi : b / 48 < leds.length := Nat.div_lt_of_lt_mul (by rw [Nat.mul_comm]; exact hb)
  obtain ⟨c, hc⟩ : ∃ c, leds[b / 48]? = some c := ⟨_, List.getElem?_eq_getElem hi⟩
  -- the bit is counted down in each colour
  let j := 7 - b % 16 / 2
  suffices h : ∃ v, (b, v) ∈ pulseStores (b / 48) j (c.G.toNat.testBit j) (c.R.toNat.testBit j)
      (c.B.toNat.testBit j) from
    h.imp fun v hv => mem_stripStores.mpr ⟨b / 48, c, hc, j, by omega, hv⟩
  simp only [pulseStores, List.mem_cons, List.not_mem_nil, or_false, Prod.mk.injEq]
  have hplace : b = 14 + b / 48 * 48 - 2 * j ∨ b = 14 + b / 48 * 48 - 2 * j + 1 ∨
      b = 30 + b / 48 * 48 - 2 * j ∨ b = 30 + b / 48 * 48 - 2 * j + 1 ∨
      b = 46 + b / 48 * 48 - 2 * j ∨ b = 46 + b / 48 * 48 - 2 * j + 1 := by
    omega
  rcases hplace with h | h | h | h | h | h
  · exact ⟨_, Or.inl ⟨h, rfl⟩⟩
  · exact ⟨_, Or.inr (Or.inl ⟨h, rfl⟩)⟩
  · exact ⟨_, Or.inr (Or.inr (Or.inl ⟨h, rfl⟩))⟩
  · exact ⟨_, Or.inr (Or.inr (Or.inr (Or.inl ⟨h, rfl⟩)))⟩
  · exact ⟨_, Or.inr (Or.inr (Or.inr (Or.inr (Or.inl ⟨h, rfl⟩))))⟩
  · exact ⟨_, Or.inr (Or.inr (Or.inr (Or.inr (Or.inr ⟨h, rfl⟩))))⟩

/-- The stores of a reset are the width three and a zero for each bit of the
strip. -/
theorem mem_rstStores :
    p ∈ rstStores ↔ ∃ k < ledNum * 24, p = (2 * k, 3) ∨ p = (2 * k + 1, 0) := by
  simp only [rstStores, List.mem_flatMap, List.mem_range, List.mem_cons, List.not_mem_nil, or_false]

/-- What the stores of a refresh leave is its encoding. -/
theorem stores_agree (r : Refresh) : ∀ p ∈ r.stores, r.frame[p.1]? = some p.2 := by
  intro p hp
  cases r with
  | reflash rgb => exact strip_agrees hp
  | rst =>
      obtain ⟨k, hk, h⟩ := mem_rstStores.mp hp
      obtain ⟨hlow, hhigh⟩ := halfWords_getElem? Refresh.rst.pulses k
      have hpulse : Refresh.rst.pulses[k]? = some 3 := List.getElem?_replicate_of_lt hk
      rw [hpulse] at hlow hhigh
      rcases h with rfl | rfl
      · exact hlow
      · exact hhigh

/-- Either kind of refresh stores every byte of the buffer. -/
theorem stores_cover (r : Refresh) : ∀ b < bufferSize, ∃ v, (b, v) ∈ r.stores := by
  intro b hb
  cases r with
  | reflash rgb => exact strip_covers rgb.leds (by rw [rgb.length_eq]; exact hb)
  | rst =>
      have hk : b / 2 < ledNum * 24 := by
        rw [bufferSize] at hb
        omega
      rcases Nat.mod_two_eq_zero_or_one b with h | h
      · exact ⟨3, mem_rstStores.mpr ⟨b / 2, hk, Or.inl (by rw [show 2 * (b / 2) = b by omega])⟩⟩
      · exact ⟨0, mem_rstStores.mpr ⟨b / 2, hk, Or.inr (by rw [show 2 * (b / 2) + 1 = b by omega])⟩⟩

/-- The refreshes as what fills the buffer before each transfer, of which
the transfer reads a half-word at a time. -/
def ledFeed : Feed bufferSize Refresh where
  beat := 2
  stores := Refresh.stores
  frame := Refresh.frame
  length_frame := length_frame
  agrees := stores_agree
  covers := stores_cover

end Led

end WeatherTerminal
