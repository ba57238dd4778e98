import Mathlib.Data.List.Perm.Subperm
import WeatherTerminal.Led.Encode
/-!
# The LED strip — reading the buffer back

What a strip of LEDs makes of the buffer: half-words, each a bit by its
pulse width, 24 of them a colour. Behind a refresh it reads the colours
that were refreshed, so the buffer determines them.
-/

namespace WeatherTerminal

namespace Led

/-! ## The reader -/

/-- The half-words of a buffer, the low byte first, as the transfer takes
them. -/
def halfWords : List UInt8 → List ℕ
  | low :: high :: rest => (low.toNat + 256 * high.toNat) :: halfWords rest
  | _ => []

/-- The bit of a pulse width, where it is one of the two. -/
def bitOf (w : ℕ) : Option Bool :=
  if w = 2 then some false else if w = 7 then some true else none

/-- A byte from its bits, the highest first. -/
def byteOf (bs : List Bool) : UInt8 :=
  UInt8.ofNat (bs.foldl (fun v bit => 2 * v + bit.toNat) 0)

/-- A colour from its twenty-four bits: green, red, blue. -/
def colourOf (bs : List Bool) : RGBColor :=
  ⟨byteOf (bs.take 8), byteOf ((bs.drop 8).take 8), byteOf (bs.drop 16)⟩

/-- The colours of the first `n` LEDs, read from the half-words of a transfer.
-/
def readLeds : ℕ → List ℕ → Option (List RGBColor)
  | 0, _ => some []
  | n + 1, ws =>
      ((ws.take 24).mapM bitOf).bind fun bs =>
        (readLeds n (ws.drop 24)).map fun leds => colourOf bs :: leds

/-! ## Round trips -/

theorem byteOf_bits (v : UInt8) : byteOf (bits v) = v := by
  have hv := v.toNat_lt
  have hbits : bits v = [v.toNat.testBit 7, v.toNat.testBit 6, v.toNat.testBit 5,
      v.toNat.testBit 4, v.toNat.testBit 3, v.toNat.testBit 2, v.toNat.testBit 1,
      v.toNat.testBit 0] := rfl
  -- each bit doubles what is above it
  have hstep : ∀ k, 2 * (v.toNat / 2 ^ (k + 1)) + v.toNat / 2 ^ k % 2 = v.toNat / 2 ^ k := by
    intro k
    rw [Nat.pow_succ, ← Nat.div_div_eq_div_mul]
    exact Nat.div_add_mod _ 2
  have hhighest : 2 * 0 + v.toNat / 2 ^ 7 % 2 = v.toNat / 2 ^ 7 := by omega
  refine UInt8.toNat_inj.mp ?_
  rw [byteOf, hbits, UInt8.toNat_ofNat']
  simp only [List.foldl_cons, List.foldl_nil, Nat.toNat_testBit]
  rw [hhighest, hstep 6, hstep 5, hstep 4, hstep 3, hstep 2, hstep 1, hstep 0, Nat.pow_zero,
    Nat.div_one, Nat.mod_eq_of_lt hv]

/-- A colour is read back from the bits of its components. -/
theorem colourOf_bits (c : RGBColor) : colourOf (bits c.G ++ bits c.R ++ bits c.B) = c := by
  have hlength : ∀ v, (bits v).length = 8 := fun v => rfl
  rw [colourOf, List.append_assoc, List.take_left' (hlength c.G), List.drop_left' (hlength c.G),
    List.take_left' (hlength c.R), ← List.append_assoc,
    List.drop_left' (by rw [List.length_append, hlength, hlength]), byteOf_bits, byteOf_bits,
    byteOf_bits]

/-- The half-words of a frame are its pulses, each with a zero as its high
byte. -/
theorem halfWords_frame (pulses : List UInt8) :
    halfWords (pulses.flatMap fun w => [w, 0]) = pulses.map UInt8.toNat := by
  induction pulses with
  | nil => rfl
  | cons w pulses ih =>
      rw [List.flatMap_cons, List.map_cons, ← ih]
      rfl

/-- A bit is read back from its pulse. -/
theorem bitOf_pulse (bit : Bool) : bitOf (pulse bit).toNat = some bit := by
  cases bit <;> rfl

theorem mapM_bitOf (bs : List Bool) : ((bs.map pulse).map UInt8.toNat).mapM bitOf = some bs := by
  induction bs with
  | nil => rfl
  | cons bit bs ih =>
      rw [List.map_cons, List.map_cons, List.mapM_cons, bitOf_pulse, ih]
      rfl

/-- The colours of a strip are read back from its pulses, by induction over
the LEDs. -/
theorem readLeds_pulses (leds : List RGBColor) :
    readLeds leds.length ((leds.flatMap colourPulses).map UInt8.toNat) = some leds := by
  induction leds with
  | nil => rfl
  | cons c leds ih =>
      have hlength : ((colourPulses c).map UInt8.toNat).length = 24 := rfl
      rw [List.flatMap_cons, List.map_append, List.length_cons, readLeds,
        List.take_left' hlength, List.drop_left' hlength, ih, colourPulses, mapM_bitOf]
      show some (colourOf _ :: leds) = _
      rw [colourOf_bits]

/-! ## The stores -/

theorem length_ledStores (i n j : ℕ) (dat : RGBColor) :
    (ledStores i n j dat).length = 6 * n := by
  induction n generalizing j dat with
  | zero => rfl
  | succ n ih =>
      rw [ledStores, List.length_append, ih, Nat.mul_succ, Nat.add_comm]
      rfl

/-- **Every byte of the buffer is stored once**, and no other. -/
theorem stripStores_perm (leds : List RGBColor) :
    ((stripStores leds).map Prod.fst).Perm (List.range (leds.length * 48)) := by
  have hlength : ((stripStores leds).map Prod.fst).length = leds.length * 48 := by
    have hpieces := length_pieces (f := fun p : RGBColor × ℕ => ledStores p.2 8 0 p.1)
      (fun p => length_ledStores p.2 8 0 p.1) leds.zipIdx
    rw [List.length_map, stripStores, hpieces, List.length_zipIdx, Nat.mul_comm]
  have hsubset : List.range (leds.length * 48) ⊆ (stripStores leds).map Prod.fst := by
    intro b hb
    obtain ⟨v, hv⟩ := strip_covers leds (List.mem_range.mp hb)
    exact List.mem_map.mpr ⟨(b, v), hv, rfl⟩
  have hsubperm := List.subperm_of_subset List.nodup_range hsubset
  refine (hsubperm.perm_of_length_le ?_).symm
  rw [hlength, List.length_range]

/-- What `RGB_Reflash` leaves of a buffer is the frame of the strip, whatever
was there. -/
theorem writes_stripStores (leds : List RGBColor) (buffer : Block (leds.length * 48)) :
    (buffer.writes (stripStores leds)).bytes = stripFrame leds := by
  refine Block.writes_eq ?_ (fun p hp => strip_agrees hp) fun b hb => strip_covers leds hb
  have hwords := length_pieces (f := fun w : UInt8 => [w, 0]) (w := 2) (fun _ => rfl)
    (leds.flatMap colourPulses)
  rw [stripFrame, hwords, length_pieces length_colourPulses]
  omega

/-! ## The loop -/

/-- A LED more at the end of the strip makes its own stores behind the others.
-/
theorem stripStores_append (leds : List RGBColor) (dat : RGBColor) :
    stripStores (leds ++ [dat]) = stripStores leds ++ ledStores leds.length 8 0 dat := by
  have hlast : [dat].zipIdx leds.length = [(dat, leds.length)] := rfl
  rw [stripStores, List.zipIdx_append, List.flatMap_append, Nat.zero_add, hlast,
    List.flatMap_singleton]
  rfl

/-- **The loop ends with the stores of all LEDs** where its counter can
count them. -/
theorem stripLoop_eq {leds : List RGBColor} {fuel : ℕ} (hnum : leds.length < 2 ^ 16)
    (hfuel : leds.length < fuel) : stripLoop leds fuel = some (stripStores leds) := by
  have hcount : ∀ k ≤ leds.length, (UInt16.ofNat k).toNat = k := by
    intro k hk
    rw [UInt16.toNat_ofNat']
    exact Nat.mod_eq_of_lt (by omega)
  have hrounds : Rounds (fun s : UInt16 × List (ℕ × UInt8) => decide (s.1.toNat < leds.length))
      (fun s => leds[s.1.toNat]?.map fun dat => (s.1 + 1, s.2 ++ ledStores s.1.toNat 8 0 dat))
      (fun k => (UInt16.ofNat k, stripStores (leds.take k))) leds.length := by
    intro k hk
    simp only
    rw [hcount k (by omega), List.getElem?_eq_getElem hk, Option.map_some, List.take_add_one,
      List.getElem?_eq_getElem hk, Option.toList_some, stripStores_append, List.length_take,
      Nat.min_eq_left (by omega), UInt16.ofNat_add]
    exact ⟨decide_eq_true hk, rfl⟩
  have hend : decide ((UInt16.ofNat leds.length).toNat < leds.length) = false := by
    rw [hcount _ (Nat.le_refl _)]
    exact decide_eq_false (Nat.lt_irrefl _)
  have hloop := congrArg (Option.map Prod.snd) (loop_eq_some _ _ _ hfuel hrounds hend)
  rw [List.take_length] at hloop
  exact hloop

/-- The stores of a loop that has ended are those of the whole strip, while
its counter can hold the number. -/
theorem eq_stripStores {leds : List RGBColor} {fuel : ℕ} {stores : List (ℕ × UInt8)}
    (hnum : leds.length < 2 ^ 16) (h : stripLoop leds fuel = some stores) :
    stores = stripStores leds := by
  obtain ⟨s, hloop, rfl⟩ := Option.map_eq_some_iff.mp h
  have hmore := loop_mono hloop (Nat.le_add_right fuel (leds.length + 1))
  have hall : stripLoop leds (fuel + (leds.length + 1)) = some (stripStores leds) :=
    stripLoop_eq hnum (by omega)
  rw [stripLoop, hmore] at hall
  exact Option.some.inj hall

/-- **And does not end on a longer strip**, the counter being below its
length for ever. -/
theorem stripLoop_eq_none {leds : List RGBColor} (hnum : 2 ^ 16 ≤ leds.length) (fuel : ℕ) :
    stripLoop leds fuel = none := by
  rw [stripLoop, Option.map_eq_none_iff]
  generalize ((0 : UInt16), ([] : List (ℕ × UInt8))) = s
  induction fuel generalizing s with
  | zero => rfl
  | succ fuel ih =>
      have hlt : s.1.toNat < leds.length := Nat.lt_of_lt_of_le s.1.toNat_lt hnum
      rw [loop, if_pos (decide_eq_true hlt), List.getElem?_eq_getElem hlt, Option.map_some,
        Option.bind_some]
      exact ih _

/-- A refresh of the clock's strip is one of `LED_NUM` LEDs. -/
theorem reflash_eq_strip (rgb : RgbData) :
    stripLoop rgb.leds (ledNum + 1) = some (Refresh.reflash rgb).stores ∧
      (Refresh.reflash rgb).frame = stripFrame rgb.leds := by
  refine ⟨stripLoop_eq ?_ ?_, rfl⟩
  · rw [rgb.length_eq]
    decide
  · rw [rgb.length_eq]
    decide

/-- **`RGB_Reflash` round-trips**: on a strip of any length its counter can
count, and whatever the buffer held, its loop ends, every byte of the
buffer is stored once and none outside, reading it back gives the colours,
its half-words are the two pulse widths, and different colours leave
different buffers. -/
theorem stripLoop_roundTrip (leds : List RGBColor) (hnum : leds.length < 2 ^ 16)
    (buffer : Block (leds.length * 48)) :
    ∃ stores, (∀ fuel, leds.length < fuel → stripLoop leds fuel = some stores) ∧
      (stores.map Prod.fst).Perm (List.range (leds.length * 48)) ∧
      readLeds leds.length (halfWords (buffer.writes stores).bytes) = some leds ∧
      (∀ w ∈ halfWords (buffer.writes stores).bytes, w = 2 ∨ w = 7) ∧
      ∀ (others : List RGBColor) (buffer' : Block (others.length * 48)) (fuel : ℕ)
        (stores' : List (ℕ × UInt8)),
        others.length = leds.length → others ≠ leds → stripLoop others fuel = some stores' →
          (buffer'.writes stores').bytes ≠ (buffer.writes stores).bytes := by
  have hsent : halfWords (buffer.writes (stripStores leds)).bytes =
      (leds.flatMap colourPulses).map UInt8.toNat := by
    rw [← halfWords_frame]
    exact congrArg halfWords (writes_stripStores leds buffer)
  refine ⟨stripStores leds, fun fuel hfuel => stripLoop_eq hnum hfuel, stripStores_perm leds,
    ?_, ?_, ?_⟩
  · rw [hsent, readLeds_pulses]
  · intro w hw
    rw [hsent] at hw
    obtain ⟨v, hv, rfl⟩ := List.mem_map.mp hw
    obtain ⟨c, -, hv⟩ := List.mem_flatMap.mp hv
    obtain ⟨bit, -, rfl⟩ := List.mem_map.mp hv
    cases bit
    · exact Or.inl rfl
    · exact Or.inr rfl
  · intro others buffer' fuel stores' hlength hne hloop heq
    obtain rfl := eq_stripStores (by rwa [hlength]) hloop
    have hothers : halfWords (buffer.writes (stripStores leds)).bytes =
        (others.flatMap colourPulses).map UInt8.toNat := by
      rw [← halfWords_frame, ← heq]
      exact congrArg halfWords (writes_stripStores others buffer')
    -- one buffer reads back one way
    have hread := readLeds_pulses others
    rw [← hothers, hsent, hlength, readLeds_pulses] at hread
    exact hne (Option.some.inj hread).symm

/-- Two LEDs, over a buffer of zeros: the loop ends, and they are read back.
-/
theorem stripLoop_roundTrip_two :
    ∃ stores, (∀ fuel, 2 < fuel → stripLoop [ltHour, ltMinute] fuel = some stores) ∧
      (stores.map Prod.fst).Perm (List.range (2 * 48)) ∧
      readLeds 2 (halfWords ((Block.filled (2 * 48) 0).writes stores).bytes) =
        some [ltHour, ltMinute] ∧
      (∀ w ∈ halfWords ((Block.filled (2 * 48) 0).writes stores).bytes, w = 2 ∨ w = 7) ∧
      ∀ (others : List RGBColor) (buffer' : Block (others.length * 48)) (fuel : ℕ)
        (stores' : List (ℕ × UInt8)),
        others.length = 2 → others ≠ [ltHour, ltMinute] →
          stripLoop others fuel = some stores' →
            (buffer'.writes stores').bytes ≠ ((Block.filled (2 * 48) 0).writes stores).bytes :=
  stripLoop_roundTrip [ltHour, ltMinute] (by decide) (Block.filled (2 * 48) 0)

end Led

end WeatherTerminal
