import WeatherTerminal.Led.Model.Clock
/-!
# The LED clock — what it shows

The text of `ctime` has its first colon behind the hour, so the two cuts
leave the digits of hour and minute. The fill makes the result independent
of what the LEDs showed before. The hour is set in the outer ring and the
minute in the LEDs inside it, so what is left are two tables (`hour_table`,
`minute_table`), which the reading rule takes back to hour and minute.
-/

namespace WeatherTerminal

namespace Led

/-! ## The text -/

/-- The text up to the first colon: the day, the month, the day of the month
and the hour. -/
def Tm.upToHour (t : Tm) : List UInt8 :=
  dayName t.wday ++ monthName t.mon ++ dayOfMonth t.mday ++ [32] ++ num2str t.hour

/-- The text behind the minute's colon: the seconds, the year and a line feed.
-/
def Tm.behindMinute (t : Tm) : List UInt8 :=
  num2str t.sec ++ [32] ++ num2str (t.year / 100) ++ num2str (t.year % 100) ++ [10]

/-- No NUL and no colon, so that neither the string nor the search for a colon
ends in it. -/
def Plain (s : List UInt8) : Prop := ∀ c ∈ s, c ≠ 0 ∧ c ≠ 58

instance (s : List UInt8) : Decidable (Plain s) :=
  inferInstanceAs (Decidable (∀ c ∈ s, c ≠ 0 ∧ c ≠ 58))

theorem Plain.append {s t : List UInt8} (hs : Plain s) (ht : Plain t) : Plain (s ++ t) :=
  fun c hc => (List.mem_append.mp hc).elim (hs c) (ht c)

/-- A single byte that is neither of the two is such a text. -/
theorem plain_singleton {c : UInt8} (h0 : c ≠ 0) (h1 : c ≠ 58) : Plain [c] :=
  List.forall_mem_singleton.mpr ⟨h0, h1⟩

theorem dayName_plain : ∀ d, (dayName d).length = 4 ∧ Plain (dayName d) := by
  decide +kernel

/-- The four characters of every month are. -/
theorem monthName_plain : ∀ m, (monthName m).length = 4 ∧ Plain (monthName m) := by
  decide +kernel

/-- So is every day of the month, a blank in place of its leading zero. -/
theorem dayOfMonth_plain : ∀ d : Fin 32, Plain (dayOfMonth d) := by
  decide +kernel

/-- Two digits are read back as the number they were made from. -/
theorem num2str_plain : ∀ i : Fin 100, Plain (num2str i) ∧ atoi (num2str i) = i := by
  decide +kernel

/-- The buffer `ctime` returns, by its parts: the hour before the first colon
and the minute behind it. -/
theorem asctimeR_bytes (t : Tm) :
    (asctimeR t).bytes = t.upToHour ++ 58 :: (num2str t.min ++ 58 :: (t.behindMinute ++ [0])) := by
  obtain ⟨a, b, c, d, hday⟩ := List.length_eq_four.mp (dayName_plain t.wday).1
  obtain ⟨e, f, g, h, hmon⟩ := List.length_eq_four.mp (monthName_plain t.mon).1
  unfold asctimeR Tm.upToHour Tm.behindMinute
  rw [hday, hmon]
  simp only [dayOfMonth, num2str, Block.storeAll, Block.store_bytes, Block.filled_bytes,
    List.replicate, List.set_cons_zero, List.set_cons_succ, List.cons_append, List.nil_append]

/-- There is no colon before the one behind the hour. -/
theorem upToHour_plain (t : Tm) : Plain t.upToHour := by
  have hday := (dayName_plain t.wday).2
  have hmon := (monthName_plain t.mon).2
  have hhour := (num2str_plain ⟨t.hour, by omega⟩).1
  have hspace : Plain [32] := plain_singleton (by decide) (by decide)
  exact (((hday.append hmon).append (dayOfMonth_plain t.mday)).append hspace).append hhour

theorem behindMinute_plain (t : Tm) : Plain t.behindMinute := by
  have hsec := (num2str_plain ⟨t.sec, by omega⟩).1
  have hcentury := (num2str_plain ⟨t.year / 100, by omega⟩).1
  have hyear := (num2str_plain ⟨t.year % 100, by omega⟩).1
  have hspace : Plain [32] := plain_singleton (by decide) (by decide)
  have hend : Plain [10] := plain_singleton (by decide) (by decide)
  exact (((hsec.append hspace).append hcentury).append hyear).append hend

/-- Thirteen characters end in the hour, the last two of them. -/
theorem upToHour_split (t : Tm) :
    t.upToHour.length = 13 ∧ t.upToHour.drop 11 = num2str t.hour := by
  have hbefore : (dayName t.wday ++ monthName t.mon ++ dayOfMonth t.mday ++ [32]).length = 11 := by
    simp only [List.length_append, (dayName_plain t.wday).1, (monthName_plain t.mon).1]
    rfl
  refine ⟨?_, ?_⟩
  · rw [Tm.upToHour, List.length_append, hbefore]
    rfl
  · rw [Tm.upToHour, ← hbefore, List.drop_left]

/-- The string `ctime` returns has no NUL before its end. -/
theorem asctimeR_cstr (t : Tm) :
    (asctimeR t).cstr 0 = t.upToHour ++ 58 :: (num2str t.min ++ 58 :: t.behindMinute) := by
  have hmin := (num2str_plain ⟨t.min, by omega⟩).1
  let text := t.upToHour ++ 58 :: (num2str t.min ++ 58 :: t.behindMinute)
  have hzero : 0 ∉ text := by
    intro h
    simp only [text, List.mem_append, List.mem_cons] at h
    rcases h with h | h | h | h | h
    · exact (upToHour_plain t 0 h).1 rfl
    · exact absurd h (by decide)
    · exact (hmin 0 h).1 rfl
    · exact absurd h (by decide)
    · exact (behindMinute_plain t 0 h).1 rfl
  have hbytes : (asctimeR t).bytes = text ++ 0 :: [] := by
    rw [asctimeR_bytes]
    simp only [text, List.append_assoc, List.cons_append]
  rw [Block.cstr, List.drop_zero, hbytes, cstrOf_append_zero hzero]

/-- **The two cuts leave the hour and the minute**, which the strip is set to.
-/
theorem ledMatrixExampleEntry_eq (t : Tm) (s : Strip) :
    ledMatrixExampleEntry (asctimeR t) s =
      some (ledMatrixSetTime ((t.hour % 12 : ℕ) : ℤ) (t.min : ℕ) s) := by
  obtain ⟨hlen, hhour⟩ := upToHour_split t
  have hcstr := asctimeR_cstr t
  have hcolon : (asctimeR t).strchr 0 58 = some 13 := by
    have hnone : (58 : UInt8) ∉ t.upToHour := fun h => (upToHour_plain t 58 h).2 rfl
    rw [Block.strchr_eq_some hcstr hnone, hlen]
  -- the first cut is the minute's colon
  have hcut : ((asctimeR t).store 16 0).cstr 0 = t.upToHour ++ 58 :: num2str t.min := by
    have hfit : 16 ≤ ((asctimeR t).cstr 0).length := by
      rw [hcstr]
      simp only [List.length_append, List.length_cons, hlen, num2str]
      omega
    have htake := Block.cstr_store_zero hfit
    rw [Nat.zero_add] at htake
    rw [htake, hcstr]
    have hsplit : t.upToHour ++ 58 :: (num2str t.min ++ 58 :: t.behindMinute) =
        (t.upToHour ++ 58 :: num2str t.min) ++ 58 :: t.behindMinute := by
      simp only [List.append_assoc, List.cons_append]
    have hsixteen : (t.upToHour ++ 58 :: num2str t.min).length = 16 := by
      rw [List.length_append, hlen]
      rfl
    rw [hsplit, ← hsixteen, List.take_left]
  have hlenCut : (((asctimeR t).store 16 0).cstr 0).length = 16 := by
    rw [hcut, List.length_append, hlen]
    rfl
  -- the second the hour's, which leaves the minute behind it alone
  have hafter : ((asctimeR t).store 16 0).cstr 11 = num2str t.hour ++ 58 :: num2str t.min := by
    have hdrop := Block.cstr_add (p := 0) (k := 11) (b := (asctimeR t).store 16 0)
      (by rw [hlenCut]; omega)
    rw [Nat.zero_add] at hdrop
    rw [hdrop, hcut, List.drop_append_of_le_length (by omega), hhour]
  have hhourText : (((asctimeR t).store 16 0).store 13 0).cstr 11 = num2str t.hour := by
    have htake := Block.cstr_store_zero (p := 11) (k := 2) (b := (asctimeR t).store 16 0)
      (by rw [hafter]; simp [num2str])
    rw [show 11 + 2 = 13 from rfl] at htake
    rw [htake, hafter]
    rfl
  have hminText : (((asctimeR t).store 16 0).store 13 0).cstr 14 = num2str t.min := by
    have hdrop := Block.cstr_add (p := 0) (k := 14) (b := (asctimeR t).store 16 0)
      (by rw [hlenCut]; omega)
    rw [Nat.zero_add] at hdrop
    rw [Block.cstr_store_apart (Or.inl (by omega)), hdrop, hcut, List.drop_append, hlen]
    rw [List.drop_eq_nil_of_le (by omega)]
    rfl
  have hread : atoi (num2str t.hour) = (t.hour : ℕ) ∧ atoi (num2str t.min) = (t.min : ℕ) :=
    ⟨(num2str_plain ⟨t.hour, by omega⟩).2, (num2str_plain ⟨t.min, by omega⟩).2⟩
  unfold ledMatrixExampleEntry
  rw [hcolon]
  show some (ledMatrixSetTime ((atoi ((((asctimeR t).store 16 0).store 13 0).cstr 11)).tmod 12)
    (atoi ((((asctimeR t).store 16 0).store 13 0).cstr 14)) s) = _
  rw [hhourText, hminText, hread.1, hread.2]
  rfl

/-! ## The frames -/

variable {leds : List RGBColor} {hour minute : ℕ}

/-- What the LEDs show is what the rule reads off them. -/
theorem decode_of_shows (h : Shows leds hour minute) : decode leds = some (hour, minute) := by
  obtain ⟨hhour, hten, hunit, hmiddle, -⟩ := h
  unfold decode
  have hfive : (if litAt leds 18 then 5 else 0) = if 5 < minute % 10 then 5 else 0 :=
    if_congr hmiddle rfl rfl
  rw [hhour, hten, hunit, hfive]
  by_cases hzero : minute / 10 = 0
  · rw [if_pos hzero]
    show some (hour, _) = some (hour, minute)
    congr 2
    split <;> omega
  · rw [if_neg hzero]
    show some (hour, _) = some (hour, minute)
    congr 2
    split <;> omega

/-! ## Hour and minute apart -/

/-- What `lightTime` sets for the minute, in this order: the tens, the five,
and the units. -/
def minuteSets (minute : ℤ) : List (ℕ × RGBColor) :=
  let ten := minute.tdiv 10
  let unit := minute.tmod 10
  let low := if unit > 5 then unit - 5 else unit
  (if ten ≠ 0 then [(uint16 (ten + 12), ltMinuteTen)] else []) ++
    (if unit > 5 then [(18, ltMinuteUnit)] else []) ++
      [if ten = low ∧ ten ≠ 0 then (uint16 (ten + 12), ltMinute)
        else (uint16 (low + 12), ltMinuteUnit)]

/-- Several LEDs set one after the other, a later one over an earlier. -/
def setAll (sets : List (ℕ × RGBColor)) (rgb : RgbData) : RgbData :=
  sets.foldl (fun rgb p => setLEDColor rgb p.1 p.2) rgb

/-- What is lit for a time: the hour, and then what is set for the minute. -/
theorem lightTime_eq (hour : Fin 12) (minute : ℤ) (rgb : RgbData) :
    lightTime (hour : ℕ) minute rgb =
      setAll (minuteSets minute) (setLEDColor rgb hour ltHour) := by
  have hne : ((hour : ℕ) : ℤ) ≠ 12 := by omega
  have hid : uint16 (hour : ℕ) = hour := by
    unfold uint16
    omega
  unfold lightTime minuteSets
  rw [if_neg hne, hid]
  dsimp only
  by_cases hten : minute.tdiv 10 ≠ 0
  · by_cases hunit : minute.tmod 10 > 5
    · simp only [if_pos hten, if_pos hunit]
      split <;> rfl
    · simp only [if_pos hten, if_neg hunit]
      split <;> rfl
  · by_cases hunit : minute.tmod 10 > 5
    · simp only [if_neg hten, if_pos hunit]
      split <;> rfl
    · simp only [if_neg hten, if_neg hunit]
      split <;> rfl

variable {sets : List (ℕ × RGBColor)} {rgb rgb' : RgbData} {k : ℕ}

theorem setAll_cons (p : ℕ × RGBColor) :
    setAll (p :: sets) rgb = setAll sets (setLEDColor rgb p.1 p.2) := rfl

/-- A LED shows what was set last, or what it showed before. -/
theorem setAll_leds_congr (h : rgb.leds[k]? = rgb'.leds[k]?) :
    (setAll sets rgb).leds[k]? = (setAll sets rgb').leds[k]? := by
  induction sets generalizing rgb rgb' with
  | nil => exact h
  | cons p sets ih =>
      refine ih ?_
      show (rgb.leds.set p.1 p.2)[k]? = (rgb'.leds.set p.1 p.2)[k]?
      rw [List.getElem?_set, List.getElem?_set, rgb.length_eq, rgb'.length_eq, h]

/-- A LED that is not set keeps its colour, whatever the others are set to. -/
theorem setAll_leds_apart (h : ∀ p ∈ sets, p.1 ≠ k) :
    (setAll sets rgb).leds[k]? = rgb.leds[k]? := by
  induction sets generalizing rgb with
  | nil => rfl
  | cons p sets ih =>
      rw [setAll_cons, ih fun q hq => h q (List.mem_cons_of_mem p hq)]
      exact List.getElem?_set_ne (h p List.mem_cons_self)

theorem setAll_overrun (h : ∀ p ∈ sets, p.1 < ledNum) :
    (setAll sets rgb).overrun = rgb.overrun := by
  induction sets generalizing rgb with
  | nil => rfl
  | cons p sets ih =>
      rw [setAll_cons, ih fun q hq => h q (List.mem_cons_of_mem p hq)]
      show (rgb.overrun || decide (ledNum ≤ p.1)) = _
      rw [decide_eq_false (Nat.not_le.mpr (h p List.mem_cons_self)), Bool.or_false]

/-- The minute stays in the inner ring and the middle. -/
theorem minuteSets_inner : ∀ minute : Fin 60, ∀ p ∈ minuteSets (minute : ℕ),
    12 ≤ p.1 ∧ p.1 < ledNum := by
  decide +kernel

/-- **The table of the hours**: each of the twelve lights its own LED of the
outer ring and no other. -/
theorem hour_table : ∀ hour : Fin 12,
    hourLeds (setLEDColor (RgbData.plain dark false) hour ltHour).leds = [(hour : ℕ)] := by
  decide +kernel

/-- What the inner ring and the middle show of a minute. -/
def ShowsMinute (leds : List RGBColor) (minute : ℕ) : Prop :=
  tenLeds leds = (if minute / 10 = 0 then [] else [minute / 10]) ∧
  unitLeds leds = [if 5 < minute % 10 then minute % 10 - 5 else minute % 10] ∧
  (litAt leds 18 ↔ 5 < minute % 10) ∧
  ∀ k < 6, litAt leds (12 + k) → k ∈ tenLeds leds ++ unitLeds leds

instance (leds : List RGBColor) (minute : ℕ) : Decidable (ShowsMinute leds minute) :=
  inferInstanceAs (Decidable (_ ∧ _ ∧ _ ∧ _))

/-- **The table of the minutes**: each of the sixty is shown by the LEDs that
are set for it. -/
theorem minute_table : ∀ minute : Fin 60,
    ShowsMinute (setAll (minuteSets (minute : ℕ)) (RgbData.plain dark false)).leds minute := by
  decide +kernel

/-- The outer ring is read off its twelve LEDs, whatever the others show. -/
theorem hourLeds_congr {leds leds' : List RGBColor} (h : ∀ k < 12, leds[k]? = leds'[k]?) :
    hourLeds leds = hourLeds leds' := by
  refine List.filter_congr fun k hk => ?_
  rw [litAt, litAt, h k (List.mem_range.mp hk)]

/-- And the minute off the others, whatever the outer ring shows. -/
theorem showsMinute_congr {leds leds' : List RGBColor} {minute : ℕ}
    (h : ∀ k, 12 ≤ k → leds[k]? = leds'[k]?) (hshows : ShowsMinute leds minute) :
    ShowsMinute leds' minute := by
  have hring : ∀ k, leds[12 + k]? = leds'[12 + k]? := fun k => h (12 + k) (by omega)
  have hten : tenLeds leds = tenLeds leds' := by
    simp only [tenLeds, hring]
  have hunit : unitLeds leds = unitLeds leds' := by
    simp only [unitLeds, hring]
  have hlit : ∀ k, litAt leds (12 + k) = litAt leds' (12 + k) := fun k => by
    simp only [litAt, hring]
  have hmiddle : litAt leds 18 = litAt leds' 18 := hlit 6
  unfold ShowsMinute at hshows ⊢
  simpa only [hten, hunit, hlit, hmiddle] using hshows

/-- **Every frame shows its time**, whatever stores are remembered from
before. -/
theorem lightTime_shows (hour : Fin 12) (minute : Fin 60) (o : Bool) :
    Shows (lightTime (hour : ℕ) (minute : ℕ) (RgbData.plain dark o)).leds hour minute := by
  rw [lightTime_eq]
  set lit := setLEDColor (RgbData.plain dark o) hour ltHour with hlit
  refine ⟨?_, ?_⟩
  · rw [← hour_table hour]
    refine hourLeds_congr fun k hk => ?_
    exact setAll_leds_apart fun p hp => by
      have := (minuteSets_inner minute p hp).1
      omega
  · refine showsMinute_congr (fun k hk => (setAll_leds_congr ?_).symm) (minute_table minute)
    show ((RgbData.plain dark o).leds.set hour ltHour)[k]? = (RgbData.plain dark o).leds[k]?
    exact List.getElem?_set_ne (by omega)

theorem lightTime_overrun (hour : Fin 12) (minute : Fin 60) (o : Bool) :
    (lightTime (hour : ℕ) (minute : ℕ) (RgbData.plain dark o)).overrun = o := by
  rw [lightTime_eq, setAll_overrun fun p hp => (minuteSets_inner minute p hp).2]
  show (o || decide (ledNum ≤ (hour : ℕ))) = o
  have hnum : ledNum = 19 := rfl
  rw [decide_eq_false (by omega), Bool.or_false]

/-- No colour depends on what stores are remembered from before. -/
theorem lightTime_leds (hour : Fin 12) (minute : Fin 60) (o o' : Bool) :
    (lightTime (hour : ℕ) (minute : ℕ) (RgbData.plain dark o)).leds =
      (lightTime (hour : ℕ) (minute : ℕ) (RgbData.plain dark o')).leds := by
  rw [lightTime_eq, lightTime_eq]
  exact List.ext_getElem? fun k => setAll_leds_congr rfl

/-- `led_matrix_set_time` starts from a dark strip, so nothing is left of the
time before. -/
theorem ledMatrixSetTime_rgb (hour minute : ℤ) (s : Strip) :
    (ledMatrixSetTime hour minute s).rgb =
      lightTime hour minute (RgbData.plain dark s.rgb.overrun) := by
  show lightTime hour minute (fillLeds dark s.rgb) = _
  rw [fillLeds_eq]

/-- **One call, whatever the LEDs showed before**, shows the time it is given.
-/
theorem ledMatrixSetTime_shows (t : Tm) (s : Strip) :
    Shows (ledMatrixSetTime ((t.hour % 12 : ℕ) : ℤ) (t.min : ℕ) s).rgb.leds (t.hour % 12 : ℕ) t.min ∧
      (ledMatrixSetTime ((t.hour % 12 : ℕ) : ℤ) (t.min : ℕ) s).rgb.overrun = s.rgb.overrun := by
  let hour : Fin 12 := ⟨t.hour % 12, Nat.mod_lt _ (by omega)⟩
  rw [ledMatrixSetTime_rgb]
  exact ⟨lightTime_shows hour t.min s.rgb.overrun, lightTime_overrun hour t.min s.rgb.overrun⟩

/-- **The LED clock shows hour and minute, and nothing else.** Whatever
the LEDs showed before, the frame reads back as the hour modulo twelve and
the minute, and two times have one frame exactly where these agree. -/
theorem ledMatrixExampleEntry_shows :
    (∀ (t : Tm) (s : Strip), ∃ s', ledMatrixExampleEntry (asctimeR t) s = some s' ∧
      Shows s'.rgb.leds (t.hour % 12 : ℕ) t.min ∧
      decode s'.rgb.leds = some ((t.hour % 12 : ℕ), t.min.val) ∧
      s'.rgb.overrun = s.rgb.overrun) ∧
    ∀ (t₁ t₂ : Tm) (s₁ s₂ : Strip),
      (ledMatrixExampleEntry (asctimeR t₁) s₁).map (·.rgb.leds) =
          (ledMatrixExampleEntry (asctimeR t₂) s₂).map (·.rgb.leds) ↔
        (t₁.hour % 12 : ℕ) = (t₂.hour % 12 : ℕ) ∧ t₁.min = t₂.min := by
  refine ⟨fun t s => ?_, fun t₁ t₂ s₁ s₂ => ?_⟩
  · obtain ⟨hshows, hover⟩ := ledMatrixSetTime_shows t s
    exact ⟨_, ledMatrixExampleEntry_eq t s, hshows, decode_of_shows hshows, hover⟩
  · rw [ledMatrixExampleEntry_eq, ledMatrixExampleEntry_eq, Option.map_some, Option.map_some]
    constructor
    · intro hframe
      -- one frame reads back one way
      have h₁ := decode_of_shows (ledMatrixSetTime_shows t₁ s₁).1
      have h₂ := decode_of_shows (ledMatrixSetTime_shows t₂ s₂).1
      rw [Option.some.inj hframe, h₂] at h₁
      obtain ⟨hhour, hmin⟩ := Prod.mk.inj (Option.some.inj h₁)
      exact ⟨hhour.symm, Fin.ext hmin.symm⟩
    · rintro ⟨hhour, hmin⟩
      let hour : Fin 12 := ⟨t₂.hour % 12, Nat.mod_lt _ (by omega)⟩
      rw [ledMatrixSetTime_rgb, ledMatrixSetTime_rgb, hhour, hmin]
      exact congrArg some (lightTime_leds hour t₂.min s₁.rgb.overrun s₂.rgb.overrun)

end Led

end WeatherTerminal
