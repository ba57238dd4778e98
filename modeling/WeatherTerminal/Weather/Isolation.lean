import WeatherTerminal.Weather.Fill
import WeatherTerminal.Weather.Plain
/-!
# Weather — one member, one text

Each member of the record is to hold its own text and no copy is to leave
the array it is aimed at. No copy looks at the size of its array, so that
this is so exactly where all fourteen texts fit. Two more things can go
wrong before a text is copied: a day of more than two characters is cut,
and the last byte of `期` may be that of another sign behind it.
-/

namespace WeatherTerminal

namespace Weather

open Jsmn

variable {n len : ℕ} {js : Block n} {texts : Reply (List UInt8)} {stray : List UInt8}
  {w : WeatherInfo} {month day : List UInt8} {suffix : Day → List UInt8}

/-- The date is `year-month-day`, and behind the last `期` of each weekday
stands its suffix. -/
structure Dated (texts : Reply (List UInt8)) (month day : List UInt8)
    (suffix : Day → List UInt8) : Prop where
  date : ∃ year, texts .date = year ++ dash :: (month ++ dash :: day) ∧ dash ∉ year
  month : dash ∉ month
  day : dash ∉ day
  week : ∀ d, ∃ front, texts (.dayWeek d) = front ++ (utf8 "期" ++ suffix d)
  last : ∀ d, ¬ utf8 "期" <:+: suffix d

/-- The text a member is to hold, from the texts of the reply and the parts of
its date and weekdays. -/
def Member.intended (texts : Reply (List UInt8)) (month day : List UInt8)
    (suffix : Day → List UInt8) : Member → List UInt8
  | .nowTemp => texts .feelsLike ++ utf8 "°"
  | .nowText => texts .text ++ utf8 " " ++ texts .high ++ utf8 "/" ++ texts .low ++ utf8 "°C"
  | .nowLocation => texts .name
  | .nowHumi => utf8 "空气湿度 " ++ texts .rh ++ utf8 "%"
  | .nowTime => month ++ utf8 "月" ++ day ++ utf8 "日 " ++ texts .week
  | .dayTime d => utf8 "周" ++ suffix d
  | .dayText d => texts (.textDay d)
  | .dayTemp d => texts (.dayHigh d) ++ utf8 "/" ++ texts (.dayLow d) ++ utf8 "°C"

/-- The texts fit their arrays, counted in bytes, with the NUL behind each. -/
structure Fits (texts : Reply (List UInt8)) (month day : List UInt8)
    (suffix : Day → List UInt8) : Prop where
  nowTemp : (texts .feelsLike).length ≤ 7
  nowText : (texts .text).length + (texts .high).length + (texts .low).length ≤ 14
  nowLocation : (texts .name).length ≤ 19
  nowHumi : (texts .rh).length ≤ 5
  nowTime : month.length + day.length + (texts .week).length ≤ 17
  dayTime : ∀ d, (suffix d).length ≤ 6
  dayText : ∀ d, (texts (.textDay d)).length ≤ 9
  dayTemp : ∀ d, (texts (.dayHigh d)).length + (texts (.dayLow d)).length ≤ 5

/-- The strings of the body in the buffer are formatted into the record:
no copy leaves its array, and afterwards each member holds the text it is
to hold, its NUL inside the array. -/
def FieldsIsolated (js : Block n) (len : ℕ) (stray : List UInt8) (w : WeatherInfo)
    (intended : Member → List UInt8) : Prop :=
  ∃ count tokens strings js' copies w',
    jsmnParse js.bytes len (some numTokens) = .ok (count, tokens) ∧
      weatherLookups (some tokens) (some (jsmnItemInit 0 0 count)) js = .ok (strings, js') ∧
      copiesReply strings js' stray = .ok copies ∧ AllInside w copies ∧
      formatReply strings js' stray w = .ok w' ∧
      ∀ m : Member, w'.Holds m.offset m.size (intended m)

/-! ## The text that is written -/

/-- The month of such a date is the one that the code takes. -/
theorem Dated.monthOf_eq (h : Dated texts month day suffix) :
    monthOf (texts .date) = some month := by
  obtain ⟨year, hdate, hyear⟩ := h.date
  have hsplit :
      year ++ dash :: (month ++ dash :: day) = (year ++ dash :: month) ++ dash :: day := by
    simp
  rw [hdate, hsplit, monthOf, beforeLast_append h.day, Option.bind_some, afterFirst_append hyear]

/-- Its day is too, the first two bytes of it. -/
theorem Dated.dayOf_eq (h : Dated texts month day suffix) :
    dayOf (texts .date) = some (day.take 2) := by
  obtain ⟨year, hdate, -⟩ := h.date
  have hsplit :
      year ++ dash :: (month ++ dash :: day) = (year ++ dash :: month) ++ dash :: day := by
    simp
  rw [hdate, hsplit, dayOf, afterLast_append h.day, Option.map_some]

/-- A weekday's suffix is found where no sign of it ends like `期`. -/
theorem Dated.afterLast_eq_iff (h : Dated texts month day suffix) (d : Day) :
    (afterLast qi (texts (.dayWeek d))).getD (cstrOf stray) = suffix d ↔ qi ∉ suffix d := by
  obtain ⟨front, hweek⟩ := h.week d
  rw [hweek]
  exact afterLast_week_iff

/-- **The texts written are those intended** where the day has no more than
two characters and the suffixes can be told. -/
theorem Dated.written_eq_iff (h : Dated texts month day suffix) (stray : List UInt8) :
    (∀ m : Member, m.written stray texts = m.intended texts month day suffix) ↔
      day.length ≤ 2 ∧ ∀ d, qi ∉ suffix d := by
  have htime : Member.written stray texts .nowTime =
      month ++ utf8 "月" ++ day.take 2 ++ utf8 "日 " ++ texts .week := by
    rw [Member.written, h.monthOf_eq, h.dayOf_eq]
    rfl
  constructor
  · intro hall
    refine ⟨?_, fun d => ?_⟩
    · have hnow := htime.symm.trans (hall .nowTime)
      have htake : day.take 2 = day := by simpa [Member.intended] using hnow
      have := congrArg List.length htake
      rw [List.length_take] at this
      omega
    · exact h.afterLast_eq_iff d |>.mp (List.append_cancel_left (hall (.dayTime d)))
  · rintro ⟨hday, hsuffix⟩ m
    rcases m with - | - | - | - | - | d | d | d
    case nowTime => rw [htime, List.take_of_length_le hday]; rfl
    case dayTime => exact congrArg (utf8 "周" ++ ·) ((h.afterLast_eq_iff d).mpr (hsuffix d))
    all_goals rfl

/-- The texts fit where what each member is to hold fits its array. -/
theorem fits_iff : Fits texts month day suffix ↔
    ∀ m : Member, (m.intended texts month day suffix).length < m.size := by
  have hliteral : (utf8 "°").length = 2 ∧ (utf8 "°C").length = 3 ∧ (utf8 " ").length = 1 ∧
      (utf8 "/").length = 1 ∧ (utf8 "%").length = 1 ∧ (utf8 "空气湿度 ").length = 13 ∧
      (utf8 "月").length = 3 ∧ (utf8 "日 ").length = 4 ∧ (utf8 "周").length = 3 := by decide
  obtain ⟨h1, h2, h3, h4, h5, h6, h7, h8, h9⟩ := hliteral
  -- what the literals leave of each array
  have hlength : ∀ m : Member, (m.intended texts month day suffix).length < m.size ↔ match m with
      | .nowTemp => (texts .feelsLike).length ≤ 7
      | .nowText => (texts .text).length + (texts .high).length + (texts .low).length ≤ 14
      | .nowLocation => (texts .name).length ≤ 19
      | .nowHumi => (texts .rh).length ≤ 5
      | .nowTime => month.length + day.length + (texts .week).length ≤ 17
      | .dayTime d => (suffix d).length ≤ 6
      | .dayText d => (texts (.textDay d)).length ≤ 9
      | .dayTemp d => (texts (.dayHigh d)).length + (texts (.dayLow d)).length ≤ 5 := by
    intro m
    rcases m with - | - | - | - | - | d | d | d <;>
      simp only [Member.intended, Member.size, List.length_append, h1, h2, h3, h4, h5, h6, h7, h8,
        h9] <;>
      omega
  constructor
  · intro h m
    rw [hlength]
    rcases m with - | - | - | - | - | d | d | d
    exacts [h.nowTemp, h.nowText, h.nowLocation, h.nowHumi, h.nowTime, h.dayTime d, h.dayText d,
      h.dayTemp d]
  · intro h
    have hall := fun m => (hlength m).mp (h m)
    exact ⟨hall .nowTemp, hall .nowText, hall .nowLocation, hall .nowHumi, hall .nowTime,
      fun d => hall (.dayTime d), fun d => hall (.dayText d), fun d => hall (.dayTemp d)⟩

/-! ## The record -/

/-- The fields are isolated where what is written is intended and fits. -/
theorem fieldsIsolated_iff_written (hreply : ReplyOf js.bytes len texts)
    (intended : Member → List UInt8) :
    FieldsIsolated js len stray w intended ↔
      ∀ m, m.written stray texts = intended m ∧ (m.written stray texts).length < m.size := by
  obtain ⟨count, tokens, hparse, strings, js', p, hrun, hs⟩ := strings_of_replyOf hreply
  have hz := hs.zero_notMem
  have hholds := writeAll_holds_iff (w := w) (t := intended)
    (Member.zero_notMem_written stray hz)
  constructor
  · rintro ⟨count₁, tokens₁, strings₁, js₁, copies, w', hparse₁, hrun₁, -, -, hformat, h⟩
    obtain ⟨rfl, rfl⟩ : count = count₁ ∧ tokens = tokens₁ := by
      simpa using hparse.symm.trans hparse₁
    obtain ⟨rfl, rfl⟩ : strings = strings₁ ∧ js' = js₁ := by simpa using hrun.symm.trans hrun₁
    obtain rfl := Except.ok.inj ((formatReply_eq stray hs).symm.trans hformat)
    exact hholds.mp h
  · intro h
    exact ⟨count, tokens, strings, js', _, _, hparse, hrun, copiesReply_eq stray hs,
      allInside_flatMap hz fun m _ => (h m).2, formatReply_eq stray hs, hholds.mpr h⟩

/-- **Each member holds its own text exactly where all of them fit**, the
day has no more than two characters, and behind `期` no sign has its last
byte. -/
theorem fieldsIsolated_iff (hreply : ReplyOf js.bytes len texts)
    (hdated : Dated texts month day suffix) (stray : List UInt8) (w : WeatherInfo) :
    FieldsIsolated js len stray w (Member.intended texts month day suffix) ↔
      day.length ≤ 2 ∧ (∀ d, qi ∉ suffix d) ∧ Fits texts month day suffix := by
  rw [fieldsIsolated_iff_written hreply, fits_iff, ← and_assoc, ← hdated.written_eq_iff stray]
  constructor
  · exact fun h => ⟨fun m => (h m).1, fun m => (h m).1 ▸ (h m).2⟩
  · exact fun h m => ⟨h.1 m, (h.1 m).symm ▸ h.2 m⟩

/-! ## Two replies -/

/-- The date of the sample has a month and a day, and its weekdays their sign.
-/
theorem sampleTexts_dated :
    Dated sampleTexts (utf8 "03") (utf8 "17") (fun _ => utf8 "日") where
  date := ⟨utf8 "2024", by decide⟩
  month := by decide
  day := by decide
  week := fun _ => ⟨utf8 "星", rfl⟩
  last := fun _ => by decide

/-- The record of the sample holds each text by itself. -/
theorem fieldsIsolated_sample :
    FieldsIsolated (Block.holding respBufsz sampleReply.render sampleReply_length)
      sampleReply.render.length [] (Block.filled infoSize 0)
      (Member.intended sampleTexts (utf8 "03") (utf8 "17") fun _ => utf8 "日") := by
  have hreply : ReplyOf (Block.holding respBufsz sampleReply.render sampleReply_length).bytes
      sampleReply.render.length sampleTexts :=
    replyOf_document sampleReply_size sampleReply_textAt _
  refine (fieldsIsolated_iff hreply sampleTexts_dated [] _).mpr
    ⟨by decide, fun _ => by decide, ?_⟩
  exact ⟨by decide, by decide, by decide, by decide, by decide, fun _ => by decide,
    fun _ => (by decide : clear.bytes.length ≤ 9),
    fun _ => (by decide : degrees.bytes.length + degrees.bytes.length ≤ 5)⟩

/-- A reply of the service on a day of frost. -/
def frost : Reply Text
  | .name | .text | .textDay _ => clear
  | .rh | .feelsLike => degrees
  | .high | .dayHigh _ => { bytes := utf8 "-10", valid := by decide }
  | .low | .dayLow _ => { bytes := utf8 "-20", valid := by decide }
  | .date => { bytes := utf8 "2024-01-21", valid := by decide }
  | .week | .dayWeek _ => sunday

/-- A reply with a temperature of three bytes fits the buffer. -/
theorem frost_length : (plainReply frost).render.length ≤ respBufsz := by decide +kernel

/-- Its date and its weekdays are like those of the sample. -/
theorem frost_dated :
    Dated (fun f => (frost f).bytes) (utf8 "01") (utf8 "21") (fun _ => utf8 "日") where
  date := ⟨utf8 "2024", by decide⟩
  month := by decide
  day := by decide
  week := fun _ => ⟨utf8 "星", rfl⟩
  last := fun _ => by decide

/-- Two numbers of three characters make a text of ten bytes, and
`day1_temp` has ten. -/
theorem not_fieldsIsolated_frost :
    ReplyOf (Block.holding respBufsz (plainReply frost).render frost_length).bytes
        (plainReply frost).render.length (fun f => (frost f).bytes) ∧
      Dated (fun f => (frost f).bytes) (utf8 "01") (utf8 "21") (fun _ => utf8 "日") ∧
      ¬ FieldsIsolated (Block.holding respBufsz (plainReply frost).render frost_length)
        (plainReply frost).render.length [] (Block.filled infoSize 0)
        (Member.intended (fun f => (frost f).bytes) (utf8 "01") (utf8 "21") fun _ => utf8 "日") := by
  have hreply : ReplyOf (Block.holding respBufsz (plainReply frost).render frost_length).bytes
      (plainReply frost).render.length (fun f => (frost f).bytes) := replyOf_plainReply frost _
  refine ⟨hreply, frost_dated, fun h => ?_⟩
  have hfit := ((fieldsIsolated_iff_written hreply _).mp h (.dayTemp .day1)).2
  exact absurd hfit (by decide)

end Weather

end WeatherTerminal
