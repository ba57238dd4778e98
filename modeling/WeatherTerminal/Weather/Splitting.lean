import WeatherTerminal.Weather.Isolation
/-!
# Weather — cutting the date and the weekdays

What cutting comes to for dates and weekdays of any kind. The cut itself
never reaches another text (`Strings.splitDate`); it needs two dashes and a
byte of `期`, without which it steps on from null. Where the texts are of
the form wanted the members say what they should if no dash stands in the
year or the day, no sign behind `期` ends like it, and the texts fit.
-/

namespace WeatherTerminal

namespace Weather

open Jsmn

variable {n len : ℕ} {js : Block n} {texts : Reply (List UInt8)} {stray : List UInt8}
  {w : WeatherInfo} {date year month day week front suffix : List UInt8}

/-- A date `year-month-day`, the month without a dash and the day of one or
two characters. -/
structure IsYmd (date year month day : List UInt8) : Prop where
  eq : date = year ++ dash :: (month ++ dash :: day)
  month : dash ∉ month
  one_le : 1 ≤ day.length
  le_two : day.length ≤ 2

/-- A weekday with `期`, and what stands behind the last one. -/
structure IsWeek (week front suffix : List UInt8) : Prop where
  eq : week = front ++ (utf8 "期" ++ suffix)
  last : ¬ utf8 "期" <:+: suffix

/-- What cutting the date of `js` into `cut`, cutting the weekdays, and the
record written then are to be like. -/
structure CutRight (texts : Reply (List UInt8)) (strings : Reply (Option ℕ)) (js cut : Block n)
    (month day : Ptr) (weeks : Day → Ptr) (w : WeatherInfo) : Prop where
  found : month ≠ .wild ∧ day ≠ .wild ∧ ∀ d, weeks d ≠ .wild
  others : ∀ f, f ≠ .date → ∀ p, strings f = some p → cut.cstr p = js.cstr p
  time : ∀ year month day, IsYmd (texts .date) year month day →
    w.Holds Member.nowTime.offset Member.nowTime.size
      (month ++ utf8 "月" ++ day ++ utf8 "日 " ++ texts .week)
  dayTime : ∀ d front suffix, IsWeek (texts (.dayWeek d)) front suffix →
    w.Holds (Member.dayTime d).offset (Member.dayTime d).size (utf8 "周" ++ suffix)

/-- The date and the weekdays of the body in the buffer are cut right. -/
def Splits (js : Block n) (len : ℕ) (stray : List UInt8) (w : WeatherInfo)
    (texts : Reply (List UInt8)) : Prop :=
  ∃ count tokens strings js' cut month day weeks w',
    jsmnParse js.bytes len (some numTokens) = .ok (count, tokens) ∧
      weatherLookups (some tokens) (some (jsmnItemInit 0 0 count)) js = .ok (strings, js') ∧
      splitDate js' (strings .date) = .ok (cut, month, day) ∧
      (∀ d, weekPtr cut (strings (.dayWeek d)) = .ok (weeks d)) ∧
      formatReply strings js' stray w = .ok w' ∧
      CutRight texts strings js' cut month day weeks w'

/-- The texts can be cut: there are the bytes that are looked for, and no
others like them where a text is of the form wanted. -/
structure Cuttable (texts : Reply (List UInt8)) : Prop where
  dashes : 2 ≤ (texts .date).count dash
  qi : ∀ d, qi ∈ texts (.dayWeek d)
  date : ∀ year month day, IsYmd (texts .date) year month day →
    dash ∉ year ∧ dash ∉ day ∧ month.length + day.length + (texts .week).length ≤ 17
  week : ∀ d front suffix, IsWeek (texts (.dayWeek d)) front suffix →
    Weather.qi ∉ suffix ∧ suffix.length ≤ 6

/-! ## What is found -/

theorem dayOf_eq_none_iff : dayOf date = none ↔ dash ∉ date := by
  rw [dayOf, Option.map_eq_none_iff, afterLast_eq_none_iff]

/-- There is a month between two dashes, and none without a second. -/
theorem monthOf_eq_none_iff : monthOf date = none ↔ date.count dash < 2 := by
  by_cases hdash : dash ∈ date
  · obtain ⟨s, t, rfl, ht⟩ := exists_last hdash
    rw [monthOf, beforeLast_append ht, Option.bind_some, afterFirst_eq_none_iff,
      List.count_append, List.count_cons_self, List.count_eq_zero_of_not_mem ht,
      ← List.count_eq_zero]
    omega
  · rw [monthOf, beforeLast, if_neg hdash, List.count_eq_zero_of_not_mem hdash]
    simp

/-! ## The texts that are written -/

/-- The date is cut at its last dash. What of the day stands before that
goes with the month. -/
theorem IsYmd.exists_cut (h : IsYmd date year month day) :
    ∃ rest last, monthOf date = afterFirst dash (year ++ dash :: (month ++ rest)) ∧
      dayOf date = some last ∧ rest.length + last.length = day.length ∧
      (dash ∉ day ∧ rest = [] ∧ last = day ∨
        dash ∈ day ∧ ∃ more, rest = dash :: more) := by
  have hcut : ∀ rest last, date = (year ++ dash :: (month ++ rest)) ++ dash :: last →
      dash ∉ last → last.length ≤ 2 →
      monthOf date = afterFirst dash (year ++ dash :: (month ++ rest)) ∧
        dayOf date = some last := by
    intro rest last hdate hlast hlen
    rw [hdate, monthOf, dayOf, beforeLast_append hlast, afterLast_append hlast, Option.bind_some,
      Option.map_some, List.take_of_length_le hlen]
    exact ⟨rfl, rfl⟩
  have htwo := h.le_two
  by_cases hdash : dash ∈ day
  · obtain ⟨more, last, rfl, hlast⟩ := exists_last hdash
    rw [List.length_append, List.length_cons] at htwo
    obtain ⟨hmonth, hday⟩ := hcut (dash :: more) last (by rw [h.eq]; simp) hlast (by omega)
    refine ⟨dash :: more, last, hmonth, hday, ?_, Or.inr ⟨hdash, more, rfl⟩⟩
    rw [List.length_append, List.length_cons, List.length_cons]
    omega
  · obtain ⟨hmonth, hday'⟩ := hcut [] day (by rw [h.eq]; simp) hdash htwo
    exact ⟨[], day, hmonth, hday', Nat.zero_add _, Or.inl ⟨hdash, rfl, rfl⟩⟩

/-- **The time is the one wanted** where no dash stands in the year or the
day. -/
theorem IsYmd.written_iff (h : IsYmd (texts .date) year month day) :
    Member.written stray texts .nowTime =
        month ++ utf8 "月" ++ day ++ utf8 "日 " ++ texts .week ↔
      dash ∉ year ∧ dash ∉ day := by
  obtain ⟨rest, last, hmonth, hday, hlen, hrest⟩ := h.exists_cut
  rw [Member.written, hmonth, hday, Option.getD_some]
  by_cases hyear : dash ∈ year
  · -- a part of the year is written as well
    obtain ⟨u, v, rfl, hu⟩ := exists_first hyear
    have hsplit : u ++ dash :: v ++ dash :: (month ++ rest) =
        u ++ dash :: (v ++ dash :: (month ++ rest)) := by simp
    rw [hsplit, afterFirst_append hu, Option.getD_some]
    refine iff_of_false (fun heq => ?_) fun hnot => hnot.1 hyear
    have := congrArg List.length heq
    simp only [List.length_append, List.length_cons] at this
    omega
  · rw [afterFirst_append hyear, Option.getD_some]
    rcases hrest with ⟨hnot, rfl, rfl⟩ | ⟨hdash, more, rfl⟩
    · rw [List.append_nil]
      exact iff_of_true rfl ⟨hyear, hnot⟩
    · -- the dash stands where the sign for the month should
      have hsign : utf8 "月" = [0xE6, 0x9C, 0x88] := by decide
      refine iff_of_false (fun heq => ?_) fun hnot => hnot.2 hdash
      rw [hsign] at heq
      simp only [List.append_assoc, List.append_cancel_left_eq, List.cons_append] at heq
      exact absurd (List.cons.inj heq).1 (by decide)

/-- A weekday is cut right where the byte that is looked for does not occur
behind its sign. -/
theorem IsWeek.written_iff {d : Day} (h : IsWeek (texts (.dayWeek d)) front suffix) :
    Member.written stray texts (.dayTime d) = utf8 "周" ++ suffix ↔ qi ∉ suffix := by
  rw [Member.written, List.append_cancel_left_eq, h.eq]
  exact afterLast_week_iff

/-! ## The members that hold them -/

/-- A member behind which no other one before it is written holds its own
text. -/
theorem writeAll_holds_of_index {text : Member → List UInt8} {m : Member} {k : ℕ}
    {s : List UInt8} (hk : writeOrder[k]? = some m)
    (hbehind : ∀ m' ∈ writeOrder.drop (k + 1), m.offset < m'.offset) (hzero : 0 ∉ text m) :
    (writeAll text writeOrder w).Holds m.offset m.size s ↔
      text m = s ∧ (text m).length < m.size := by
  obtain ⟨hlt, hget⟩ := List.getElem?_eq_some_iff.mp hk
  have horder : writeOrder = writeOrder.take k ++ m :: writeOrder.drop (k + 1) := by
    rw [← hget, ← List.drop_eq_getElem_cons hlt, List.take_append_drop]
  rw [horder]
  refine writeAll_holds (fun hm => ?_) hzero fun m' hm' hlow => ?_
  · exact absurd (hbehind m hm) (Nat.lt_irrefl _)
  · have := hbehind m' hm'
    omega

/-- The record holds the text of the date where it fits its array. -/
theorem holds_nowTime_iff {text : Member → List UInt8} {s : List UInt8}
    (hzero : 0 ∉ text .nowTime) :
    (writeAll text writeOrder w).Holds Member.nowTime.offset Member.nowTime.size s ↔
      text .nowTime = s ∧ (text .nowTime).length < Member.nowTime.size :=
  writeAll_holds_of_index (show writeOrder[4]? = _ from rfl) (by decide) hzero

/-- The record holds the text of a weekday where it fits its array. -/
theorem holds_dayTime_iff {text : Member → List UInt8} {s : List UInt8} (d : Day)
    (hzero : 0 ∉ text (.dayTime d)) :
    (writeAll text writeOrder w).Holds (Member.dayTime d).offset (Member.dayTime d).size s ↔
      text (.dayTime d) = s ∧ (text (.dayTime d)).length < (Member.dayTime d).size := by
  rcases d with - | - | -
  · exact writeAll_holds_of_index (show writeOrder[7]? = _ from rfl) (by decide) hzero
  · exact writeAll_holds_of_index (show writeOrder[10]? = _ from rfl) (by decide) hzero
  · exact writeAll_holds_of_index (show writeOrder[13]? = _ from rfl) (by decide) hzero

/-- A date is split right under a condition on its parts alone. -/
theorem IsYmd.holds_iff (h : IsYmd (texts .date) year month day) (hz : ∀ f, 0 ∉ texts f) :
    (writeAll (Member.written stray texts) writeOrder w).Holds Member.nowTime.offset
        Member.nowTime.size (month ++ utf8 "月" ++ day ++ utf8 "日 " ++ texts .week) ↔
      dash ∉ year ∧ dash ∉ day ∧ month.length + day.length + (texts .week).length ≤ 17 := by
  have hliteral : (utf8 "月").length = 3 ∧ (utf8 "日 ").length = 4 := by decide
  rw [holds_nowTime_iff (Member.zero_notMem_written stray hz _), h.written_iff, and_assoc]
  refine and_congr_right fun hyear => and_congr_right fun hday => ?_
  rw [h.written_iff.mpr ⟨hyear, hday⟩]
  simp only [List.length_append, hliteral, Member.size]
  omega

/-- A weekday is split right under a condition on its parts alone. -/
theorem IsWeek.holds_iff {d : Day} (h : IsWeek (texts (.dayWeek d)) front suffix)
    (hz : ∀ f, 0 ∉ texts f) :
    (writeAll (Member.written stray texts) writeOrder w).Holds (Member.dayTime d).offset
        (Member.dayTime d).size (utf8 "周" ++ suffix) ↔
      qi ∉ suffix ∧ suffix.length ≤ 6 := by
  have hliteral : (utf8 "周").length = 3 := by decide
  rw [holds_dayTime_iff d (Member.zero_notMem_written stray hz _), h.written_iff]
  refine and_congr_right fun hqi => ?_
  rw [h.written_iff.mpr hqi]
  simp only [List.length_append, hliteral, Member.size]
  omega

/-! ## The cut -/

/-- The weekdays of a reply, once its date is cut. -/
theorem Strings.weekPtr {n : ℕ} {js cut : Block n} {strings : Reply (Option ℕ)} {p : Reply ℕ}
    (hs : Strings js strings p texts) (hother : ∀ f, f ≠ .date → cut.cstr (p f) = texts f)
    (d : Day) :
    ∃ week, Weather.weekPtr cut (strings (.dayWeek d)) = .ok week ∧
      (week = .wild ↔ qi ∉ texts (.dayWeek d)) := by
  refine ⟨Ptr.next (cut.strrchr (p (.dayWeek d)) qi), by rw [hs.some_eq]; rfl, ?_⟩
  rw [(reads_week (p (.dayWeek d))).wild_iff, hother (.dayWeek d) (by simp), afterLast_eq_none_iff]

/-- What has been cut right could be cut, having the signs it is cut at. -/
theorem Splits.cuttable (hreply : ReplyOf js.bytes len texts) (h : Splits js len stray w texts) :
    Cuttable texts := by
  obtain ⟨count, tokens, hparse, strings, js', p, hrun, hs⟩ := strings_of_replyOf hreply
  obtain ⟨cut, month, day, hsplit, hmonth, hday, hother⟩ := hs.splitDate
  obtain ⟨count₁, tokens₁, strings₁, js₁, cut₁, month₁, day₁, weeks, w', hparse₁, hrun₁, hsplit₁,
    hweek₁, hformat, hright⟩ := h
  obtain ⟨rfl, rfl⟩ : count = count₁ ∧ tokens = tokens₁ := by
    simpa using hparse.symm.trans hparse₁
  obtain ⟨rfl, rfl⟩ : strings = strings₁ ∧ js' = js₁ := by simpa using hrun.symm.trans hrun₁
  obtain ⟨rfl, rfl, rfl⟩ : cut = cut₁ ∧ month = month₁ ∧ day = day₁ := by
    simpa using hsplit.symm.trans hsplit₁
  obtain rfl := Except.ok.inj ((formatReply_eq stray hs).symm.trans hformat)
  obtain ⟨hmonth₁, -, hfound⟩ := hright.found
  refine ⟨?_, fun d => ?_, fun year month day h => ?_, fun d front suffix h => ?_⟩
  · exact Nat.le_of_not_lt (mt (hmonth.wild_iff.trans monthOf_eq_none_iff).mpr hmonth₁)
  · obtain ⟨week, hweek, hwild⟩ := hs.weekPtr hother d
    obtain rfl := Except.ok.inj ((hweek₁ d).symm.trans hweek)
    exact not_not.mp (mt hwild.mpr (hfound d))
  · exact (h.holds_iff hs.zero_notMem).mp (hright.time year month day h)
  · exact (h.holds_iff hs.zero_notMem).mp (hright.dayTime d front suffix h)

/-- **Date and weekdays are cut right exactly where the texts can be
cut.** -/
theorem splits_iff (hreply : ReplyOf js.bytes len texts) (stray : List UInt8) (w : WeatherInfo) :
    Splits js len stray w texts ↔ Cuttable texts := by
  refine ⟨Splits.cuttable hreply, fun h => ?_⟩
  obtain ⟨count, tokens, hparse, strings, js', p, hrun, hs⟩ := strings_of_replyOf hreply
  obtain ⟨cut, month, day, hsplit, hmonth, hday, hother⟩ := hs.splitDate
  choose weeks hweeks hwild using hs.weekPtr hother
  refine ⟨count, tokens, strings, js', cut, month, day, weeks, _, hparse, hrun, hsplit, hweeks,
    formatReply_eq stray hs, ⟨?_, ?_, fun d => ?_⟩, fun f hf q hq => ?_,
    fun year month day hymd => ?_, fun d front suffix hd => ?_⟩
  · exact mt (hmonth.wild_iff.trans monthOf_eq_none_iff).mp (Nat.not_lt.mpr h.dashes)
  · refine mt (hday.wild_iff.trans dayOf_eq_none_iff).mp (not_not.mpr (List.count_pos_iff.mp ?_))
    have := h.dashes
    omega
  · exact mt (hwild d).mp (not_not.mpr (h.qi d))
  · obtain rfl := Option.some.inj ((hs.some_eq f).symm.trans hq)
    rw [hother f hf, hs.cstr_eq]
  · exact (hymd.holds_iff hs.zero_notMem).mpr (h.date year month day hymd)
  · exact (hd.holds_iff hs.zero_notMem).mpr (h.week d front suffix hd)

/-! ## Two replies -/

/-- A weekday has the sign behind its front, and the suffix behind that. -/
theorem IsWeek.suffix_eq (h : IsWeek week front suffix) :
    (week.drop front.length).take 3 = utf8 "期" ∧ suffix = week.drop (front.length + 3) ∧
      front.length + 3 + suffix.length = week.length := by
  have hsign : (utf8 "期").length = 3 := by decide
  obtain rfl := h.eq
  refine ⟨?_, ?_, ?_⟩
  · rw [List.drop_left, ← hsign, List.take_left]
  · rw [← hsign, ← List.append_assoc, ← List.length_append, List.drop_left]
  · rw [List.length_append, List.length_append, hsign, Nat.add_assoc]

/-- **Short dates with two dashes and short weekdays can be cut**, where
none but the last `期` ends in its last byte. -/
theorem cuttable_of_short (hdate : (texts .date).count dash = 2)
    (hlen : (texts .date).length + (texts .week).length ≤ 19)
    (hqi : ∀ d, qi ∈ texts (.dayWeek d)) (hweek : ∀ d, (texts (.dayWeek d)).length ≤ 9)
    (hlast : ∀ d, ∀ k < (texts (.dayWeek d)).length,
      ((texts (.dayWeek d)).drop k).take 3 = utf8 "期" → qi ∉ (texts (.dayWeek d)).drop (k + 3)) :
    Cuttable texts where
  dashes := hdate.ge
  qi := hqi
  date year month day h := by
    rw [h.eq] at hdate hlen
    simp only [List.count_append, List.count_cons_self] at hdate
    simp only [List.length_append, List.length_cons] at hlen
    exact ⟨List.count_eq_zero.mp (by omega), List.count_eq_zero.mp (by omega), by omega⟩
  week d front suffix h := by
    obtain ⟨hsign, hsuffix, hlength⟩ := h.suffix_eq
    have hshort := hweek d
    refine ⟨?_, by omega⟩
    rw [hsuffix]
    exact hlast d front.length (by omega) hsign

/-- The dates of the sample are split right. -/
theorem splits_sample :
    Splits (Block.holding respBufsz sampleReply.render sampleReply_length)
      sampleReply.render.length [] (Block.filled infoSize 0) sampleTexts := by
  have hreply : ReplyOf (Block.holding respBufsz sampleReply.render sampleReply_length).bytes
      sampleReply.render.length sampleTexts :=
    replyOf_document sampleReply_size sampleReply_textAt _
  have hsunday : qi ∈ sunday.bytes ∧ sunday.bytes.length ≤ 9 ∧ ∀ k < sunday.bytes.length,
      (sunday.bytes.drop k).take 3 = utf8 "期" → qi ∉ sunday.bytes.drop (k + 3) := by decide
  exact (splits_iff hreply [] _).mpr (cuttable_of_short (by decide) (by decide)
    (fun _ => hsunday.1) (fun _ => hsunday.2.1) fun _ => hsunday.2.2)

/-- A reply in English, with the weekdays of an English calendar. -/
def english : Reply Text
  | .name | .text | .textDay _ => { bytes := utf8 "Clear", valid := by decide }
  | .date => march
  | .week | .dayWeek _ => { bytes := utf8 "Sunday", valid := by decide }
  | _ => degrees

theorem english_length : (plainReply english).render.length ≤ respBufsz := by decide +kernel

/-- Nothing of `期` in `Sunday`, so what is written of it comes from behind
null. -/
theorem not_splits_english :
    ReplyOf (Block.holding respBufsz (plainReply english).render english_length).bytes
        (plainReply english).render.length (fun f => (english f).bytes) ∧
      ¬ Splits (Block.holding respBufsz (plainReply english).render english_length)
        (plainReply english).render.length [] (Block.filled infoSize 0)
        (fun f => (english f).bytes) := by
  have hreply : ReplyOf (Block.holding respBufsz (plainReply english).render english_length).bytes
      (plainReply english).render.length (fun f => (english f).bytes) :=
    replyOf_plainReply english _
  refine ⟨hreply, fun h => ?_⟩
  exact absurd ((h.cuttable hreply).qi .day1) (by decide)

end Weather

end WeatherTerminal
