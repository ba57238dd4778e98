import WeatherTerminal.Weather.Copies
/-!
# Weather — what a record says

The members of the record are written one after the other, each from its
start, and a text that is too long runs on into the members behind it. So
a member says what it should exactly where its own text fits and so do
those that stand before it (`writeAll_holds`); over the whole record, where
every text fits (`writeAll_holds_iff`).

The texts themselves are those of the strings (`formatReply_eq`), the date
being cut in the buffer while the others are still to be copied.
-/

namespace WeatherTerminal

namespace Weather

open Jsmn

/-- The order the members are written in, those of the day before those of the
days after it. -/
def writeOrder : List Member :=
  [.nowText, .nowLocation, .nowTemp, .nowHumi, .nowTime,
    .dayText .day1, .dayTemp .day1, .dayTime .day1,
    .dayText .day2, .dayTemp .day2, .dayTime .day2,
    .dayText .day3, .dayTemp .day3, .dayTime .day3]

/-- Each member is written once: behind it the order does not come to it
again. -/
theorem Member.writeOrder_split (m : Member) :
    ∃ before behind, writeOrder = before ++ m :: behind ∧ m ∉ behind := by
  have hmem : m ∈ writeOrder := by
    rcases m with - | - | - | - | - | (- | - | -) | (- | - | -) | (- | - | -) <;> decide
  have hnodup : writeOrder.Nodup := by decide
  obtain ⟨before, behind, horder⟩ := List.append_of_mem hmem
  rw [horder] at hnodup
  exact ⟨before, behind, horder, (List.nodup_cons.mp (List.nodup_append.mp hnodup).2.1).1⟩

/-! ## Writing them -/

/-- A text for each of the members, copied in the order given. -/
def writeAll (text : Member → List UInt8) (order : List Member) (w : WeatherInfo) : WeatherInfo :=
  order.foldl (fun w m => w.strcpy m.offset (text m)) w

section

variable {text t : Member → List UInt8} {w : WeatherInfo}

theorem writeAll_append (order order' : List Member) :
    writeAll text (order ++ order') w = writeAll text order' (writeAll text order w) :=
  List.foldl_append

/-- Texts that end before a stretch or start behind it leave it. -/
theorem writeAll_apart {order : List Member} {o k : ℕ}
    (h : ∀ m ∈ order, o + k ≤ m.offset ∨ m.offset + (text m).length < o) :
    ((writeAll text order w).bytes.drop o).take k = (w.bytes.drop o).take k := by
  induction order generalizing w with
  | nil => rfl
  | cons m order ih =>
      have hm := h m (List.mem_cons_self ..)
      have hstep : ((w.strcpy m.offset (text m)).bytes.drop o).take k =
          (w.bytes.drop o).take k :=
        Block.take_drop_storeAll_apart (by simp; omega)
      exact (ih fun m' hm' => h m' (List.mem_cons_of_mem m hm')).trans hstep

/-- A text is held or not by the array alone. -/
theorem holds_congr {n i size : ℕ} {b b' : Block n} {s : List UInt8}
    (h : (b.bytes.drop i).take size = (b'.bytes.drop i).take size) :
    b.Holds i size s ↔ b'.Holds i size s := by
  have hfront : ∀ {k}, k ≤ size → (b.bytes.drop i).take k = (b'.bytes.drop i).take k := by
    intro k hk
    have := congrArg (List.take k) h
    rwa [List.take_take, List.take_take, Nat.min_eq_left hk] at this
  constructor
  · rintro ⟨hs, hlen, hb⟩
    exact ⟨hs, hlen, by rw [← hfront hlen, hb]⟩
  · rintro ⟨hs, hlen, hb⟩
    exact ⟨hs, hlen, by rw [hfront hlen, hb]⟩

/-- **One member.** Where the texts of the members that stand before it and
are written behind it fit, it holds its own text, if that fits, and no
other. -/
theorem writeAll_holds {before behind : List Member} {m : Member} {s : List UInt8}
    (hother : m ∉ behind) (hzero : 0 ∉ text m)
    (hfit : ∀ m' ∈ behind, m'.offset < m.offset → (text m').length < m'.size) :
    (writeAll text (before ++ m :: behind) w).Holds m.offset m.size s ↔
      text m = s ∧ (text m).length < m.size := by
  have hapart : ∀ m' ∈ behind, m.offset + m.size ≤ m'.offset ∨
      m'.offset + (text m').length < m.offset := by
    intro m' hm'
    rcases Member.apart (show m ≠ m' from fun h => hother (h ▸ hm')) with h | h
    · exact Or.inl h
    · rcases Nat.lt_or_ge m'.offset m.offset with hlt | hge
      · have := hfit m' hm' hlt
        omega
      · have := m'.size_pos
        omega
  rw [writeAll_append]
  exact (holds_congr (writeAll_apart hapart)).trans
    (Block.holds_strcpy_iff hzero m.offset_add_size_le)

/-- **The record.** All members hold the texts wanted exactly where these
are the texts copied and every one fits. -/
theorem writeAll_holds_iff (hzero : ∀ m, 0 ∉ text m) :
    (∀ m : Member, (writeAll text writeOrder w).Holds m.offset m.size (t m)) ↔
      ∀ m, text m = t m ∧ (text m).length < m.size := by
  constructor
  · intro h
    -- from the front of the record on, each member relies on those before it
    have hupto : ∀ k, ∀ m : Member, m.offset < k → text m = t m ∧ (text m).length < m.size := by
      intro k
      induction k with
      | zero => exact fun m hm => absurd hm (Nat.not_lt_zero _)
      | succ k ih =>
          intro m hm
          obtain ⟨before, behind, horder, hother⟩ := m.writeOrder_split
          have hm := h m
          rw [horder] at hm
          exact (writeAll_holds hother (hzero m) fun m' _ hlt => (ih m' (by omega)).2).mp hm
    exact fun m => hupto (m.offset + 1) m (Nat.lt_succ_self _)
  · intro h m
    obtain ⟨before, behind, horder, hother⟩ := m.writeOrder_split
    rw [horder]
    exact (writeAll_holds hother (hzero m) fun m' _ _ => (h m').2).mpr (h m)

end

/-! ## The texts of the members -/

/-- The text a member gets: where `Member.text` has none, what stands
behind null takes the place of the missing part. -/
def Member.written (stray : List UInt8) (r : Reply (List UInt8)) : Member → List UInt8
  | .nowTemp => r .feelsLike ++ utf8 "°"
  | .nowText => r .text ++ utf8 " " ++ r .high ++ utf8 "/" ++ r .low ++ utf8 "°C"
  | .nowLocation => r .name
  | .nowHumi => utf8 "空气湿度 " ++ r .rh ++ utf8 "%"
  | .nowTime =>
      (monthOf (r .date)).getD (cstrOf stray) ++ utf8 "月" ++
        (dayOf (r .date)).getD (cstrOf stray) ++ utf8 "日 " ++ r .week
  | .dayTime d => utf8 "周" ++ (afterLast qi (r (.dayWeek d))).getD (cstrOf stray)
  | .dayText d => r (.textDay d)
  | .dayTemp d => r (.dayHigh d) ++ utf8 "/" ++ r (.dayLow d) ++ utf8 "°C"

/-- A member whose text can be cut is written with it, whatever is behind
null. -/
theorem Member.written_of_text {stray : List UInt8} {r : Reply (List UInt8)} {m : Member}
    {s : List UInt8} (h : m.text r = some s) : m.written stray r = s := by
  rcases m with - | - | - | - | - | d | d | d
  · exact Option.some.inj h
  · exact Option.some.inj h
  · exact Option.some.inj h
  · exact Option.some.inj h
  · obtain ⟨month, hmonth, h⟩ := Option.bind_eq_some_iff.mp h
    obtain ⟨day, hday, h⟩ := Option.bind_eq_some_iff.mp h
    rw [written, hmonth, hday]
    exact Option.some.inj h
  · obtain ⟨week, hweek, rfl⟩ := Option.map_eq_some_iff.mp h
    rw [written, hweek]
    rfl
  · exact Option.some.inj h
  · exact Option.some.inj h

/-! ## Cutting a text at a byte -/

section

variable {c : UInt8} {s t : List UInt8}

/-- A byte that occurs has a first place. -/
theorem exists_first (h : c ∈ s) : ∃ u v, s = u ++ c :: v ∧ c ∉ u :=
  List.eq_append_cons_of_mem h

theorem exists_last (h : c ∈ s) : ∃ u v, s = u ++ c :: v ∧ c ∉ v := by
  obtain ⟨u, v, huv, hu⟩ := List.eq_append_cons_of_mem (List.mem_reverse.mpr h)
  refine ⟨v.reverse, u.reverse, ?_, by simpa using hu⟩
  rw [← List.reverse_reverse s, huv]
  simp

/-- What stands behind a byte that does not occur before. -/
theorem afterFirst_append (hs : c ∉ s) : afterFirst c (s ++ c :: t) = some t := by
  have hdrop : (s ++ c :: t).dropWhile (· ≠ c) = c :: t := by
    rw [List.dropWhile_append_of_pos, List.dropWhile_cons_of_neg (by simp)]
    exact fun a ha => by simpa using fun h : a = c => hs (h ▸ ha)
  rw [afterFirst, if_pos (by simp), hdrop, List.tail_cons]

/-- What stands behind a byte that does not occur again. -/
theorem afterLast_append (ht : c ∉ t) : afterLast c (s ++ c :: t) = some t := by
  have htake : (s ++ c :: t).reverse.takeWhile (· ≠ c) = t.reverse := by
    rw [List.reverse_append, List.reverse_cons, List.append_assoc, List.singleton_append,
      List.takeWhile_append_of_pos, List.takeWhile_cons_of_neg (by simp), List.append_nil]
    exact fun a ha => by simpa using fun h : a = c => ht (h ▸ List.mem_reverse.mp ha)
  rw [afterLast, if_pos (by simp), htake, List.reverse_reverse]

theorem beforeLast_append (ht : c ∉ t) : beforeLast c (s ++ c :: t) = some s := by
  have hdrop : (s ++ c :: t).reverse.dropWhile (· ≠ c) = c :: s.reverse := by
    rw [List.reverse_append, List.reverse_cons, List.append_assoc, List.singleton_append,
      List.dropWhile_append_of_pos, List.dropWhile_cons_of_neg (by simp)]
    exact fun a ha => by simpa using fun h : a = c => ht (h ▸ List.mem_reverse.mp ha)
  rw [beforeLast, if_pos (by simp), hdrop, List.tail_cons, List.reverse_reverse]

/-- Behind a `c` that is not the last one stands more than what follows
the last one. -/
theorem afterLast_append_getD_iff {stray : List UInt8} :
    (afterLast c (s ++ c :: t)).getD stray = t ↔ c ∉ t := by
  constructor
  · intro h hc
    obtain ⟨u, v, huv, hv⟩ := exists_last hc
    have hsplit : s ++ c :: t = (s ++ c :: u) ++ c :: v := by
      rw [huv]
      simp
    rw [hsplit, afterLast_append hv, Option.getD_some] at h
    have hlen := congrArg List.length (huv.symm.trans h.symm)
    rw [List.length_append, List.length_cons] at hlen
    omega
  · intro h
    rw [afterLast_append h, Option.getD_some]

/-- Nothing stands behind the last of a byte that does not occur. -/
theorem afterLast_eq_none_iff : afterLast c s = none ↔ c ∉ s := by
  rw [afterLast]
  split <;> simp [*]

theorem afterFirst_eq_none_iff : afterFirst c s = none ↔ c ∉ s := by
  rw [afterFirst]
  split <;> simp [*]

/-- `期` is found where it is the last sign with its last byte. -/
theorem afterLast_week_iff {stray : List UInt8} :
    (afterLast qi (s ++ (utf8 "期" ++ t))).getD stray = t ↔ qi ∉ t := by
  have hqi : utf8 "期" = [0xE6, 0x9C, qi] := by decide
  have hsplit : s ++ (utf8 "期" ++ t) = (s ++ [0xE6, 0x9C]) ++ qi :: t := by
    rw [hqi]
    simp
  rw [hsplit]
  exact afterLast_append_getD_iff

/-- What stands behind is part of the whole. -/
theorem mem_of_afterFirst (h : afterFirst c s = some t) {a : UInt8} (ha : a ∈ t) : a ∈ s := by
  rw [afterFirst] at h
  split at h
  · obtain rfl := Option.some.inj h
    exact (List.dropWhile_sublist _).subset (List.mem_of_mem_tail ha)
  · cases h

theorem mem_of_afterLast (h : afterLast c s = some t) {a : UInt8} (ha : a ∈ t) : a ∈ s := by
  rw [afterLast] at h
  split at h
  · obtain rfl := Option.some.inj h
    exact List.mem_reverse.mp ((List.takeWhile_sublist _).subset (List.mem_reverse.mp ha))
  · cases h

theorem mem_of_beforeLast (h : beforeLast c s = some t) {a : UInt8} (ha : a ∈ t) : a ∈ s := by
  rw [beforeLast] at h
  split at h
  · obtain rfl := Option.some.inj h
    exact List.mem_reverse.mp
      ((List.dropWhile_sublist _).subset (List.mem_of_mem_tail (List.mem_reverse.mp ha)))
  · cases h

end

/-- No NUL is written into a member but the one that ends it. -/
theorem Member.zero_notMem_written (stray : List UInt8) {r : Reply (List UInt8)} (hz : ∀ f, 0 ∉ r f)
    (m : Member) :
    0 ∉ m.written stray r := by
  have hstray : 0 ∉ cstrOf stray := zero_notMem_cstrOf stray
  have hgetD : ∀ {o : Option (List UInt8)} {s : List UInt8}, 0 ∉ s →
      (∀ t, o = some t → ∀ a ∈ t, a ∈ s) → 0 ∉ o.getD (cstrOf stray) := by
    intro o s hs ho
    cases o with
    | none => exact hstray
    | some t => exact fun h => hs (ho t rfl 0 h)
  have hmonth : 0 ∉ (monthOf (r .date)).getD (cstrOf stray) := by
    refine hgetD (hz .date) fun t ht a ha => ?_
    obtain ⟨u, hu, ht⟩ := Option.bind_eq_some_iff.mp ht
    exact mem_of_beforeLast hu (mem_of_afterFirst ht ha)
  have hday : 0 ∉ (dayOf (r .date)).getD (cstrOf stray) := by
    refine hgetD (hz .date) fun t ht a ha => ?_
    obtain ⟨u, hu, rfl⟩ := Option.map_eq_some_iff.mp ht
    exact mem_of_afterLast hu (List.mem_of_mem_take ha)
  have hweek : ∀ d, 0 ∉ (afterLast qi (r (.dayWeek d))).getD (cstrOf stray) := fun d =>
    hgetD (hz (.dayWeek d)) fun t ht a ha => mem_of_afterLast ht ha
  rcases m with - | - | - | - | - | d | d | d <;>
    simp only [written, List.mem_append, hz, hmonth, hday, hweek, or_false, false_or] <;>
    decide

/-! ## The strings of a reply -/

section

variable {n : ℕ} {js : Block n} {strings : Reply (Option ℕ)} {p : Reply ℕ}
  {r : Reply (List UInt8)} {stray : List UInt8} {w : WeatherInfo}

/-- The strings are at `p` and hold the texts `r`; none of them is where
the date is cut. -/
structure Strings (js : Block n) (strings : Reply (Option ℕ)) (p : Reply ℕ)
    (r : Reply (List UInt8)) : Prop where
  some_eq : ∀ f, strings f = some (p f)
  cstr_eq : ∀ f, js.cstr (p f) = r f
  apart : ∀ f, f ≠ .date → p f + (r f).length < p .date ∨ p .date + (r .date).length + 3 < p f

/-- A string that has been fetched is copied as its text. -/
theorem Strings.copied (h : Strings js strings p r) (f : Field) :
    copied js (strings f) = .ok (r f) := by
  rw [h.some_eq f, ← h.cstr_eq f]
  rfl

/-- There is no NUL in it, for it ends at one. -/
theorem Strings.zero_notMem (h : Strings js strings p r) (f : Field) : 0 ∉ r f := by
  rw [← h.cstr_eq f]
  exact zero_notMem_cstrOf _

/-- A date with a dash is cut at its last one and behind two digits. -/
theorem splitDate_some {q d : ℕ} (h : js.strrchr q dash = some d) :
    splitDate js (some q) = .ok ((js.store d 0).store (d + 1 + 2) 0,
      Ptr.next ((js.store d 0).strchr q dash), .buffer (d + 1)) := by
  rw [splitDate]
  change Except.ok _ = _
  rw [h]
  rfl

/-- A date without one has its NULs stored outside the buffer, and its day
read from behind null. -/
theorem splitDate_none {q : ℕ} (h : js.strrchr q dash = none) :
    splitDate js (some q) = .ok ((js.store n 0).store n 0,
      Ptr.next ((js.store n 0).strchr q dash), .wild) := by
  rw [splitDate]
  change Except.ok _ = _
  rw [h]
  rfl

/-- A weekday is cut behind the last `期`, or read from behind null where there
is none. -/
theorem weekPtr_some (q : ℕ) : weekPtr js (some q) = .ok (Ptr.next (js.strrchr q qi)) := rfl

/-- A pointer to a text that was found, or the one behind null. -/
def Ptr.Reads (p : Ptr) (js : Block n) : Option (List UInt8) → Prop
  | some t => ∃ q, p = .buffer q ∧ js.cstr q = t
  | none => p = .wild

/-- A pointer reads the text it leads to, or what is behind null. -/
theorem Ptr.Reads.text {p : Ptr} {t : Option (List UInt8)} (h : p.Reads js t)
    (stray : List UInt8) :
    p.text js stray = t.getD (cstrOf stray) := by
  rcases t with - | t
  · rw [show p = .wild from h]
    rfl
  · obtain ⟨q, rfl, hq⟩ := h
    exact hq

/-- It leads behind null where there is no text to lead to. -/
theorem Ptr.Reads.wild_iff {p : Ptr} {t : Option (List UInt8)} (h : p.Reads js t) :
    p = .wild ↔ t = none := by
  rcases t with - | t
  · exact iff_of_true h rfl
  · obtain ⟨q, rfl, -⟩ := h
    exact iff_of_false nofun nofun

/-- **Cutting the date**: month and day can be read where the date has
them, and every string that is not where the cuts are made is still
there. -/
theorem splitDate_eq (js : Block n) (q : ℕ) :
    ∃ js' month day, splitDate js (some q) = .ok (js', month, day) ∧
      month.Reads js' (monthOf (js.cstr q)) ∧ day.Reads js' (dayOf (js.cstr q)) ∧
      ∀ o, o + (js.cstr o).length < q ∨ q + (js.cstr q).length + 3 < o →
        js'.cstr o = js.cstr o := by
  by_cases hdash : dash ∈ js.cstr q
  · -- the first cut is at the last dash, the second two bytes behind it
    obtain ⟨s, t, hst, ht⟩ := exists_last hdash
    have hlen : (js.cstr q).length = s.length + (t.length + 1) := by rw [hst]; simp
    set js₁ := js.store (q + s.length) 0 with hjs₁
    set js₂ := js₁.store (q + s.length + 1 + 2) 0 with hjs₂
    have hcut : js₁.cstr q = s := by
      rw [hjs₁, Block.cstr_store_zero (by omega), hst, List.take_left]
    have hcut₂ : js₂.cstr q = s := by
      rw [hjs₂, Block.cstr_store_apart (by rw [hcut]; omega), hcut]
    have hday : js₁.cstr (q + s.length + 1) = t := by
      rw [hjs₁, Block.cstr_store_apart (by omega), Nat.add_assoc, Block.cstr_add (by omega), hst]
      simp
    have hday₂ : js₂.cstr (q + s.length + 1) = t.take 2 := by
      rcases Nat.lt_or_ge t.length 2 with hlt | hge
      · rw [hjs₂, Block.cstr_store_apart (by rw [hday]; omega), hday,
          List.take_of_length_le (by omega)]
      · rw [hjs₂, Block.cstr_store_zero (by rw [hday]; omega), hday]
    refine ⟨js₂, _, _, splitDate_some (Block.strrchr_eq_some hst ht), ?_, ?_, ?_⟩
    · rw [hst, monthOf, beforeLast_append ht, Option.bind_some]
      by_cases hmonth : dash ∈ s
      · obtain ⟨u, v, rfl, hu⟩ := exists_first hmonth
        rw [Block.strchr_eq_some hcut hu, afterFirst_append hu]
        refine ⟨_, rfl, ?_⟩
        rw [Nat.add_assoc, Block.cstr_add (by rw [hcut₂]; simp), hcut₂]
        simp
      · rw [Block.strchr_eq_none (by rwa [hcut]), afterFirst, if_neg hmonth]
        exact rfl
    · rw [hst, dayOf, afterLast_append ht]
      exact ⟨_, rfl, hday₂⟩
    · intro o ho
      have h₁ : js₁.cstr o = js.cstr o := by
        rw [hjs₁, Block.cstr_store_apart (by omega)]
      rw [hjs₂, Block.cstr_store_apart (by rw [h₁]; omega), h₁]
  · -- both stores miss the buffer
    have hmiss : ∀ b : Block n, (b.store n 0).bytes = b.bytes := fun b => by
      rw [Block.store_bytes, List.set_eq_of_length_le (by rw [b.length_eq])]
    have hcstr : ∀ o, ((js.store n 0).store n 0).cstr o = js.cstr o := fun o => by
      rw [Block.cstr, hmiss, hmiss, Block.cstr]
    have hfirst : (js.store n 0).cstr q = js.cstr q := by rw [Block.cstr, hmiss, Block.cstr]
    refine ⟨_, _, _, splitDate_none (Block.strrchr_eq_none hdash), ?_, ?_, fun o _ => hcstr o⟩
    · rw [Block.strchr_eq_none (by rwa [hfirst]), monthOf, beforeLast, if_neg hdash]
      exact rfl
    · rw [dayOf, afterLast, if_neg hdash]
      exact rfl

/-- **The date of a reply is cut**, and the other texts stay. -/
theorem Strings.splitDate (h : Strings js strings p r) :
    ∃ js' month day, splitDate js (strings .date) = .ok (js', month, day) ∧
      month.Reads js' (monthOf (r .date)) ∧ day.Reads js' (dayOf (r .date)) ∧
      ∀ f, f ≠ .date → js'.cstr (p f) = r f := by
  obtain ⟨js', month, day, hsplit, hmonth, hday, hother⟩ := splitDate_eq js (p .date)
  rw [h.cstr_eq] at hmonth hday hother
  refine ⟨js', month, day, by rw [h.some_eq .date, hsplit], hmonth, hday, fun f hf => ?_⟩
  rw [hother (p f) (by rw [h.cstr_eq]; exact h.apart f hf), h.cstr_eq]

/-- **The last sign of a weekday**: what stands behind it is read, if it is
there. -/
theorem reads_week (q : ℕ) : (Ptr.next (js.strrchr q qi)).Reads js
    (afterLast qi (js.cstr q)) := by
  by_cases hqi : qi ∈ js.cstr q
  · obtain ⟨s, t, hst, ht⟩ := exists_last hqi
    rw [Block.strrchr_eq_some hst ht, hst, afterLast_append ht]
    refine ⟨_, rfl, ?_⟩
    rw [Nat.add_assoc, Block.cstr_add (by rw [hst]; simp), hst]
    simp
  · rw [Block.strrchr_eq_none hqi, afterLast, if_neg hqi]
    exact rfl

/-! ## The copies of a reply -/

/-- What is copied to a member first, and what is appended. -/
def Member.parts (stray : List UInt8) (r : Reply (List UInt8)) :
    Member → List UInt8 × List (List UInt8)
  | .nowTemp => (r .feelsLike, [utf8 "°"])
  | .nowText => (r .text, [utf8 " ", r .high, utf8 "/", r .low, utf8 "°C"])
  | .nowLocation => (r .name, [])
  | .nowHumi => (utf8 "空气湿度 ", [r .rh, utf8 "%"])
  | .nowTime => ((monthOf (r .date)).getD (cstrOf stray),
      [utf8 "月", (dayOf (r .date)).getD (cstrOf stray), utf8 "日 ", r .week, []])
  | .dayTime d => (utf8 "周", [(afterLast qi (r (.dayWeek d))).getD (cstrOf stray)])
  | .dayText d => (r (.textDay d), [])
  | .dayTemp d => (r (.dayHigh d), [utf8 "/", r (.dayLow d), utf8 "°C"])

/-- The parts a member is written from make up what is written. -/
theorem Member.parts_flatten (stray : List UInt8) (r : Reply (List UInt8)) (m : Member) :
    (m.parts stray r).1 ++ (m.parts stray r).2.flatten = m.written stray r := by
  rcases m with - | - | - | - | - | d | d | d <;> simp [parts, written]

theorem Member.zero_notMem_parts (stray : List UInt8) (hz : ∀ f, 0 ∉ r f) (m : Member) :
    0 ∉ (m.parts stray r).1 ∧ ∀ t ∈ (m.parts stray r).2, 0 ∉ t := by
  have h := m.zero_notMem_written stray hz
  rw [← m.parts_flatten stray r, List.mem_append, not_or] at h
  exact ⟨h.1, fun t ht h0 => h.2 (List.mem_flatten_of_mem ht h0)⟩

/-- The copies to a member: one of them begins with `strncpy`. -/
def Member.copies (stray : List UInt8) (r : Reply (List UInt8)) (m : Member) : List Copy :=
  match m with
  | .nowHumi => .strncpy .nowHumi (m.parts stray r).1 ((m.parts stray r).1.length + 1) ::
      (m.parts stray r).2.map (.strcat .nowHumi)
  | m => memberCopies m (m.parts stray r).1 (m.parts stray r).2

/-- The copies of a member write what a `strcpy` and a row of `strcat` do. -/
theorem Member.copies_like (stray : List UInt8) (r : Reply (List UInt8)) (m : Member) :
    runCopies w (m.copies stray r) =
        runCopies w (memberCopies m (m.parts stray r).1 (m.parts stray r).2) ∧
      (AllInside w (m.copies stray r) ↔
        AllInside w (memberCopies m (m.parts stray r).1 (m.parts stray r).2)) := by
  rcases m with - | - | - | - | - | d | d | d
  case nowHumi => exact ⟨runCopies_strncpy _ _, allInside_strncpy _ _⟩
  all_goals exact ⟨rfl, Iff.rfl⟩

theorem Member.runCopies_copies (stray : List UInt8) (hz : ∀ f, 0 ∉ r f) (m : Member) :
    runCopies w (m.copies stray r) = w.strcpy m.offset (m.written stray r) := by
  obtain ⟨hfirst, htexts⟩ := m.zero_notMem_parts stray hz
  rw [(m.copies_like stray r).1, runCopies_memberCopies_eq hfirst htexts, m.parts_flatten]

theorem Member.allInside_copies (hz : ∀ f, 0 ∉ r f) {m : Member}
    (hfit : (m.written stray r).length < m.size) : AllInside w (m.copies stray r) := by
  obtain ⟨hfirst, htexts⟩ := m.zero_notMem_parts stray hz
  rw [(m.copies_like stray r).2]
  exact allInside_memberCopies hfirst htexts (by rwa [m.parts_flatten])

/-- The copies of several members write one after the other. -/
theorem runCopies_flatMap (stray : List UInt8) (hz : ∀ f, 0 ∉ r f) (order : List Member) :
    runCopies w (order.flatMap (Member.copies stray r)) =
      writeAll (Member.written stray r) order w := by
  induction order generalizing w with
  | nil => rfl
  | cons m order ih =>
      rw [List.flatMap_cons, runCopies_append, m.runCopies_copies stray hz, ih]
      rfl

/-- **All copies stay in their arrays** where all texts fit. -/
theorem allInside_flatMap (hz : ∀ f, 0 ∉ r f) {order : List Member}
    (hfit : ∀ m ∈ order, (m.written stray r).length < m.size) :
    AllInside w (order.flatMap (Member.copies stray r)) := by
  induction order generalizing w with
  | nil => exact True.intro
  | cons m order ih =>
      rw [List.flatMap_cons, allInside_append]
      exact ⟨m.allInside_copies hz (hfit m (List.mem_cons_self ..)),
        ih fun m' hm' => hfit m' (List.mem_cons_of_mem m hm')⟩

/-- The copies before the date is cut are those of the first four members. -/
theorem copiesNow_eq (stray : List UInt8) (h : Strings js strings p r) :
    copiesNow strings js = .ok ([.nowText, .nowLocation, .nowTemp, .nowHumi].flatMap
      (Member.copies stray r)) := by
  rw [copiesNow, h.copied .text, h.copied .high, h.copied .low, h.copied .name,
    h.copied .feelsLike, h.copied .rh]
  rfl

/-- The copies of a day. The weekday's last sign is read where it stands. -/
theorem copiesDay_eq (d : Day) {q : Reply ℕ} (hq : ∀ f, f ≠ .date → strings f = some (q f))
    (hr : ∀ f, f ≠ .date → js.cstr (q f) = r f) :
    copiesDay strings js stray d =
      .ok ([.dayText d, .dayTemp d, .dayTime d].flatMap (Member.copies stray r)) := by
  have hcopied : ∀ f, f ≠ .date → copied js (strings f) = .ok (r f) := by
    intro f hf
    rw [hq f hf, ← hr f hf]
    rfl
  rw [copiesDay, hcopied _ (by simp), hcopied _ (by simp), hcopied _ (by simp),
    hq (.dayWeek d) (by simp), weekPtr_some]
  show Except.ok (_ ++ memberCopies (.dayTime d) (utf8 "周") [_]) = _
  rw [(reads_week (q (.dayWeek d))).text stray, hr (.dayWeek d) (by simp)]
  rfl

/-- **The copies of a reply** are those of its members, in the order in which
they are written. -/
theorem copiesReply_eq (stray : List UInt8) (h : Strings js strings p r) :
    copiesReply strings js stray = .ok (writeOrder.flatMap (Member.copies stray r)) := by
  obtain ⟨js', month, day, hsplit, hmonth, hday, hr⟩ := h.splitDate
  have hq : ∀ f, f ≠ .date → strings f = some (p f) := fun f _ => h.some_eq f
  have hweek : copied js' (strings .week) = .ok (r .week) := by
    rw [hq .week (by simp), ← hr .week (by simp)]
    rfl
  rw [copiesReply, copiesNow_eq stray h, hsplit]
  show (copied js' (strings .week) >>= _) = _
  rw [hweek]
  show (copiesDay strings js' stray .day1 >>= _) = _
  rw [copiesDay_eq .day1 hq hr]
  show (copiesDay strings js' stray .day2 >>= _) = _
  rw [copiesDay_eq .day2 hq hr]
  show (copiesDay strings js' stray .day3 >>= _) = _
  rw [copiesDay_eq .day3 hq hr, hmonth.text stray, hday.text stray]
  rfl

/-- **The record of a reply** is the texts of its members, one copied
behind the other. -/
theorem formatReply_eq (stray : List UInt8) (h : Strings js strings p r) :
    formatReply strings js stray w = .ok (writeAll (Member.written stray r) writeOrder w) := by
  rw [formatReply_eq_runCopies, copiesReply_eq stray h, Except.map,
    runCopies_flatMap stray h.zero_notMem]

/-! ## Strings that are missing -/

/-- A computation that comes through only where `p` holds, and stops with
a null string where it does not come through. -/
def Uses {α : Type} (m : Except Fault α) (p : Prop) : Prop :=
  match m with
  | .ok _ => p
  | .error e => e = .nullString

/-- A computation uses what its steps use. -/
theorem Uses.bind {α β : Type} {m : Except Fault α} {f : α → Except Fault β} {p q : Prop}
    (hm : Uses m p) (hf : ∀ a, Uses (f a) q) : Uses (m >>= f) (p ∧ q) := by
  rcases m with e | a
  · exact hm
  · change Uses (f a) (p ∧ q)
    have hfa := hf a
    revert hfa
    rcases f a with e | b
    · exact id
    · exact fun hq => ⟨hm, hq⟩

theorem Uses.weaken {α : Type} {m : Except Fault α} {p q : Prop} (hm : Uses m p) (h : p → q) :
    Uses m q := by
  rcases m with e | a
  · exact hm
  · exact h hm

/-- Copying a string uses it. -/
theorem uses_copied (a : Option ℕ) : Uses (copied js a) (a ≠ none) := by
  rcases a with - | q
  · exact rfl
  · exact Option.some_ne_none q

theorem uses_weekPtr (week : Option ℕ) : Uses (weekPtr js week) (week ≠ none) := by
  rcases week with - | q
  · exact rfl
  · exact Option.some_ne_none q

theorem uses_splitDate (date : Option ℕ) : Uses (splitDate js date) (date ≠ none) := by
  rcases date with - | q
  · exact rfl
  · exact Option.some_ne_none q

/-- What is written before the date is cut uses its five strings. -/
theorem uses_formatNow : Uses (formatNow strings js w) (strings .text ≠ none ∧
    strings .high ≠ none ∧ strings .low ≠ none ∧ strings .name ≠ none ∧
    strings .feelsLike ≠ none ∧ strings .rh ≠ none ∧ True) :=
  (uses_copied _).bind fun _ => (uses_copied _).bind fun _ => (uses_copied _).bind fun _ =>
    (uses_copied _).bind fun _ => (uses_copied _).bind fun _ => (uses_copied _).bind fun _ =>
      True.intro

theorem uses_formatDay (d : Day) : Uses (formatDay strings js stray d w)
    (strings (.textDay d) ≠ none ∧ strings (.dayHigh d) ≠ none ∧ strings (.dayLow d) ≠ none ∧
      strings (.dayWeek d) ≠ none ∧ True) :=
  (uses_copied _).bind fun _ => (uses_copied _).bind fun _ => (uses_copied _).bind fun _ =>
    (uses_weekPtr _).bind fun _ => True.intro

/-- **Every string of the reply is used**, and a null one stops the run. -/
theorem uses_formatReply : Uses (formatReply strings js stray w) (∀ f, strings f ≠ none) := by
  refine Uses.weaken (uses_formatNow.bind fun _ => (uses_splitDate (strings .date)).bind fun _ =>
    (uses_copied (strings .week)).bind fun _ => (uses_formatDay .day1).bind fun _ =>
      (uses_formatDay .day2).bind fun _ => uses_formatDay .day3) ?_
  rintro ⟨⟨h1, h2, h3, h4, h5, h6, -⟩, h7, h8, ⟨a1, a2, a3, a4, -⟩, ⟨b1, b2, b3, b4, -⟩,
    c1, c2, c3, c4, -⟩
  rintro (- | - | - | - | - | - | - | - | (- | - | -) | (- | - | -) | (- | - | -) | (- | - | -)) <;>
    assumption

/-- A string that is missing ends the formatting at a null pointer, whichever
it is. -/
theorem formatReply_null {f : Field} (h : strings f = none) :
    formatReply strings js stray w = .error .nullString := by
  have huses : Uses (formatReply strings js stray w) (∀ f, strings f ≠ none) := uses_formatReply
  revert huses
  rcases formatReply strings js stray w with e | w'
  · exact congrArg Except.error
  · exact fun hall => absurd h (hall f)

end

end Weather

end WeatherTerminal
