import WeatherTerminal.Mqtt.Publish
import WeatherTerminal.Mqtt.Model.Topic
import WeatherTerminal.Common.Filter
/-!
# MQTT — topics, level by level

A filter that the client subscribes to is matched level by level
(`isTopicMatched_levels`): as filters are meant to be, but for wildcards
that take no empty level, and a `#` that does not take the level above it.
Which strings pass for topics is said of their levels, too
(`checkTopic_iff`): the tokenizer skips the empty ones, and does not see a
last one of a single byte.
-/

namespace WeatherTerminal

namespace Mqtt

/-- The levels of a topic, or of a filter: the parts between its slashes,
empty ones among them. -/
def levels (t : List UInt8) : List (List UInt8) := t.splitOn slash

variable {f g t u l n : List UInt8}

/-- Even an empty text has a level, the empty one. -/
theorem levels_ne_nil (t : List UInt8) : levels t ≠ [] := List.splitOn_ne_nil slash t

theorem levels_single (h : slash ∉ l) : levels l = [l] := List.splitOn_eq_singleton h

/-- A text up to its first slash is the first level, and the levels of the
rest follow. -/
theorem levels_append (h : slash ∉ l) (t : List UInt8) :
    levels (l ++ slash :: t) = l :: levels t :=
  List.splitOn_append_cons_self_of_not_mem h t

/-- The first level and where it ends: at the end of the text, or at a slash
with more levels behind it. -/
theorem levels_cases (t : List UInt8) :
    (slash ∉ t ∧ levels t = [t]) ∨
      ∃ l u, slash ∉ l ∧ t = l ++ slash :: u ∧ levels t = l :: levels u := by
  by_cases h : slash ∈ t
  · obtain ⟨l, u, rfl, hl⟩ := List.eq_append_cons_of_mem h
    exact Or.inr ⟨l, u, hl, rfl, levels_append hl u⟩
  · exact Or.inl ⟨h, levels_single h⟩

/-! ## Matching -/

/-- What a `+` takes: a level that is not empty. -/
def takesOne (n : List UInt8) : Bool := !n.isEmpty
/-- What a `#` takes: any levels of which the first is not empty. -/
def takesRest (ns : List (List UInt8)) : Bool := !(ns.headD []).isEmpty

/-- The levels behind the first one; `rest` is what follows the first level
in the text. -/
inductive Behind : (rest : List UInt8) → (ls : List (List UInt8)) → Prop
  | none : Behind [] []
  | more (u : List UInt8) : Behind (slash :: u) (levels u)

/-- Every text is its first level and what stands behind it, without a slash
in the first. -/
theorem exists_behind (t : List UInt8) :
    ∃ l rest ls, slash ∉ l ∧ t = l ++ rest ∧ Behind rest ls ∧ levels t = l :: ls := by
  rcases levels_cases t with ⟨h, hl⟩ | ⟨l, u, h, rfl, hl⟩
  · exact ⟨t, [], [], h, (List.append_nil t).symm, .none, hl⟩
  · exact ⟨l, slash :: u, levels u, h, rfl, .more u, hl⟩

/-- A level of a filter that is a wildcard, or has none in it. -/
def Level (l : List UInt8) : Prop := l = [plus] ∨ l = [hash] ∨ (plus ∉ l ∧ hash ∉ l)

/-- An empty topic is matched by the empty filter only. -/
theorem isTopicMatched_nil (f : List UInt8) : isTopicMatched f [] = f.isEmpty := by
  cases f <;> rfl

/-- A level without a wildcard takes the same level of the topic and no other,
and the matching goes on behind both. -/
theorem isTopicMatched_plain {frest nrest : List UInt8} {fs ns : List (List UInt8)}
    (hf : Behind frest fs) (hn : Behind nrest ns) (hl : slash ∉ l) (hplus : plus ∉ l)
    (hhash : hash ∉ l) (hslash : slash ∉ n) :
    isTopicMatched (l ++ frest) (n ++ nrest) =
      (decide (l = n) && isTopicMatched frest nrest) := by
  induction l generalizing n with
  | nil =>
      rcases n with - | ⟨c, n⟩
      · rfl
      · have hc : c ≠ slash := fun h => hslash (h ▸ List.mem_cons_self)
        rcases hf with - | g
        · rfl
        · rw [List.nil_append, List.cons_append, isTopicMatched, if_neg (fun h => hc h.1),
            if_pos ⟨by decide, by decide, hc.symm⟩]
          rfl
  | cons a l ih =>
      have ha : a ≠ slash := fun h => hl (h ▸ List.mem_cons_self)
      have hap : a ≠ plus := fun h => hplus (h ▸ List.mem_cons_self)
      have hah : a ≠ hash := fun h => hhash (h ▸ List.mem_cons_self)
      rcases n with - | ⟨c, n⟩
      · rcases hn with - | u
        · rfl
        · rw [List.nil_append, List.cons_append, isTopicMatched, if_pos ⟨rfl, ha⟩]
          rfl
      · have hc : c ≠ slash := fun h => hslash (h ▸ List.mem_cons_self)
        rw [List.cons_append, List.cons_append, isTopicMatched, if_neg (fun h => hc h.1)]
        by_cases hac : a = c
        · subst hac
          rw [if_neg (fun h => h.2.2 rfl), if_neg hap, if_neg hah,
            ih (fun h => hl (List.mem_cons_of_mem a h)) (fun h => hplus (List.mem_cons_of_mem a h))
              (fun h => hhash (List.mem_cons_of_mem a h))
              (fun h => hslash (List.mem_cons_of_mem a h))]
          congr 1
          simp
        · rw [if_pos ⟨hap, hah, hac⟩]
          simp [hac]

/-- A `+` takes a level of the topic that is not empty, and the matching goes
on behind it. -/
theorem isTopicMatched_plus {nrest : List UInt8} {ns : List (List UInt8)} (f : List UInt8)
    (hn : Behind nrest ns) (hslash : slash ∉ n) :
    isTopicMatched (plus :: f) (n ++ nrest) = (takesOne n && isTopicMatched f nrest) := by
  rcases n with - | ⟨c, n⟩
  · rcases hn with - | u
    · rfl
    · rw [List.nil_append, isTopicMatched, if_pos ⟨rfl, by decide⟩]
      rfl
  · have hc : c ≠ slash := fun h => hslash (h ▸ List.mem_cons_self)
    have hskip : (n ++ nrest).dropWhile (· ≠ slash) = nrest := by
      have hall : ∀ a ∈ n, (decide (a ≠ slash)) = true := fun a ha =>
        decide_eq_true fun h => hslash (h ▸ List.mem_cons_of_mem c ha)
      rw [List.dropWhile_append_of_pos hall]
      rcases hn with - | u
      · rfl
      · exact List.dropWhile_cons_of_neg (by simp)
    rw [List.cons_append, isTopicMatched, if_neg (fun h => hc h.1), if_neg (fun h => h.1 rfl),
      if_pos rfl, hskip]
    rfl

/-- A `#` takes what is left, if it does not begin with an empty level. -/
theorem isTopicMatched_hash {nrest : List UInt8} {ns : List (List UInt8)} (f : List UInt8)
    (hn : Behind nrest ns) (hslash : slash ∉ n) :
    isTopicMatched (hash :: f) (n ++ nrest) = (f.isEmpty && takesRest (n :: ns)) := by
  rcases n with - | ⟨c, n⟩
  · have hempty : takesRest ([] :: ns) = false := rfl
    rw [hempty, Bool.and_false]
    rcases hn with - | u
    · rfl
    · rw [List.nil_append, isTopicMatched, if_pos ⟨rfl, by decide⟩]
  · have hc : c ≠ slash := fun h => hslash (h ▸ List.mem_cons_self)
    have hsome : takesRest ((c :: n) :: ns) = true := rfl
    rw [List.cons_append, isTopicMatched, if_neg (fun h => hc h.1), if_neg (fun h => h.2.1 rfl),
      if_neg (by decide), if_pos rfl, isTopicMatched_nil, hsome, Bool.and_true]

/-- **A filter is matched level by level**, where each of its levels is a
wildcard or has none in it. -/
theorem isTopicMatched_levels (f t : List UInt8) (hf : ∀ l ∈ levels f, Level l) :
    isTopicMatched f t =
      Filter.takes [plus] [hash] takesOne takesRest (levels f) (levels t) := by
  induction hlen : f.length using Nat.strong_induction_on generalizing f t with
  | _ k ih =>
    obtain ⟨l, frest, fs, hl, rfl, hfbehind, hfl⟩ := exists_behind f
    obtain ⟨n, nrest, ns, hn, rfl, hnbehind, hnl⟩ := exists_behind t
    rw [hfl] at hf
    rw [hfl, hnl]
    -- behind the first level
    have hbehind :
        isTopicMatched frest nrest = Filter.takes [plus] [hash] takesOne takesRest fs ns := by
      rcases hfbehind with - | g <;> rcases hnbehind with - | u
      · rfl
      · rw [Filter.takes, List.isEmpty_eq_false_iff.mpr (levels_ne_nil u)]
        rfl
      · rw [isTopicMatched_nil]
        obtain ⟨m, -, ms, -, -, -, hg⟩ := exists_behind g
        rw [hg]
        by_cases hhash : m = [hash]
        · rw [Filter.takes_rest _ _ _ hhash]
          exact (Bool.and_false _).symm
        · rw [Filter.takes_nil _ _ hhash]
          rfl
      · rw [isTopicMatched, if_neg (fun h => h.2 rfl), if_neg (fun h => h.2.2 rfl),
          if_neg (by decide), if_neg (by decide)]
        refine ih g.length ?_ g u (fun m hm => hf m (List.mem_cons_of_mem l hm)) rfl
        rw [← hlen, List.length_append, List.length_cons]
        omega
    rcases hf l List.mem_cons_self with rfl | rfl | ⟨hplus, hhash⟩
    · rw [List.singleton_append, isTopicMatched_plus frest hnbehind hn, hbehind,
        Filter.takes_cons _ _ _ _ (by decide), if_pos rfl]
    · rw [List.singleton_append, isTopicMatched_hash frest hnbehind hn, Filter.takes_rest _ _ _ rfl]
      congr 1
      rcases hfbehind with - | g
      · rfl
      · exact (List.isEmpty_eq_false_iff.mpr (levels_ne_nil g)).symm
    · have hrest : l ≠ [hash] := fun h => hhash (h ▸ List.mem_cons_self)
      have hany : l ≠ [plus] := fun h => hplus (h ▸ List.mem_cons_self)
      rw [isTopicMatched_plain hfbehind hnbehind hl hplus hhash hn, hbehind,
        Filter.takes_cons _ _ _ _ hrest, if_neg hany]

/-! ## What passes for a topic -/

/-- The levels the tokenizer hands out: those that are not empty, but for a
last one of a single byte behind one that is not empty. -/
def seen : List (List UInt8) → List (List UInt8)
  | [] => []
  | l :: ls =>
      if l = [] then seen ls
      else l :: if ls.length = 1 ∧ (ls.headD []).length = 1 then [] else seen ls

/-- What it still hands out of a string that it goes on with. -/
def after (pos : List UInt8) : List (List UInt8) :=
  if pos.length ≤ 1 then [] else seen (levels pos)

/-- A level that is not empty is seen, and then what the tokenizer hands out
of the rest. -/
theorem after_append (hl : slash ∉ l) (hne : l ≠ []) (pos : List UInt8) :
    seen (levels (l ++ slash :: pos)) = l :: after pos := by
  rw [levels_append hl, seen, if_neg hne, after]
  congr 1
  by_cases hshort : pos.length ≤ 1
  · rw [if_pos hshort]
    rcases pos with - | ⟨c, - | ⟨d, pos⟩⟩
    · rfl
    · by_cases hc : c = slash
      · subst hc
        rfl
      · rw [levels_single (by simpa using Ne.symm hc)]
        rfl
    · simp only [List.length_cons] at hshort
      omega
  · rw [if_neg hshort, if_neg]
    rintro ⟨hone, hlen⟩
    obtain ⟨m, hm⟩ := List.length_eq_one_iff.mp hone
    have hpos : pos = m := by
      have hjoin : [slash].intercalate (levels pos) = pos := List.intercalate_splitOn slash
      rw [hm] at hjoin
      simpa using hjoin.symm
    rw [hm, List.headD_cons, ← hpos] at hlen
    omega

/-- Without a slash the token takes all of the text, and the tokenizer is at
the end. -/
theorem strtokFrom_false {token : List UInt8} (hl : slash ∉ l) :
    strtokFrom false token l = (some (token ++ l), []) := by
  induction l generalizing token with
  | nil => rw [strtokFrom, List.append_nil]
  | cons c l ih =>
      have hc : c ≠ slash := fun h => hl (h ▸ List.mem_cons_self)
      rw [strtokFrom, if_pos hc, ih (fun h => hl (List.mem_cons_of_mem c h)), List.append_assoc]
      rfl

/-- A token that has begun ends at the first slash, and the tokenizer goes on
behind it. -/
theorem strtokFrom_false_slash {token : List UInt8} (htoken : token ≠ []) (hl : slash ∉ l)
    (pos : List UInt8) :
    strtokFrom false token (l ++ slash :: pos) = (some (token ++ l), pos) := by
  induction l generalizing token with
  | nil =>
      rw [List.nil_append, strtokFrom, if_neg (fun h => h rfl), List.append_nil]
      by_cases hnil : pos = []
      · rw [if_pos hnil, hnil]
        rfl
      · rw [if_neg hnil, if_neg htoken]
  | cons c l ih =>
      have hc : c ≠ slash := fun h => hl (h ▸ List.mem_cons_self)
      rw [List.cons_append, strtokFrom, if_pos hc, ih (by simp)
        (fun h => hl (List.mem_cons_of_mem c h)), List.append_assoc]
      rfl

/-- A token is the first level that is seen, and the tokenizer goes on
behind it. -/
theorem strtokFrom_seen (hne : f ≠ []) :
    ((strtokFrom true [] f).1 = none ∧ seen (levels f) = []) ∨
      ∃ l pos, strtokFrom true [] f = (some l, pos) ∧ seen (levels f) = l :: after pos := by
  induction f with
  | nil => exact absurd rfl hne
  | cons c f ih =>
      by_cases hc : c = slash
      · subst hc
        have hlevels : levels (slash :: f) = [] :: levels f :=
          levels_append (l := []) (List.not_mem_nil) f
        rw [hlevels, seen, if_pos rfl, strtokFrom, if_neg (fun h => h rfl)]
        split
        · rename_i hnil
          rw [hnil]
          exact Or.inl ⟨rfl, rfl⟩
        · rename_i hnil
          rw [if_pos rfl]
          exact ih hnil
      · refine Or.inr ?_
        rw [strtokFrom, if_pos hc, List.nil_append]
        rcases levels_cases (c :: f) with ⟨hslash, hlevels⟩ | ⟨l, u, hslash, hsplit, -⟩
        · refine ⟨c :: f, [], strtokFrom_false fun h => hslash (List.mem_cons_of_mem c h), ?_⟩
          rw [hlevels, seen, if_neg (List.cons_ne_nil c f)]
          rfl
        · rcases l with - | ⟨d, l⟩
          · exact absurd (List.cons.inj hsplit).1 hc
          · obtain ⟨rfl, rfl⟩ := List.cons.inj hsplit
            exact ⟨c :: l, u, strtokFrom_false_slash (List.cons_ne_nil c [])
              (fun h => hslash (List.mem_cons_of_mem c h)) u,
              after_append (l := c :: l) hslash (List.cons_ne_nil c l) u⟩

/-- A call of the tokenizer hands out the first of the levels that are left,
or none where none is left. -/
theorem strtok_after (pos : List UInt8) :
    ((strtok pos).1 = none ∧ after pos = []) ∨
      ∃ l pos', strtok pos = (some l, pos') ∧ after pos = l :: after pos' := by
  rw [strtok]
  by_cases hshort : pos.length ≤ 1
  · rw [if_pos hshort]
    exact Or.inl ⟨rfl, if_pos hshort⟩
  · rw [if_neg hshort]
    have hafter : after pos = seen (levels pos) := if_neg hshort
    rw [hafter]
    exact strtokFrom_seen (List.ne_nil_of_length_pos (by omega))

/-- The levels pass one by one, and a `#` stands last. -/
structure Checked (type : TopicType) (ls : List (List UInt8)) : Prop where
  rule : ∀ l ∈ ls, checkRule type l = true
  last : ∀ l ∈ ls.dropLast, l.headD 0 ≠ hash

/-- No level is left to check, so nothing is refused. -/
theorem checked_nil (type : TopicType) : Checked type [] :=
  ⟨fun _ h => absurd h List.not_mem_nil, fun _ h => absurd h List.not_mem_nil⟩

/-- The levels are checked one by one, and a level that starts with a `#` has
to be the last. -/
theorem checked_cons {type : TopicType} {l : List UInt8} {ls : List (List UInt8)} :
    Checked type (l :: ls) ↔
      checkRule type l = true ∧ (l.headD 0 = hash → ls = []) ∧ Checked type ls := by
  constructor
  · rintro ⟨hrule, hlast⟩
    refine ⟨hrule l List.mem_cons_self, fun hhash => ?_,
      fun m hm => hrule m (List.mem_cons_of_mem l hm), fun m hm => ?_⟩
    · by_contra hne
      refine hlast l ?_ hhash
      rw [List.dropLast_cons_of_ne_nil hne]
      exact List.mem_cons_self
    · rcases ls with - | ⟨k, ls⟩
      · exact absurd hm List.not_mem_nil
      · refine hlast m ?_
        rw [List.dropLast_cons_of_ne_nil (List.cons_ne_nil k ls)]
        exact List.mem_cons_of_mem l hm
  · rintro ⟨hl, hhash, hrule, hlast⟩
    refine ⟨fun m hm => ?_, fun m hm => ?_⟩
    · rcases List.mem_cons.mp hm with rfl | hm
      · exact hl
      · exact hrule m hm
    · rcases ls with - | ⟨k, ls⟩
      · exact absurd hm List.not_mem_nil
      · rw [List.dropLast_cons_of_ne_nil (List.cons_ne_nil k ls)] at hm
        rcases List.mem_cons.mp hm with rfl | hm
        · exact fun h => List.cons_ne_nil k ls (hhash h)
        · exact hlast m hm

/-- The loop of the check refuses any level behind a mask, and else checks
those that are left one by one. -/
theorem checkRest_iff (type : TopicType) (mask : Bool) (pos : List UInt8) :
    checkRest type mask pos = true ↔
      (mask = true → after pos = []) ∧ Checked type (after pos) := by
  induction hlen : pos.length using Nat.strong_induction_on generalizing mask pos with
  | _ k ih =>
    rw [checkRest]
    rcases strtok_after pos with ⟨hnone, hafter⟩ | ⟨l, pos', hsome, hafter⟩
    · rw [hafter]
      split
      · exact iff_of_true rfl ⟨fun _ => rfl, checked_nil type⟩
      · rename_i hstrtok
        rw [hstrtok] at hnone
        cases hnone
    · have hlt := length_strtok_lt hsome
      split
      · rename_i hstrtok
        rw [hstrtok] at hsome
        cases (Prod.mk.inj hsome).1
      · rename_i iterm next hstrtok
        rw [hstrtok] at hsome
        obtain ⟨hiterm, rfl⟩ := Prod.mk.inj hsome
        obtain rfl := Option.some.inj hiterm
        rw [hafter, checked_cons]
        cases mask with
        | true => exact iff_of_false Bool.false_ne_true fun h => List.cons_ne_nil _ _ (h.1 rfl)
        | false =>
            rw [if_neg Bool.false_ne_true]
            by_cases hrule : checkRule type iterm = true
            · rw [if_pos hrule, ih next.length (by omega) _ next rfl, beq_iff_eq]
              exact ⟨fun h => ⟨fun hmask => absurd hmask Bool.false_ne_true, hrule, h⟩,
                fun h => h.2.2⟩
            · rw [if_neg hrule]
              exact iff_of_false Bool.false_ne_true fun h => hrule h.2.1

/-- What is seen of a topic passes: there is something, every level keeps
to the rule, and behind the first one a `#` stands last. -/
structure Passes (type : TopicType) (ls : List (List UInt8)) : Prop where
  ne_nil : ls ≠ []
  rule : ∀ l ∈ ls, checkRule type l = true
  last : ∀ l ∈ ls.tail.dropLast, l.headD 0 ≠ hash

/-- What is asked of the first level that is handed out, and then of those
behind it. -/
theorem passes_cons {type : TopicType} {ls : List (List UInt8)} :
    Passes type (l :: ls) ↔ checkRule type l = true ∧ Checked type ls :=
  ⟨fun h => ⟨h.rule l List.mem_cons_self, fun m hm => h.rule m (List.mem_cons_of_mem l hm), h.last⟩,
    fun h => ⟨List.cons_ne_nil l ls, List.forall_mem_cons.mpr ⟨h.1, h.2.rule⟩, h.2.last⟩⟩

/-- **What passes for a topic**, of its first 127 bytes. -/
theorem checkTopic_iff (type : TopicType) (f : List UInt8) :
    checkTopic type f = true ↔
      f.headD 0 = slash ∧ f.length ≤ topicMaxlen ∧
        Passes type (seen (levels (f.take (topicMaxlen - 1)))) := by
  rw [checkTopic]
  by_cases hslash : f.headD 0 = slash
  · rw [if_neg (not_not.mpr hslash)]
    by_cases hlong : topicMaxlen < f.length
    · rw [if_pos hlong]
      exact iff_of_false nofun fun h => Nat.not_le.mpr hlong h.2.1
    · rw [if_neg hlong]
      have hafter : after (f.take (topicMaxlen - 1)) = seen (levels (f.take (topicMaxlen - 1))) := by
        rcases f with - | ⟨c, - | ⟨d, f⟩⟩
        · exact absurd hslash (by decide)
        · obtain rfl : c = slash := hslash
          rfl
        · exact if_neg (by rw [List.take_cons (by decide), List.take_cons (by decide)]; simp)
      rw [← hafter]
      rcases strtok_after (f.take (topicMaxlen - 1)) with ⟨hnone, hnil⟩ | ⟨l, pos, hsome, hcons⟩
      · rw [hnil]
        rcases hstrtok : strtok (f.take (topicMaxlen - 1)) with ⟨iterm, pos⟩
        rw [hstrtok] at hnone
        obtain rfl : iterm = none := hnone
        exact iff_of_false nofun fun h => h.2.2.ne_nil rfl
      · rw [hcons, hsome, passes_cons]
        simp only [Bool.and_eq_true]
        rw [checkRest_iff]
        exact ⟨fun h => ⟨hslash, Nat.not_lt.mp hlong, h.1, h.2.2⟩,
          fun h => ⟨h.2.2.1, nofun, h.2.2.2⟩⟩
  · rw [if_pos hslash]
    exact iff_of_false nofun fun h => hslash h.1

/-- For a text that is short enough the check is the leading slash and the
levels that are handed out. -/
theorem checkTopic_short (type : TopicType) (hshort : f.length < topicMaxlen) :
    checkTopic type f = true ↔ f.headD 0 = slash ∧ Passes type (seen (levels f)) := by
  rw [checkTopic_iff, List.take_of_length_le (show f.length ≤ topicMaxlen - 1 by omega)]
  exact ⟨fun h => ⟨h.1, h.2.2⟩, fun h => ⟨h.1, by omega, h.2⟩⟩

/-- A last level of a single byte is not seen behind one of more. -/
theorem seen_append_one {ls : List (List UInt8)} (hl : 2 ≤ l.length) (c : UInt8) :
    seen (ls ++ [l] ++ [[c]]) = seen (ls ++ [l]) := by
  have hne : l ≠ [] := List.ne_nil_of_length_pos (by omega)
  induction ls with
  | nil => simp [seen, hne]
  | cons m ls ih =>
      rw [List.cons_append, List.cons_append, seen, seen, ih]
      split
      · rfl
      · congr 1
        rw [if_neg, if_neg]
        · rintro ⟨hone, hlen⟩
          rcases ls with - | ⟨k, ls⟩
          · rw [List.nil_append, List.headD_cons] at hlen
            omega
          · simp at hone
        · rintro ⟨hone, -⟩
          simp at hone

/-- **The check looks at all that passes for a topic but its last byte**,
where that is a level by itself: whatever the byte is, a wildcard in the
topic of a publish or a control character, the verdict is that on what
stands before. -/
theorem checkTopic_last_byte (type : TopicType) (f : List UInt8) (c : UInt8)
    (ls : List (List UInt8)) (l : List UInt8) (hlevels : levels f = ls ++ [l]) (hl : 2 ≤ l.length)
    (hc : c ≠ slash) (hshort : f.length + 2 < topicMaxlen) :
    checkTopic type (f ++ [slash, c]) = checkTopic type f ∧
      (checkTopic type f = true ↔ f.headD 0 = slash ∧ Passes type (seen (levels f))) := by
  have hf := checkTopic_short (f := f) type (by omega)
  refine ⟨?_, hf⟩
  rw [Bool.eq_iff_iff, hf, checkTopic_short type (by simpa using hshort)]
  have hhead : (f ++ [slash, c]).headD 0 = slash ↔ f.headD 0 = slash := by
    rcases f with - | ⟨a, f⟩
    · obtain ⟨-, h⟩ := List.append_singleton_inj.mp (show [] ++ [[]] = ls ++ [l] from hlevels)
      rw [← h] at hl
      exact absurd hl (by decide)
    · rfl
  have hlast : levels (f ++ [slash, c]) = ls ++ [l] ++ [[c]] := by
    rw [← hlevels, ← levels_single (l := [c]) (by simpa using Ne.symm hc)]
    exact List.splitOn_append_cons_self f [c]
  rw [hhead, hlast, hlevels, seen_append_one hl]

/-- A `#` as a last level behind another one is not handed out, so that a name
with one is published to. -/
theorem checkTopic_last_byte_hash :
    checkTopic .name (utf8 "/ab" ++ [slash, hash]) = checkTopic .name (utf8 "/ab") ∧
      (checkTopic .name (utf8 "/ab") = true ↔ (utf8 "/ab").headD 0 = slash ∧
        Passes .name (seen (levels (utf8 "/ab")))) :=
  checkTopic_last_byte .name (utf8 "/ab") hash [[]] (utf8 "ab") (by decide) (by decide) (by decide)
    (by decide)

/-! ## A subscription that passes -/

/-- A level that is not handed out is empty or of one byte. -/
theorem seen_of_mem {ls : List (List UInt8)} (h : l ∈ ls) :
    l = [] ∨ l.length = 1 ∨ l ∈ seen ls := by
  induction ls with
  | nil => exact absurd h List.not_mem_nil
  | cons m ls ih =>
      rw [seen]
      rcases List.mem_cons.mp h with rfl | hl
      · by_cases hnil : l = []
        · exact Or.inl hnil
        · rw [if_neg hnil]
          exact Or.inr (Or.inr List.mem_cons_self)
      by_cases hm : m = []
      · rw [if_pos hm]
        exact ih hl
      rw [if_neg hm]
      by_cases hlast : ls.length = 1 ∧ (ls.headD []).length = 1
      · obtain ⟨k, rfl⟩ := List.length_eq_one_iff.mp hlast.1
        obtain rfl := List.mem_singleton.mp hl
        exact Or.inr (Or.inl hlast.2)
      · rw [if_neg hlast]
        exact (ih hl).imp_right (Or.imp_right (List.mem_cons_of_mem m))

/-- A level of a single byte is a wildcard or has none in it. -/
theorem level_of_length_eq_one (h : l.length = 1) : Level l := by
  obtain ⟨c, rfl⟩ := List.length_eq_one_iff.mp h
  by_cases hplus : c = plus
  · exact Or.inl (by rw [hplus])
  by_cases hhash : c = hash
  · exact Or.inr (Or.inl (by rw [hhash]))
  · exact Or.inr (Or.inr ⟨by simpa using Ne.symm hplus, by simpa using Ne.symm hhash⟩)

/-- A level that passes the rule for filters is a wildcard or has none in it.
-/
theorem level_of_checkRule (h : checkRule .filter l = true) : Level l := by
  by_cases hlen : l.length = 1
  · exact level_of_length_eq_one hlen
  have hwild : ∀ c ∈ l, ¬(c = plus ∨ c = hash) := by
    intro c hc hw
    have hrule := (Bool.and_eq_true _ _ ▸ List.all_eq_true.mp h c hc).1
    rw [if_pos hw] at hrule
    exact hlen (of_decide_eq_true hrule).2
  exact Or.inr (Or.inr ⟨fun hc => hwild plus hc (Or.inl rfl), fun hc => hwild hash hc (Or.inr rfl)⟩)

/-- In a filter that passes, every level is a wildcard or has none in it,
handed out or not. -/
theorem level_of_checkTopic (h : checkTopic .filter f = true) (hshort : f.length < topicMaxlen) :
    ∀ m ∈ levels f, Level m := by
  have hpasses := ((checkTopic_short .filter hshort).mp h).2
  intro m hm
  rcases seen_of_mem hm with rfl | hone | hmem
  · exact Or.inr (Or.inr ⟨List.not_mem_nil, List.not_mem_nil⟩)
  · exact level_of_length_eq_one hone
  · exact level_of_checkRule (hpasses.rule m hmem)

/-- **A subscription is matched level by level**, its filter having passed
the check before it went out: `+` takes a level that is not empty, `#` what
does not begin with an empty level. So every message that it takes is one
it is meant to take, and it misses none whose topic has no empty level
behind the first slash, but those of the level above its `#`. -/
theorem isTopicMatched_subscribed (f t : List UInt8) (h : checkTopic .filter f = true)
    (hshort : f.length < topicMaxlen) :
    isTopicMatched f t = Filter.takes [plus] [hash] takesOne takesRest (levels f) (levels t) ∧
      (isTopicMatched f t = true → Filter.standard [plus] [hash] (levels f) (levels t) = true) ∧
      ((∀ n ∈ (levels t).tail, n ≠ []) →
        Filter.takes [plus] [hash] (fun _ => true) (fun ns => !ns.isEmpty) (levels f) (levels t) =
          true → isTopicMatched f t = true) := by
  have hmatch := isTopicMatched_levels f t (level_of_checkTopic h hshort)
  refine ⟨hmatch, fun hmatched => ?_, fun hfull htakes => ?_⟩
  · rw [hmatch] at hmatched
    exact Filter.takes_mono (fun _ _ _ => rfl) (fun _ _ _ => rfl) hmatched
  · obtain ⟨f, rfl⟩ : ∃ g, f = slash :: g := by
      have hslash := ((checkTopic_iff .filter f).mp h).1
      rcases f with - | ⟨c, g⟩
      · exact absurd hslash (by decide)
      · exact ⟨g, by rw [← hslash]; rfl⟩
    have hf : levels (slash :: f) = [] :: levels f := levels_append (l := []) List.not_mem_nil f
    rw [hmatch]
    rw [hf] at htakes ⊢
    obtain ⟨n, -, ns, -, -, -, hn⟩ := exists_behind t
    rw [hn] at htakes hfull ⊢
    rw [Filter.takes_cons _ _ _ _ (by decide), Bool.and_eq_true] at htakes ⊢
    refine ⟨htakes.1, Filter.takes_mono (fun m hm _ => ?_) (fun ms hms hne => ?_) htakes.2⟩
    · exact (Bool.not_eq_true' _).mpr (List.isEmpty_eq_false_iff.mpr (hfull m hm))
    · rcases ms with - | ⟨m, ms⟩
      · cases hne
      · exact (Bool.not_eq_true' _).mpr (List.isEmpty_eq_false_iff.mpr
          (hfull m (hms.subset List.mem_cons_self)))

/-- A filter with both wildcards that passes the check, and a topic that it
takes. -/
theorem isTopicMatched_subscribed_ab :
    isTopicMatched (utf8 "/+/b/#") (utf8 "/a/b/c/d") =
        Filter.takes [plus] [hash] takesOne takesRest (levels (utf8 "/+/b/#"))
          (levels (utf8 "/a/b/c/d")) ∧
      (isTopicMatched (utf8 "/+/b/#") (utf8 "/a/b/c/d") = true →
        Filter.standard [plus] [hash] (levels (utf8 "/+/b/#")) (levels (utf8 "/a/b/c/d")) = true) ∧
      ((∀ n ∈ (levels (utf8 "/a/b/c/d")).tail, n ≠ []) →
        Filter.takes [plus] [hash] (fun _ => true) (fun ns => !ns.isEmpty) (levels (utf8 "/+/b/#"))
          (levels (utf8 "/a/b/c/d")) = true →
        isTopicMatched (utf8 "/+/b/#") (utf8 "/a/b/c/d") = true) :=
  isTopicMatched_subscribed (utf8 "/+/b/#") (utf8 "/a/b/c/d")
    ((checkTopic_short .filter (by decide)).mpr ⟨by decide, by decide, by decide, by decide⟩)
    (by decide)

end Mqtt

end WeatherTerminal
