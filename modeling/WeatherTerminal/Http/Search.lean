import WeatherTerminal.Http.Model.Head
/-!
# HTTP — searching the head

What the string functions find in the header buffer. A field is found by
the front of its line, in either case (`strncasecmpEq_iff`), and its value
is what follows the first colon, less the blanks (`fieldOf`). Over a buffer
that holds the lines of a head one behind the other, each with its NUL,
`webclient_header_fields_get` finds the first such line
(`headerFieldsGet_eq`), though it counts its way with the wrong lengths.
-/

namespace WeatherTerminal

namespace Block

variable {n : ℕ} {b : Block n}

/-- Stores replace the stretch they cover, and leave what is before and behind
it. -/
theorem bytes_storeAll {pre mid post vs : List UInt8} (h : b.bytes = pre ++ mid ++ post)
    (hlen : vs.length = mid.length) : (b.storeAll pre.length vs).bytes = pre ++ vs ++ post := by
  induction vs generalizing b pre mid with
  | nil =>
      obtain rfl : mid = [] := List.length_eq_zero_iff.mp hlen.symm
      exact h
  | cons v vs ih =>
      rcases mid with - | ⟨m, mid⟩
      · cases hlen
      · have hstore : (b.store pre.length v).bytes = (pre ++ [v]) ++ mid ++ post := by
          rw [store_bytes, h, List.append_assoc, List.set_append_right _ _ (Nat.le_refl _),
            Nat.sub_self, List.cons_append, List.set_cons_zero]
          simp
        have := ih hstore (Nat.succ.inj hlen)
        rw [List.length_append, List.length_singleton] at this
        rw [storeAll, this]
        simp

theorem bytes_store {pre post : List UInt8} {m v : UInt8} (h : b.bytes = pre ++ m :: post) :
    (b.store pre.length v).bytes = pre ++ v :: post := by
  rw [store_bytes, h, List.set_append_right _ _ (Nat.le_refl _), Nat.sub_self, List.set_cons_zero]

/-- The string at an offset is what stands there up to its NUL. -/
theorem cstr_eq {pre s post : List UInt8} (hs : 0 ∉ s) (h : b.bytes = pre ++ (s ++ 0 :: post)) :
    b.cstr pre.length = s := by
  rw [cstr, h, List.drop_left, cstrOf_append_zero hs]

end Block

namespace Http

/-! ## Strings -/

theorem toLower_eq_zero {c : UInt8} : toLower c = 0 ↔ c = 0 := by
  have hall : ∀ k < 256, toLower (UInt8.ofNat k) = 0 ↔ UInt8.ofNat k = 0 := by decide +kernel
  have := hall c.toNat c.toNat_lt
  rwa [UInt8.ofNat_toNat] at this

/-- A string starts with another, whether the letters of the two are in upper
or in lower case. -/
def StartsWith (name text : List UInt8) : Prop := name.map toLower <+: text.map toLower

instance (name text : List UInt8) : Decidable (StartsWith name text) :=
  inferInstanceAs (Decidable (name.map toLower <+: text.map toLower))

/-- The comparison over the length of a name is whether a text starts with it.
-/
theorem strncasecmpEq_iff {name text : List UInt8} (hname : 0 ∉ name) :
    strncasecmpEq name.length text name = true ↔ StartsWith name text := by
  induction name generalizing text with
  | nil => simp [strncasecmpEq, StartsWith]
  | cons c name ih =>
      have hc : toLower c ≠ 0 := fun h => hname (toLower_eq_zero.mp h ▸ List.mem_cons_self)
      rw [List.length_cons, strncasecmpEq, List.headD_cons, List.tail_cons]
      rcases text with - | ⟨d, text⟩
      · have hnil : toLower (([] : List UInt8).headD 0) ≠ toLower c := fun h => hc h.symm
        rw [if_pos hnil]
        simp [StartsWith]
      · rw [List.headD_cons, List.tail_cons]
        by_cases hcd : toLower d = toLower c
        · rw [if_neg (not_not.mpr hcd), if_neg (by rw [hcd]; exact hc),
            ih fun h => hname (List.mem_cons_of_mem c h), StartsWith, StartsWith, List.map_cons,
            List.map_cons, hcd, List.cons_prefix_cons]
          simp
        · rw [if_pos hcd]
          refine iff_of_false Bool.false_ne_true fun h => ?_
          rw [StartsWith, List.map_cons, List.map_cons, List.cons_prefix_cons] at h
          exact hcd h.1.symm

/-- The test `webclient_header_fields_get` makes of a line is whether it
starts with the name. -/
theorem strstri_eq_zero {name text : List UInt8} (hname : 0 ∉ name) (hne : name ≠ []) :
    strstri name text = some 0 ↔ StartsWith name text := by
  rcases text with - | ⟨c, text⟩
  · refine iff_of_false (by simp [strstri]) fun h => ?_
    exact hne (List.map_eq_nil_iff.mp (List.prefix_nil.mp h))
  · rw [strstri, if_neg hne, ← strncasecmpEq_iff hname]
    split
    · simp [*]
    · simp [*]

/-- What stands before a text without the byte is passed over. -/
theorem strstr_append {c : UInt8} {pre : List UInt8} (t : List UInt8) (h : c ∉ pre) :
    strstr [c] (pre ++ t) = (strstr [c] t).map (pre.length + ·) := by
  induction pre with
  | nil => simp
  | cons d pre ih =>
      have hd : ¬ c = d := fun h0 => h (h0 ▸ List.mem_cons_self)
      rw [List.cons_append, strstr, ih fun h0 => h (List.mem_cons_of_mem d h0)]
      simp only [List.isPrefixOf, beq_iff_eq, hd, Bool.and_true, if_false, Option.map_map,
        List.length_cons]
      congr 1
      funext k
      simp only [Function.comp_apply]
      omega

theorem strstr_append_cons {c : UInt8} {pre post : List UInt8} (h : c ∉ pre) :
    strstr [c] (pre ++ c :: post) = some pre.length := by
  rw [strstr_append _ h]
  simp [strstr]

theorem strstr_eq_none {c : UInt8} {s : List UInt8} (h : c ∉ s) : strstr [c] s = none := by
  have := strstr_append [] h
  rwa [List.append_nil] at this

/-! ## Lines and fields -/

/-- Neither a NUL nor a line feed: what a line of the head may consist of. -/
def Clean (bs : List UInt8) : Prop := 0 ∉ bs ∧ 10 ∉ bs

instance (bs : List UInt8) : Decidable (Clean bs) := inferInstanceAs (Decidable (_ ∧ _))

/-- What stands behind the first colon of a line, less the blanks. -/
def valueOf (line : List UInt8) : List UInt8 :=
  ((line.dropWhile (· ≠ 58)).drop 1).dropWhile isBlank

/-- The value of a field: that of the first line that starts with its name
and has a colon. -/
def fieldOf (name : List UInt8) : List (List UInt8) → Option (List UInt8)
  | [] => none
  | line :: ls => if StartsWith name line ∧ 58 ∈ line then some (valueOf line) else fieldOf name ls

/-- The lines as the buffer holds them, one behind the other and each ended by
a NUL. -/
def stored (ls : List (List UInt8)) : List UInt8 := ls.flatMap (· ++ [0])

variable {size : ℕ} {h : Header size} {name : List UInt8}

/-- The pointer is behind the colon and the blanks of the line, where the
value starts. -/
theorem cstr_value {pre line post : List UInt8} (hclean : 0 ∉ line) (hcolon : 58 ∈ line)
    (hb : h.buffer.bytes = pre ++ (line ++ 0 :: post)) :
    ∃ k, strstr [58] line = some k ∧
      h.buffer.cstr (pre.length + (k + 1) + ((line.drop (k + 1)).takeWhile isBlank).length) =
        valueOf line := by
  obtain ⟨front, back, rfl, hfront⟩ := List.eq_append_cons_of_mem hcolon
  refine ⟨front.length, strstr_append_cons hfront, ?_⟩
  have hdrop : (front ++ 58 :: back).drop (front.length + 1) = back := by
    rw [← List.drop_drop, List.drop_left]
    rfl
  have htext := Block.cstr_eq hclean hb
  have hle : front.length + 1 + (back.takeWhile isBlank).length ≤
      (h.buffer.cstr pre.length).length := by
    have := (List.takeWhile_prefix isBlank (l := back)).length_le
    rw [htext, List.length_append, List.length_cons]
    omega
  rw [hdrop, Nat.add_assoc, Block.cstr_add hle, htext, ← List.drop_drop, hdrop]
  have hne : ∀ c ∈ front, decide (c ≠ 58) = true := fun c hc =>
    decide_eq_true fun h0 => hfront (h0 ▸ hc)
  have hcut : (front ++ 58 :: back).dropWhile (· ≠ 58) = 58 :: back := by
    rw [List.dropWhile_append_of_pos hne]
    exact List.dropWhile_cons_of_neg (by simp)
  rw [valueOf, hcut, List.drop_succ_cons, List.drop_zero]
  calc back.drop (back.takeWhile isBlank).length
      = (back.takeWhile isBlank ++ back.dropWhile isBlank).drop (back.takeWhile isBlank).length := by
        rw [List.takeWhile_append_dropWhile]
    _ = back.dropWhile isBlank := List.drop_left

/-- One round, at a line: its value where it starts with the name, or the
search of the lines behind it. -/
theorem fieldsGetFrom_line {line : List UInt8} {respBuf respBufLen : ℕ} (hname : 0 ∉ name)
    (hne : name ≠ []) (hline : line ≠ []) (htext : h.buffer.cstr respBuf = line)
    (hlt : respBufLen < h.length) :
    fieldsGetFrom h name respBuf respBufLen =
      (if StartsWith name line then strstr [58] line else none).elim
        (fieldsGetFrom h name (respBuf + (line.length + 1))
          (respBufLen + ((h.buffer.cstr (respBuf + (line.length + 1))).length + 1)))
        fun k => some (respBuf + (k + 1) + ((line.drop (k + 1)).takeWhile isBlank).length) := by
  rw [fieldsGetFrom, if_pos hlt]
  simp only [htext, if_neg hline]
  rw [if_congr (strstri_eq_zero hname hne) rfl rfl]
  cases (if StartsWith name line then strstr [58] line else none) <;> rfl

/-- From the line at `respBuf` on. What has been counted is short of the
length by the first line, so the search does not end before the lines do. -/
theorem fieldsGetFrom_eq {ls : List (List UInt8)} {pre post : List UInt8} {respBufLen : ℕ}
    (hname : 0 ∉ name) (hne : name ≠ []) (hls : ∀ l ∈ ls, l ≠ [] ∧ 0 ∉ l)
    (hb : h.buffer.bytes = pre ++ (stored ls ++ 0 :: post))
    (hlen : ls ≠ [] → respBufLen + (ls.tail.map (·.length + 1)).sum < h.length) :
    (fieldsGetFrom h name pre.length respBufLen).map h.buffer.cstr = fieldOf name ls := by
  induction ls generalizing pre respBufLen with
  | nil =>
      have htext : h.buffer.cstr pre.length = [] := Block.cstr_eq List.not_mem_nil hb
      rw [fieldsGetFrom]
      simp [htext, strstri, fieldOf]
  | cons line ls ih =>
      obtain ⟨hlne, hclean⟩ := hls line List.mem_cons_self
      have hb' : h.buffer.bytes = pre ++ (line ++ 0 :: (stored ls ++ 0 :: post)) := by
        rw [hb, stored, List.flatMap_cons]
        simp [stored]
      have hshort := hlen (List.cons_ne_nil line ls)
      rw [List.tail_cons] at hshort
      rw [fieldsGetFrom_line hname hne hlne (Block.cstr_eq hclean hb') (by omega), fieldOf]
      have hnext : h.buffer.bytes = (pre ++ (line ++ [0])) ++ (stored ls ++ 0 :: post) := by
        rw [hb']
        simp
      have hpos : pre.length + (line.length + 1) = (pre ++ (line ++ [0])).length := by
        simp only [List.length_append, List.length_singleton]
      -- the line ahead is counted, where there is one
      have hahead : ls ≠ [] →
          respBufLen + ((h.buffer.cstr (pre ++ (line ++ [0])).length).length + 1) +
            (ls.tail.map (·.length + 1)).sum < h.length := by
        intro hls'
        rcases ls with - | ⟨next, ls⟩
        · exact absurd rfl hls'
        · have hb'' : h.buffer.bytes =
              (pre ++ (line ++ [0])) ++ (next ++ 0 :: (stored ls ++ 0 :: post)) := by
            rw [hnext, stored, List.flatMap_cons]
            simp [stored]
          rw [Block.cstr_eq (hls next (by simp)).2 hb'', List.tail_cons]
          rw [List.map_cons, List.sum_cons] at hshort
          omega
      have hrest := ih (fun l hl => hls l (List.mem_cons_of_mem line hl)) hnext hahead
      by_cases hstart : StartsWith name line
      · by_cases hcolon : 58 ∈ line
        · obtain ⟨k, hk, hvalue⟩ := cstr_value hclean hcolon hb'
          rw [if_pos hstart, hk, if_pos ⟨hstart, hcolon⟩]
          exact congrArg some hvalue
        · rw [if_pos hstart, strstr_eq_none hcolon, if_neg fun h0 => hcolon h0.2, hpos]
          exact hrest
      · rw [if_neg hstart, if_neg fun h0 => hstart h0.1, hpos]
        exact hrest

/-- **The field that is found is the first that bears the name.** -/
theorem headerFieldsGet_eq {ls : List (List UInt8)} {post : List UInt8} (hname : 0 ∉ name)
    (hne : name ≠ []) (hls : ∀ l ∈ ls, l ≠ [] ∧ 0 ∉ l)
    (hb : h.buffer.bytes = stored ls ++ 0 :: post) (hlen : h.length = (stored ls).length) :
    (headerFieldsGet h name).map h.buffer.cstr = fieldOf name ls := by
  have hb' : h.buffer.bytes = [] ++ (stored ls ++ 0 :: post) := hb
  refine fieldsGetFrom_eq hname hne hls hb' fun hls' => ?_
  rcases ls with - | ⟨line, ls⟩
  · exact absurd rfl hls'
  · have hsum : (stored ls).length = (ls.map (·.length + 1)).sum := by
      rw [stored, List.length_flatMap]
      simp
    rw [hlen, stored, List.flatMap_cons, List.length_append, ← stored, hsum, List.tail_cons]
    simp

end Http

end WeatherTerminal
