import WeatherTerminal.Jsmn.Lookup
/-!
# jsmn — what stands behind a text

A NUL ends a text wherever it stands, so a text with one behind it is
parsed as the text alone, and its tokens say the same in both. Only an
escape the text breaks off in is refused with another code. The null token
array only counts, and counts the same.
-/

namespace WeatherTerminal

namespace Jsmn

variable {beyond : Bool} {pool : Option ℕ} {c : UInt8} {cs zs : List UInt8} {p p' : JsmnParser}
  {k n : ℕ}

/-! ## The scanners -/

theorem scanString_nul : scanString beyond 0 (0 :: cs) = .error (.err .part) := by
  unfold scanString
  rfl

theorem scanString_quote : scanString beyond 0 (quote :: cs) = .ok 0 := by
  unfold scanString
  rfl

/-- An escape is passed over with what it escapes, or four digits behind a
`u`. -/
theorem scanString_escape {e : UInt8} : scanString beyond 0 (backslash :: e :: cs) =
    if isEscape e then (scanString beyond 0 cs).map (· + 2)
    else if e = 0x75 then (scanString beyond 4 cs).map (· + 2)
    else .error (.err .inval) := by
  conv_lhs => unfold scanString
  rfl

theorem scanString_plain (h : c ≠ 0) (hq : c ≠ quote) (hb : c ≠ backslash) :
    scanString beyond 0 (c :: cs) = (scanString beyond 0 cs).map (· + 1) := by
  conv_lhs => unfold scanString
  rw [if_neg h, if_neg hq, if_neg hb]

/-- A string is scanned the same whatever stands behind the NUL of its text.
-/
theorem scanString_append_zero {hex : ℕ} :
    (scanString beyond hex (cs ++ 0 :: zs)).toOption = (scanString false hex cs).toOption := by
  fun_induction scanString false hex cs with
  | case1 hex =>
      rcases hex with - | hex
      · rw [List.nil_append, scanString_nul]
        rfl
      · simp [scanString, Except.toOption]
  | case2 hex cs => simp [scanString, Except.toOption]
  | case3 hex c cs hc hh ih =>
      rw [List.cons_append, scanString, if_neg hc, if_pos hh, toOption_map, toOption_map, ih]
  | case4 hex c cs hc hh =>
      rw [List.cons_append, scanString, if_neg hc, if_neg hh]
  | case5 cs =>
      rw [List.cons_append, scanString_nul]
  | case6 cs hc =>
      rw [List.cons_append, scanString_quote]
  | case7 hz hq =>
      -- the text breaks off behind a backslash
      rw [List.cons_append, List.nil_append, scanString_escape]
      rfl
  | case8 e cs he _ _ ih =>
      rw [List.cons_append, List.cons_append, scanString_escape, if_pos he, toOption_map,
        toOption_map, ih]
  | case9 cs hz hq he ih =>
      rw [List.cons_append, List.cons_append, scanString_escape, if_neg he, if_pos rfl,
        toOption_map, toOption_map, ih]
  | case10 e cs he hu =>
      rw [List.cons_append, List.cons_append, scanString_escape, if_neg he, if_neg hu]
  | case11 c cs hz hq hb ih =>
      rw [List.cons_append, scanString_plain hz hq hb, toOption_map, toOption_map, ih]

theorem scanPrimitive_append_zero :
    (scanPrimitive beyond (cs ++ 0 :: zs)).toOption = (scanPrimitive false cs).toOption := by
  induction cs with
  | nil => simp [scanPrimitive, Except.toOption]
  | cons c cs ih =>
      rw [List.cons_append, scanPrimitive, scanPrimitive]
      split
      · rfl
      split
      · rfl
      split
      · rfl
      · rw [toOption_map, toOption_map, ih]

/-! ## The loop -/

theorem jsmnStep_append_zero :
    (jsmnStep beyond pool c (cs ++ 0 :: zs) p).toOption = (jsmnStep false pool c cs p).toOption := by
  have hprim : (scanPrimitive beyond ((c :: cs) ++ 0 :: zs)).toOption =
      (scanPrimitive false (c :: cs)).toOption := scanPrimitive_append_zero
  rw [List.cons_append] at hprim
  unfold jsmnStep
  split
  · rfl
  split
  · rfl
  split
  · rw [toOption_bind, toOption_bind, scanString_append_zero]
  split
  · rfl
  split
  · rfl
  split
  · rfl
  · rw [toOption_bind, toOption_bind, hprim]

/-- A string ends before its closing quote, which is a byte of the text. -/
theorem scanString_lt {hex m : ℕ} (h : scanString beyond hex cs = .ok m) : m < cs.length := by
  fun_induction scanString beyond hex cs generalizing m with
  | case1 | case2 | case4 | case5 | case7 | case10 => cases h
  | case3 hex c cs hc _ ih | case11 c cs hc _ _ ih =>
      obtain ⟨k, hk, rfl⟩ := exists_of_map_eq_ok h
      simpa using ih hk
  | case6 =>
      obtain rfl := Except.ok.inj h
      exact Nat.zero_lt_succ _
  | case8 e cs _ _ _ ih | case9 cs _ _ _ ih =>
      obtain ⟨k, hk, rfl⟩ := exists_of_map_eq_ok h
      have := ih hk
      simp only [List.length_cons]
      omega

/-- A round stays within the text, whatever it finds there. -/
theorem jsmnStep_le (h : jsmnStep beyond pool c cs p = .ok (p', n)) : n ≤ (c :: cs).length := by
  have hone : 1 ≤ (c :: cs).length := Nat.succ_pos _
  unfold jsmnStep at h
  split at h
  · obtain ⟨_, _, h⟩ := exists_of_bind_eq_ok h
    exact (Prod.mk.inj (Except.ok.inj h)).2 ▸ hone
  split at h
  · split at h
    · exact (Prod.mk.inj (Except.ok.inj h)).2 ▸ hone
    obtain ⟨_, _, h⟩ := exists_of_bind_eq_ok h
    exact (Prod.mk.inj (Except.ok.inj h)).2 ▸ hone
  split at h
  · obtain ⟨m, hm, h⟩ := exists_of_bind_eq_ok h
    obtain ⟨_, _, h⟩ := exists_of_bind_eq_ok h
    have := scanString_lt hm
    obtain rfl := (Prod.mk.inj (Except.ok.inj h)).2
    simp only [List.length_cons]
    omega
  iterate 3
    split at h
    · exact (Prod.mk.inj (Except.ok.inj h)).2 ▸ hone
  obtain ⟨m, hm, h⟩ := exists_of_bind_eq_ok h
  obtain ⟨_, _, h⟩ := exists_of_bind_eq_ok h
  obtain rfl := (Prod.mk.inj (Except.ok.inj h)).2
  exact (scanPrimitive_ok hm).1

/-- The loop stops at the NUL, by induction over the bytes before it. -/
theorem jsmnLoop_append_zero :
    ∀ {fuel fuel' : ℕ} {rest : List UInt8} {p : JsmnParser}, 0 ∉ rest → rest.length ≤ fuel →
      rest.length < fuel' → (jsmnLoop beyond pool fuel' (rest ++ 0 :: zs) p).toOption =
        (jsmnLoop false pool fuel rest p).toOption := by
  intro fuel
  induction fuel with
  | zero =>
      intro fuel' rest p _ hlen hlt
      obtain rfl : rest = [] := List.length_eq_zero_iff.mp (by omega)
      obtain ⟨m, rfl⟩ := Nat.exists_eq_succ_of_ne_zero (by omega : fuel' ≠ 0)
      simp [jsmnLoop]
  | succ fuel ih =>
      intro fuel' rest p hz hlen hlt
      obtain ⟨m, rfl⟩ := Nat.exists_eq_succ_of_ne_zero (by omega : fuel' ≠ 0)
      cases rest with
      | nil => simp [jsmnLoop]
      | cons c cs =>
          have hc : c ≠ 0 := fun h => hz (by simp [h])
          simp only [List.length_cons] at hlen hlt
          rw [List.cons_append, jsmnLoop, jsmnLoop, if_neg hc, if_neg hc, toOption_bind,
            toOption_bind, jsmnStep_append_zero]
          cases hs : jsmnStep false pool c cs p with
          | error e => rfl
          | ok r =>
              obtain ⟨p', n⟩ := r
              have hn := jsmnStep_takes hc hs
              have hle := jsmnStep_le hs
              change (jsmnLoop beyond pool m ((c :: (cs ++ 0 :: zs)).drop n) (p'.skip n)).toOption =
                (jsmnLoop false pool fuel ((c :: cs).drop n) (p'.skip n)).toOption
              rw [← List.cons_append, List.drop_append_of_le_length hle]
              -- what the step took is text, so the NUL is still behind the rest
              refine ih (fun h => hz (List.mem_of_mem_drop h)) ?_ ?_
              · rw [List.length_drop, List.length_cons]
                omega
              · rw [List.length_drop, List.length_cons]
                omega

/-- **A NUL ends the text**, whatever longer length is given and whatever
stands behind it. -/
theorem jsmnParse_append_zero {s : List UInt8} {len : ℕ} (hs : 0 ∉ s) (hlen : s.length < len) :
    (jsmnParse (s ++ 0 :: zs) len pool).toOption = (jsmnParse s s.length pool).toOption := by
  have htext : (s ++ 0 :: zs).take len = s ++ 0 :: zs.take (len - s.length - 1) := by
    obtain ⟨m, hm⟩ := Nat.exists_eq_succ_of_ne_zero (by omega : len - s.length ≠ 0)
    rw [List.take_append, List.take_of_length_le hlen.le, hm, List.take_succ_cons,
      Nat.succ_sub_one]
  rw [jsmnParse, jsmnParse, toOption_bind, toOption_bind, htext, List.take_length,
    jsmnLoop_append_zero hs (Nat.le_refl _) (by simp)]
  simp

/-! ## The null array -/

@[simp] theorem leave_count : p.leave.count = p.count := by
  unfold JsmnParser.leave
  repeat' split
  all_goals rfl

/-- A round with the null array takes the bytes and counts the tokens of
one with an array. -/
theorem jsmnStep_count {num : ℕ} {q : JsmnParser} (hcount : q.count = p.count)
    (h : jsmnStep beyond (some num) c cs p = .ok (p', n)) :
    ∃ q', jsmnStep beyond none c cs q = .ok (q', n) ∧ q'.count = p'.count := by
  unfold jsmnStep at h ⊢
  -- the branches of the step, which the two runs take together: an array only
  -- decides where a token is kept
  split at h
  · rename_i hc
    obtain ⟨r, hr, h⟩ := exists_of_bind_eq_ok h
    obtain ⟨-, rfl⟩ := push_some hr
    obtain ⟨rfl, rfl⟩ := Prod.mk.inj (Except.ok.inj h)
    rw [if_pos hc]
    exact ⟨_, rfl, congrArg (· + 1) hcount⟩
  rename_i hopen
  rw [if_neg hopen]
  split at h
  · rename_i hc
    rw [if_neg (by simp)] at h
    obtain ⟨r, hr, h⟩ := exists_of_bind_eq_ok h
    obtain ⟨rfl, rfl⟩ := Prod.mk.inj (Except.ok.inj h)
    rw [if_pos hc, if_pos rfl]
    refine ⟨q, rfl, ?_⟩
    cases closes_of_close hr <;> exact hcount
  rename_i hclose
  rw [if_neg hclose]
  split at h
  · rename_i hc
    obtain ⟨m, hm, h⟩ := exists_of_bind_eq_ok h
    obtain ⟨r, hr, h⟩ := exists_of_bind_eq_ok h
    obtain ⟨-, rfl⟩ := push_some hr
    obtain ⟨rfl, rfl⟩ := Prod.mk.inj (Except.ok.inj h)
    rw [if_pos hc, hm]
    exact ⟨_, rfl, congrArg (· + 1) hcount⟩
  rename_i hquote
  rw [if_neg hquote]
  split at h
  · rename_i hc
    obtain ⟨rfl, rfl⟩ := Prod.mk.inj (Except.ok.inj h)
    rw [if_pos hc]
    exact ⟨_, rfl, hcount⟩
  rename_i hspace
  rw [if_neg hspace]
  split at h
  · rename_i hc
    obtain ⟨rfl, rfl⟩ := Prod.mk.inj (Except.ok.inj h)
    rw [if_pos hc]
    exact ⟨_, rfl, hcount⟩
  rename_i hcolon
  rw [if_neg hcolon]
  split at h
  · rename_i hc
    obtain ⟨rfl, rfl⟩ := Prod.mk.inj (Except.ok.inj h)
    rw [if_pos hc]
    exact ⟨_, rfl, by rw [leave_count, leave_count, hcount]⟩
  · rename_i hcomma
    obtain ⟨m, hm, h⟩ := exists_of_bind_eq_ok h
    obtain ⟨r, hr, h⟩ := exists_of_bind_eq_ok h
    obtain ⟨-, rfl⟩ := push_some hr
    obtain ⟨rfl, rfl⟩ := Prod.mk.inj (Except.ok.inj h)
    rw [if_neg hcomma, hm]
    exact ⟨_, rfl, congrArg (· + 1) hcount⟩

/-- Without an array the loop counts the tokens it has none to store in. -/
theorem jsmnLoop_count {num : ℕ} :
    ∀ {fuel : ℕ} {rest : List UInt8} {p q r : JsmnParser}, q.count = p.count → q.tokens = [] →
      jsmnLoop beyond (some num) fuel rest p = .ok r →
      ∃ q', jsmnLoop beyond none fuel rest q = .ok q' ∧ q'.count = r.count ∧ q'.tokens = [] := by
  have hnil : ∀ {fuel : ℕ} {p q r : JsmnParser}, q.count = p.count → q.tokens = [] →
      jsmnLoop beyond (some num) fuel [] p = .ok r →
      ∃ q', jsmnLoop beyond none fuel [] q = .ok q' ∧ q'.count = r.count ∧ q'.tokens = [] := by
    intro fuel p q r hcount hq h
    unfold jsmnLoop at h ⊢
    split at h
    · cases h
    · rename_i hover
      rw [if_neg hover]
      exact ⟨q, rfl, Except.ok.inj h ▸ hcount, hq⟩
  intro fuel
  induction fuel with
  | zero =>
      intro rest p q r hcount hq h
      cases rest with
      | nil => exact hnil hcount hq h
      | cons c cs => cases h
  | succ fuel ih =>
      intro rest p q r hcount hq h
      cases rest with
      | nil => exact hnil hcount hq h
      | cons c cs =>
          unfold jsmnLoop at h ⊢
          split at h
          · rename_i hc
            rw [if_pos hc]
            exact ⟨q, rfl, Except.ok.inj h ▸ hcount, hq⟩
          · rename_i hc
            obtain ⟨⟨p', n⟩, hs, h⟩ := exists_of_bind_eq_ok h
            -- one step with an array, one without, and the same bytes are left
            obtain ⟨q', hs', hcount'⟩ := jsmnStep_count hcount hs
            rw [if_neg hc, hs']
            exact ih (p := p'.skip n) (q := q'.skip n) hcount' ((jsmnStep_null hs').trans hq) h

/-- **The null array counts the same**, for a text that is accepted with an
array. -/
theorem jsmnParse_null {js : List UInt8} {len count num : ℕ} {tokens : List JsmnTok}
    (h : jsmnParse js len (some num) = .ok (count, tokens)) :
    jsmnParse js len none = .ok (count, []) := by
  obtain ⟨r, hr, h⟩ := exists_of_bind_eq_ok h
  obtain ⟨q, hq, hcount, htokens⟩ := jsmnLoop_count rfl rfl hr
  rw [jsmnParse, hq]
  split at h
  · cases h
  · obtain ⟨rfl, -⟩ := Prod.mk.inj (Except.ok.inj h)
    change (if q.tokens.any _ then _ else _) = _
    rw [htokens, hcount]
    rfl

/-! ## The tokens -/

section

variable {s : List UInt8} {tokens : List JsmnTok} {i : ℕ} {t : JsmnTok}

/-- The bytes of a scalar are the same with more behind the text. -/
theorem raw_append (hacc : Accepted s tokens) (ht : tokens[i]? = some t) (hs : t.isScalar)
    (tail : List UInt8) : t.raw (s ++ tail) = t.raw s := by
  obtain ⟨e, he⟩ := hacc.laid.covers ht hs
  have := he.start_le
  have := he.le_length
  rw [JsmnTok.raw, JsmnTok.raw, he.stop_eq, Option.getD_some,
    List.drop_append_of_le_length (by omega), List.take_append_of_le_length]
  rw [List.length_drop]
  omega

theorem memberOf_append (hacc : Accepted s tokens) (i : ℕ) (key tail : List UInt8) :
    memberOf (s ++ tail) tokens i key = memberOf s tokens i key := by
  rw [memberOf, memberOf]
  congr 1
  funext o
  congr 1
  funext k
  cases hk : tokens[k]? with
  | none => rfl
  | some t =>
      rw [Option.any_some, Option.any_some, decide_eq_decide]
      refine and_congr_right fun hstring => ?_
      rw [raw_append hacc hk (by simp [JsmnTok.isScalar, hstring])]

theorem textOf_append (hacc : Accepted s tokens) (k : ℕ) (tail : List UInt8) :
    textOf (s ++ tail) tokens k = textOf s tokens k := by
  rw [textOf, textOf]
  cases hsc : scalarOf tokens k with
  | none => rfl
  | some t =>
      obtain ⟨ht, hs⟩ := scalarOf_spec hacc.forest hsc
      rw [Option.map_some, Option.map_some, raw_append hacc ht hs]

end

end Jsmn

end WeatherTerminal
