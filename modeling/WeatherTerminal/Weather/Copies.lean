import WeatherTerminal.Common.Run
import WeatherTerminal.Weather.Model.Copies
/-!
# Weather — the copies write the record

Running the copies one by one is what `weather_get_test` does
(`formatReply_eq_runCopies`). The copies to one member amount to one copy
of one text, and stay in its array where that text fits.
-/

namespace WeatherTerminal

namespace Weather

open Jsmn

variable {n : ℕ} {js : Block n} {strings : Reply (Option ℕ)} {stray : List UInt8}
  {w : WeatherInfo} {m : Member} {first : List UInt8} {texts : List (List UInt8)}

/-! ## The arrays of the record -/

theorem Member.offset_add_size_le (m : Member) : m.offset + m.size ≤ infoSize := by
  rcases m with - | - | - | - | - | (- | - | -) | (- | - | -) | (- | - | -) <;> decide

theorem Member.size_pos (m : Member) : 0 < m.size := by
  rcases m with - | - | - | - | - | d | d | d <;> exact Nat.zero_lt_succ _

/-- No two arrays share a byte, so a text in one of them is no part of
another. -/
theorem Member.apart {m m' : Member} (h : m ≠ m') :
    m.offset + m.size ≤ m'.offset ∨ m'.offset + m'.size ≤ m.offset := by
  revert h
  rcases m with - | - | - | - | - | (- | - | -) | (- | - | -) | (- | - | -) <;>
    rcases m' with - | - | - | - | - | (- | - | -) | (- | - | -) | (- | - | -) <;> decide

/-! ## Copies in a row -/

/-- Copies one after the other write one after the other. -/
theorem runCopies_append (copies more : List Copy) :
    runCopies w (copies ++ more) = runCopies (runCopies w copies) more := List.foldl_append

/-- They stay in their arrays where the first do and the others do behind
them. -/
theorem allInside_append {copies more : List Copy} :
    AllInside w (copies ++ more) ↔ AllInside w copies ∧ AllInside (runCopies w copies) more := by
  induction copies generalizing w with
  | nil => simp [AllInside, runCopies]
  | cons c copies ih => exact (and_congr_right fun _ => ih).trans (and_assoc ..).symm

/-- A row of `strcat` as copies is the row as it was written. -/
theorem runCopies_strcats (texts : List (List UInt8)) :
    runCopies w (texts.map (.strcat m)) = WeatherInfo.strcats w m texts := List.foldl_map

/-- A `strcpy` with its row of `strcat` is one fill of its member. -/
theorem runCopies_memberCopies :
    runCopies w (memberCopies m first texts) = WeatherInfo.fill w m first texts :=
  runCopies_strcats texts

/-! ## The program -/

/-- A step that a mapped one goes along with, in a computation that may fail.
-/
theorem bind_eq_map_bind {ε α β γ : Type} {x : Except ε α} {f : α → Except ε β}
    {g : α → Except ε γ} {h : γ → β} (hfg : ∀ a, f a = (g a).map h) :
    (x >>= f) = (x >>= g).map h := by
  rcases x with e | a
  · rfl
  · exact hfg a

/-- What is written before the date is cut is written by its copies. -/
theorem formatNow_eq_runCopies :
    formatNow strings js w = (copiesNow strings js).map (runCopies w) := by
  refine bind_eq_map_bind fun text => bind_eq_map_bind fun high => bind_eq_map_bind fun low =>
    bind_eq_map_bind fun name => bind_eq_map_bind fun feelsLike => bind_eq_map_bind fun rh => ?_
  refine congrArg Except.ok ?_
  rw [runCopies_append, runCopies_append, runCopies_append, runCopies_memberCopies,
    runCopies_memberCopies, runCopies_memberCopies]
  rfl

/-- What is written for a day is written by its copies. -/
theorem formatDay_eq_runCopies (d : Day) :
    formatDay strings js stray d w = (copiesDay strings js stray d).map (runCopies w) := by
  refine bind_eq_map_bind fun textDay => bind_eq_map_bind fun high => bind_eq_map_bind fun low =>
    bind_eq_map_bind fun week => ?_
  refine congrArg Except.ok ?_
  rw [runCopies_append, runCopies_append, runCopies_memberCopies, runCopies_memberCopies,
    runCopies_memberCopies]

/-- **The record is written by its copies**, one behind the other. -/
theorem formatReply_eq_runCopies :
    formatReply strings js stray w = (copiesReply strings js stray).map (runCopies w) := by
  unfold formatReply copiesReply
  rw [formatNow_eq_runCopies]
  rcases copiesNow strings js with e | now
  · rfl
  show (splitDate js (strings .date) >>= _) = (splitDate js (strings .date) >>= _).map _
  refine bind_eq_map_bind fun cut => bind_eq_map_bind fun week => ?_
  rcases cut with ⟨js', month, day⟩
  show (formatDay strings js' stray .day1 _ >>= _) = _
  rw [formatDay_eq_runCopies]
  rcases copiesDay strings js' stray .day1 with e | day1
  · rfl
  show (formatDay strings js' stray .day2 _ >>= _) = _
  rw [formatDay_eq_runCopies]
  rcases copiesDay strings js' stray .day2 with e | day2
  · rfl
  show formatDay strings js' stray .day3 _ = _
  rw [formatDay_eq_runCopies]
  rcases copiesDay strings js' stray .day3 with e | day3
  · rfl
  refine congrArg Except.ok ?_
  rw [runCopies_append, runCopies_append, runCopies_append, runCopies_append,
    runCopies_memberCopies]

/-! ## The copies to one member -/

/-- `strncpy` of a text with its NUL is `strcpy`, there being nothing to pad.
-/
theorem exec_strncpy (text : List UInt8) :
    (Copy.strncpy m text (text.length + 1)).exec w = (Copy.strcpy m text).exec w := by
  have htake : (text ++ List.replicate (text.length + 1) 0).take (text.length + 1) =
      text ++ [0] := by
    rw [List.take_length_add_append, List.take_replicate]
    simp
  rw [Copy.exec, Copy.exec, Block.strncpy, htake, Block.strcpy]

/-- So a member that starts with one is written like the others. -/
theorem runCopies_strncpy (text : List UInt8) (texts : List (List UInt8)) :
    runCopies w (.strncpy m text (text.length + 1) :: texts.map (.strcat m)) =
      runCopies w (memberCopies m text texts) :=
  congrArg (runCopies · (texts.map (.strcat m))) (exec_strncpy text)

theorem allInside_strncpy (text : List UInt8) (texts : List (List UInt8)) :
    AllInside w (.strncpy m text (text.length + 1) :: texts.map (.strcat m)) ↔
      AllInside w (memberCopies m text texts) :=
  and_congr_right fun _ =>
    iff_of_eq (congrArg (AllInside · (texts.map (.strcat m))) (exec_strncpy text))

/-- **The copies to one member write one text**, the texts joined. -/
theorem runCopies_memberCopies_eq (hfirst : 0 ∉ first) (htexts : ∀ t ∈ texts, 0 ∉ t) :
    runCopies w (memberCopies m first texts) = w.strcpy m.offset (first ++ texts.flatten) := by
  rw [runCopies_memberCopies, WeatherInfo.fill]
  induction texts generalizing first with
  | nil => rw [List.flatten_nil, List.append_nil]; rfl
  | cons t texts ih =>
      have ht := htexts t (List.mem_cons_self ..)
      have hin : m.offset ≤ infoSize := by
        have := m.offset_add_size_le
        omega
      have hcons : WeatherInfo.strcats (w.strcpy m.offset first) m (t :: texts) =
          WeatherInfo.strcats ((w.strcpy m.offset first).strcat m.offset t) m texts := rfl
      rw [hcons, Block.strcat_strcpy hfirst hin, List.flatten_cons, ← List.append_assoc]
      exact ih (by simp [hfirst, ht]) fun t' ht' => htexts t' (List.mem_cons_of_mem t ht')

/-- **And stay in its array** where that text fits with its NUL. -/
theorem allInside_memberCopies (hfirst : 0 ∉ first) (htexts : ∀ t ∈ texts, 0 ∉ t)
    (hfit : (first ++ texts.flatten).length < m.size) :
    AllInside w (memberCopies m first texts) := by
  have hin := m.offset_add_size_le
  rw [List.length_append] at hfit
  refine ⟨⟨Nat.le_refl _, ?_⟩, ?_⟩
  · show m.offset + (first.length + 1) ≤ m.offset + m.size
    omega
  show AllInside (w.strcpy m.offset first) (texts.map (.strcat m))
  induction texts generalizing first with
  | nil => exact True.intro
  | cons t texts ih =>
      have ht := htexts t (List.mem_cons_self ..)
      rw [List.flatten_cons, List.length_append] at hfit
      have hcstr : (w.strcpy m.offset first).cstr m.offset = first :=
        Block.cstr_strcpy hfirst (by omega)
      refine ⟨⟨Nat.le_add_right _ _, ?_⟩, ?_⟩
      · show m.offset + ((w.strcpy m.offset first).cstr m.offset).length + (t.length + 1) ≤
          m.offset + m.size
        rw [hcstr]
        omega
      · show AllInside ((w.strcpy m.offset first).strcat m.offset t) (texts.map (.strcat m))
        rw [Block.strcat_strcpy hfirst (by omega)]
        exact ih (by simp [hfirst, ht]) (fun t' ht' => htexts t' (List.mem_cons_of_mem t ht'))
          (by rw [List.length_append]; omega)

end Weather

end WeatherTerminal
