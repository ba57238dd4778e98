import WeatherTerminal.Weather.Refresh
/-!
# Weather — absent values

Which refreshes use something that is not there: an item no lookup has
filled, the null token array, the null record, a null string. Nothing is
checked between the parse and the last `strcat`, so it is all those whose
reply lacks a text, or whose allocations fail behind the buffer's.
-/

namespace WeatherTerminal

namespace Weather

open Jsmn

/-- The run ends in the use of something absent: a null pointer, an unfilled
item or a token that is not there. -/
def usesAbsent {α : Type} : Except Fault α → Bool
  | .error e => e.isAbsentUse
  | .ok _ => false

/-- **`weather_get_test` uses something absent exactly where a reply is
parsed that it cannot read**: without its token array, or without one of
its texts. -/
theorem weatherGetTest_absent_iff (env : Env) (w : WeatherInfo) (g : Globals) :
    usesAbsent (weatherGetTest env w g) = true ↔ env.Parsed ∧ ¬ env.Readable := by
  rcases hrun : weatherGetTest env w g with e | ⟨ret, w', g'⟩
  · rcases env.cases with hnot | hrejected | ⟨harrived, _, hparsed⟩ | hparsed
    · obtain ⟨_, hrun', -⟩ := weatherGetTest_failed (w := w) (g := g) hnot
      cases hrun'.symm.trans hrun
    · obtain ⟨_, hrun', -⟩ := weatherGetTest_rejected (w := w) (g := g) hrejected
      cases hrun'.symm.trans hrun
    · -- reading on past the buffer is no use of something absent
      obtain rfl := Except.error.inj ((weatherGetTest_overread harrived hparsed).symm.trans hrun)
      refine iff_of_false (by decide) fun ⟨⟨_, len, filled, hok, _⟩, _⟩ => ?_
      cases hparsed.symm.trans hok
    · refine iff_of_true ?_ ⟨hparsed, fun ⟨htokens, texts, htexts⟩ => ?_⟩
      · obtain ⟨e', hrun', habsent⟩ := weatherGetTest_unreadable (w := w) (g := g) hparsed
          fun ⟨htokens, texts, htexts⟩ => by
            obtain ⟨_, hrun', -⟩ :=
              weatherGetTest_filled (w := w) (g := g) hparsed.1 htokens htexts
            cases hrun'.symm.trans hrun
        obtain rfl := Except.error.inj (hrun'.symm.trans hrun)
        exact habsent
      · obtain ⟨_, hrun', -⟩ := weatherGetTest_filled (w := w) (g := g) hparsed.1 htokens htexts
        cases hrun'.symm.trans hrun
  · refine iff_of_false (by simp [usesAbsent]) fun ⟨hparsed, hunreadable⟩ => ?_
    obtain ⟨e, hrun', -⟩ := weatherGetTest_unreadable (w := w) (g := g) hparsed hunreadable
    cases hrun'.symm.trans hrun

/-- **A callback uses nothing absent exactly where the record is granted
and a reply that is parsed has its token array and its twenty texts.** -/
theorem timerCallback_absent_iff (tick : Tick) (s : Terminal) :
    usesAbsent (timerCallback tick s) = false ↔
      tick.recordGranted = true ∧ (tick.env.Parsed → tick.env.Readable) := by
  cases hgranted : tick.recordGranted with
  | false =>
      rw [timerCallback_null hgranted]
      exact iff_of_false (by decide) fun h => by cases h.1
  | true =>
      have hcall : usesAbsent (timerCallback tick s) =
          usesAbsent (weatherGetTest tick.env (Block.filled infoSize 0) s.withRecord) := by
        rw [timerCallback_granted hgranted]
        rcases weatherGetTest tick.env (Block.filled infoSize 0) s.withRecord with e | ⟨ret, w, g⟩
        · rfl
        · -- behind the call only the record is freed
          change usesAbsent ((g.heap.free (some s.globals.heap.next)).map _) = false
          rcases hfree : g.heap.free (some s.globals.heap.next) with e | heap
          · rw [Heap.free_error hfree]
            rfl
          · rfl
      rw [hcall, ← Bool.not_eq_true, weatherGetTest_absent_iff, not_and_not_right]
      exact ⟨fun h => ⟨rfl, h⟩, fun h => h.2⟩

/-- A reply of two bytes, an object with no members. -/
def emptyReply : Env where
  bufferGranted := true
  net :=
    { session := true, status := 200,
      response := { framing := .sized, body := [lbrace, rbrace], plan := [.recv 2] } }
  tokensGranted := true
  stray := []

/-- A reply without a byte is enough to end in such a use. -/
theorem usesAbsent_emptyReply :
    usesAbsent (timerCallback ⟨true, emptyReply⟩ ⟨fun _ => [], ⟨0, Heap.empty⟩⟩) = true := by
  decide +kernel

end Weather

end WeatherTerminal
