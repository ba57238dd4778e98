import WeatherTerminal.Mqtt.Recv
import WeatherTerminal.Weather.Refresh
/-!
# The heap over a run

`weather_get_test` and `mqtt_recv_handle` in any order. Each takes a block
for the text it parses and one for the tokens, and each gives both back on
every way out but one: where nothing was parsed it returns at once.
-/

namespace WeatherTerminal

open Jsmn

/-- A call of one of the two functions, with what it meets. -/
inductive Call
  | weatherGetTest (env : Weather.Env) (winfo : WeatherTerminal.Weather.WeatherInfo)
  | mqttRecvHandle (m : Mqtt.Message)

/-- What the calls share and what they change: the bytes read last, the LEDs
and the heap. -/
structure Device where
  bytesRead : ℤ
  leds : Mqtt.Leds
  heap : Heap

/-- One call over the device, which returns or runs into a fault of the code.
-/
def Call.run : Call → Device → Except Fault Device
  | .weatherGetTest env winfo, s =>
      (Weather.weatherGetTest env winfo ⟨s.bytesRead, s.heap⟩).map fun (_, _, g) =>
        { s with bytesRead := g.bytesRead, heap := g.heap }
  | .mqttRecvHandle m, s =>
      (Mqtt.mqttRecvHandle m s.leds s.heap).map fun (leds, heap) =>
        { s with leds := leds, heap := heap }

/-- Calls one after the other, up to the first that runs into a fault. -/
def runCalls (calls : List Call) (s : Device) : Except Fault Device :=
  calls.foldlM (fun s call => call.run s) s

/-- **The way out that gives nothing back**: the text was obtained, and
`jsmn_parse` returned no token or an error. -/
def Call.Rejects : Call → Prop
  | .weatherGetTest env _ => env.Rejected
  | .mqttRecvHandle m => m.copyGranted = true ∧ m.Rejected

variable {call : Call} {calls : List Call} {s s' : Device}

theorem runCalls_cons {s₁ : Device} (h : call.run s = .ok s₁) :
    runCalls (call :: calls) s = runCalls calls s₁ := by
  change (call.run s >>= fun s => runCalls calls s) = _
  rw [h]
  rfl

/-- A message that is handled changes the LEDs and the heap of the device. -/
theorem run_mqttRecvHandle {m : Mqtt.Message} {leds : Mqtt.Leds} {heap : Heap}
    (h : Mqtt.mqttRecvHandle m s.leds s.heap = .ok (leds, heap)) :
    (Call.mqttRecvHandle m).run s = .ok { s with leds := leds, heap := heap } := by
  rw [Call.run, h]
  rfl

/-- **A call that returns has freed what it obtained, once, unless it
rejects its text.** -/
theorem Call.balanced (h : ¬ call.Rejects) (hrun : call.run s = .ok s') :
    s.heap.Balanced s'.heap := by
  rcases call with ⟨env, winfo⟩ | m
  · obtain ⟨⟨ret, w, g⟩, hget, rfl⟩ := exists_of_map_eq_ok hrun
    rcases Weather.weatherGetTest_ok hget with ⟨-, -, -, hbal⟩ | ⟨hrejected, -⟩ |
      ⟨-, -, _, -, -, -, hbal⟩
    · exact hbal
    · exact absurd hrejected h
    · exact hbal
  · obtain ⟨⟨leds, heap⟩, hrecv, rfl⟩ := exists_of_map_eq_ok hrun
    exact Mqtt.mqttRecvHandle_balanced (fun hcopy hrejected => h ⟨hcopy, hrejected⟩) hrecv

/-- A call that rejects its text returns, and one of its blocks is live. -/
theorem Call.leaks (h : call.Rejects) (s : Device) :
    ∃ s', call.run s = .ok s' ∧ s.heap.Keeps s'.heap ∧ s'.heap.Live s.heap.next := by
  rcases call with ⟨env, winfo⟩ | m
  · obtain ⟨g, hrun, hnext, hfreed⟩ :=
      Weather.weatherGetTest_rejected (w := winfo) (g := ⟨s.bytesRead, s.heap⟩) h
    exact ⟨_, by rw [Call.run, hrun]; rfl, Heap.leaks_of_freed hnext hfreed⟩
  · obtain ⟨heap, hrun, hnext, hfreed⟩ := Mqtt.mqttRecvHandle_rejected h.1 h.2 s.leds s.heap
    exact ⟨_, by rw [Call.run, hrun]; rfl, Heap.leaks_of_freed hnext hfreed⟩

/-- A call frees no block but its own, so what was in use before it still is.
-/
theorem Call.keeps (hrun : call.run s = .ok s') : s.heap.Keeps s'.heap := by
  by_cases h : call.Rejects
  · obtain ⟨s₁, hrun₁, hkeeps, -⟩ := Call.leaks h s
    obtain rfl := Except.ok.inj (hrun₁.symm.trans hrun)
    exact hkeeps
  · exact (Call.balanced h hrun).toKeeps

theorem runCalls_keeps (hrun : runCalls calls s = .ok s') : s.heap.Keeps s'.heap := by
  induction calls generalizing s with
  | nil =>
      obtain rfl := Except.ok.inj hrun
      exact Heap.Keeps.refl _
  | cons call calls ih =>
      obtain ⟨s₁, hfirst, hrest⟩ := exists_of_bind_eq_ok hrun
      exact (Call.keeps hfirst).trans (ih hrest)

/-- **A run that returns is balanced exactly where none of its calls
rejects its text.** A block that was leaked is never freed by a later
call. -/
theorem runCalls_balanced_iff (hrun : runCalls calls s = .ok s') :
    s.heap.Balanced s'.heap ↔ ∀ call ∈ calls, ¬ Call.Rejects call := by
  induction calls generalizing s with
  | nil =>
      obtain rfl := Except.ok.inj hrun
      exact iff_of_true (Heap.Balanced.refl _) (by simp)
  | cons call calls ih =>
      obtain ⟨s₁, hfirst, hrest⟩ := exists_of_bind_eq_ok hrun
      by_cases h : call.Rejects
      · refine iff_of_false ?_ fun hall => hall call (List.mem_cons_self ..) h
        obtain ⟨s₂, hrun₂, -, hlive⟩ := Call.leaks h s
        obtain rfl := Except.ok.inj (hrun₂.symm.trans hfirst)
        exact Heap.not_balanced_of_live (Nat.le_refl _) ((runCalls_keeps hrest).live hlive)
      · have hbal := Call.balanced h hfirst
        rw [List.forall_mem_cons, ← ih hrest]
        refine ⟨fun hall => ⟨h, runCalls_keeps hrest, fun p hge hlt => ?_⟩,
          fun hall => hbal.trans hall.2⟩
        exact hall.obtained p (Nat.le_trans hbal.next_le hge) hlt

/-- **The heap is balanced exactly where no call rejects its text**, call
by call, whatever the calls meet, and over every run that returns; so no
block of theirs is live between two calls of such a run. -/
theorem calls_balanced (call : Call) (calls : List Call) (s : Device) :
    ((∀ s', Call.run call s = .ok s' → s.heap.Balanced s'.heap) ↔ ¬ call.Rejects) ∧
    ∀ s', runCalls calls s = .ok s' →
      ((s.heap.Balanced s'.heap ↔ ∀ call ∈ calls, ¬ Call.Rejects call) ∧
        ((∀ call ∈ calls, ¬ Call.Rejects call) → ∀ p, s'.heap.Live p ↔ s.heap.Live p)) := by
  refine ⟨⟨fun h hrejects => ?_, fun h s' hrun => call.balanced h hrun⟩, fun s' hrun => ?_⟩
  · obtain ⟨s', hrun, -, hlive⟩ := Call.leaks hrejects s
    exact Heap.not_balanced_of_live (Nat.le_refl _) hlive (h s' hrun)
  · have hiff := runCalls_balanced_iff hrun
    exact ⟨hiff, fun h p => (hiff.mpr h).live_iff⟩

/-! ## Two runs -/

/-- A message with no text, which takes two blocks and gives none back. -/
def emptyMessage : Mqtt.Message where
  payload := []
  copyGranted := true
  tokensGranted := true

/-- A message without a payload leaves a block behind. -/
theorem not_balanced_emptyMessage :
    ¬ ∀ s', (Call.mqttRecvHandle emptyMessage).run ⟨0, ⟨.low, .low⟩, Heap.empty⟩ = .ok s' →
      Heap.empty.Balanced s'.heap := by
  intro h
  have hrejected : emptyMessage.Rejected := by
    intro count tokens hparse
    have hnil : jsmnParse emptyMessage.text emptyMessage.text.length
        (if emptyMessage.tokensGranted then some numTokens else none) = .ok (0, []) := rfl
    exact (Prod.mk.inj (Except.ok.inj (hparse.symm.trans hnil))).1
  have hrejects : (Call.mqttRecvHandle emptyMessage).Rejects := ⟨rfl, hrejected⟩
  obtain ⟨s', hrun, -, hlive⟩ := Call.leaks hrejects ⟨0, ⟨.low, .low⟩, Heap.empty⟩
  exact Heap.not_balanced_of_live (Nat.le_refl _) hlive (h s' hrun)

theorem bothLeds_not_rejects : ¬ (Call.mqttRecvHandle Mqtt.bothLeds).Rejects := by
  rintro ⟨-, h⟩
  have hany : (jsmnParse Mqtt.bothLeds.text Mqtt.bothLeds.text.length
      (if Mqtt.bothLeds.tokensGranted then some numTokens else none)).toOption.any
      (fun r => r.1 ≠ 0) = true := by decide +kernel
  obtain ⟨⟨count, tokens⟩, hparse, hne⟩ := (Option.any_eq_true _ _).mp hany
  exact of_decide_eq_true hne (h count tokens (toOption_eq_some.mp hparse))

/-- Two messages that name both LEDs leave the heap as it was. -/
theorem calls_balanced_bothLeds : ∃ s',
    runCalls [.mqttRecvHandle Mqtt.bothLeds, .mqttRecvHandle Mqtt.bothLeds]
      ⟨0, ⟨.low, .low⟩, Heap.empty⟩ = .ok s' ∧ Heap.empty.Balanced s'.heap := by
  obtain ⟨h₁, hrun₁⟩ := Mqtt.mqttRecvHandle_obeyed Mqtt.bothLeds_obeyed ⟨.low, .low⟩ Heap.empty
  obtain ⟨h₂, hrun₂⟩ := Mqtt.mqttRecvHandle_obeyed Mqtt.bothLeds_obeyed
    (Mqtt.ledRule Mqtt.bothLeds.payload ⟨.low, .low⟩) h₁
  have hfirst : (Call.mqttRecvHandle Mqtt.bothLeds).run ⟨0, ⟨.low, .low⟩, Heap.empty⟩ = .ok _ :=
    run_mqttRecvHandle hrun₁
  have hrun : runCalls [.mqttRecvHandle Mqtt.bothLeds, .mqttRecvHandle Mqtt.bothLeds]
      ⟨0, ⟨.low, .low⟩, Heap.empty⟩ = .ok _ :=
    (runCalls_cons hfirst).trans (runCalls_cons (run_mqttRecvHandle hrun₂))
  refine ⟨_, hrun, (((calls_balanced (.mqttRecvHandle Mqtt.bothLeds) _ _).2 _ hrun).1).mpr
    fun call hcall => ?_⟩
  obtain rfl : call = .mqttRecvHandle Mqtt.bothLeds := by simpa using hcall
  exact bothLeds_not_rejects

end WeatherTerminal
