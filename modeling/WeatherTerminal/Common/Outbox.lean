import Mathlib.Data.List.Basic
/-!
# An outbox

Messages that are sent until they are acknowledged. What waits is what the
events so far leave: a message waits from when it is accepted until an
acknowledgement with its identifier, and what is sent again, all of it or a
part, is of what waits then (`Sound`). So a message waits exactly where it
was accepted and not acknowledged since (`mem_run`), and what is sent again
was (`accepted_of_resend`, `accepted_of_cut`).
-/

namespace WeatherTerminal

namespace Outbox

/-- What happens to an outbox: a message is accepted under an identifier,
the identifier is acknowledged, or something is sent again under it, a
whole message or what a failing network lets out of one. -/
inductive Event (ι μ : Type*)
  | accept (i : ι) (m : μ)
  | ack (i : ι)
  | resend (i : ι) (m : μ)
  | cut (i : ι) (part : μ)

variable {ι μ : Type*} [DecidableEq ι]

/-- What waits behind an event: one message more, or those without its
identifier, or the same. -/
def step (waiting : List (ι × μ)) : Event ι μ → List (ι × μ)
  | .accept i m => waiting ++ [(i, m)]
  | .ack i => waiting.filter fun x => decide (x.1 ≠ i)
  | .resend _ _ => waiting
  | .cut _ _ => waiting

/-- What waits behind a run of events, one after the other. -/
def run (waiting : List (ι × μ)) (es : List (Event ι μ)) : List (ι × μ) := es.foldl step waiting

/-- An event may come while these wait: only what waits is sent again, and
what is cut short is a part of it, `Part part m` saying so. -/
def Allowed (Part : μ → μ → Prop) (w : List (ι × μ)) : Event ι μ → Prop
  | .accept _ _ => True
  | .ack _ => True
  | .resend i m => (i, m) ∈ w
  | .cut i part => ∃ m, (i, m) ∈ w ∧ Part part m

/-- A run whose events may all come when they do. -/
inductive Sound (Part : μ → μ → Prop) : List (ι × μ) → List (Event ι μ) → Prop
  | nil (w : List (ι × μ)) : Sound Part w []
  | cons {w : List (ι × μ)} {e : Event ι μ} {es : List (Event ι μ)}
      (hallowed : Allowed Part w e) (h : Sound Part (step w e) es) : Sound Part w (e :: es)

variable {Part : μ → μ → Prop} {w : List (ι × μ)} {e : Event ι μ} {es fs : List (Event ι μ)}
variable {i : ι} {m part : μ}

/-- A run in two parts is the second behind the first. -/
theorem run_append (w : List (ι × μ)) (es fs : List (Event ι μ)) :
    run w (es ++ fs) = run (run w es) fs := List.foldl_append

theorem Sound.append (h : Sound Part w es) (h' : Sound Part (run w es) fs) :
    Sound Part w (es ++ fs) := by
  induction h with
  | nil => exact h'
  | cons hallowed _ ih => exact .cons hallowed (ih h')

/-- A message that waits stays until it is acknowledged, by induction over the
events. -/
theorem mem_run_of_mem (h : (i, m) ∈ w) (hack : ∀ e ∈ es, e ≠ .ack i) : (i, m) ∈ run w es := by
  induction es generalizing w with
  | nil => exact h
  | cons e es ih =>
      refine ih ?_ fun f hf => hack f (List.mem_cons_of_mem e hf)
      cases e with
      | accept j n => exact List.mem_append_left _ h
      | ack j =>
          refine List.mem_filter.mpr ⟨h, decide_eq_true fun hij => ?_⟩
          exact hack (.ack j) List.mem_cons_self (by rw [← hij])
      | resend j n => exact h
      | cut j n => exact h

/-- **A message waits exactly where it was accepted and not acknowledged
since**, or waited before and was not. -/
theorem mem_run :
    (i, m) ∈ run w es ↔
      ((i, m) ∈ w ∧ ∀ e ∈ es, e ≠ .ack i) ∨
        ∃ pre post, es = pre ++ .accept i m :: post ∧ ∀ e ∈ post, e ≠ .ack i := by
  constructor
  · intro h
    induction es generalizing w with
    | nil => exact Or.inl ⟨h, nofun⟩
    | cons e es ih =>
        rcases ih h with ⟨hmem, hack⟩ | ⟨pre, post, rfl, hack⟩
        · cases e with
          | accept j n =>
              rcases List.mem_append.mp hmem with hw | hnew
              · exact Or.inl ⟨hw, List.forall_mem_cons.mpr ⟨nofun, hack⟩⟩
              · obtain ⟨rfl, rfl⟩ := Prod.mk.inj (List.mem_singleton.mp hnew)
                exact Or.inr ⟨[], es, rfl, hack⟩
          | ack j =>
              obtain ⟨hw, hne⟩ := List.mem_filter.mp hmem
              refine Or.inl ⟨hw, List.forall_mem_cons.mpr ⟨fun hj => ?_, hack⟩⟩
              injection hj with hji
              exact of_decide_eq_true hne hji.symm
          | resend j n => exact Or.inl ⟨hmem, List.forall_mem_cons.mpr ⟨nofun, hack⟩⟩
          | cut j n => exact Or.inl ⟨hmem, List.forall_mem_cons.mpr ⟨nofun, hack⟩⟩
        · exact Or.inr ⟨e :: pre, post, rfl, hack⟩
  · rintro (⟨hw, hack⟩ | ⟨pre, post, rfl, hack⟩)
    · exact mem_run_of_mem hw hack
    · rw [run_append]
      have haccepted : (i, m) ∈ step (run w pre) (.accept i m) :=
        List.mem_append_right _ List.mem_cons_self
      have hwaits : (i, m) ∈ run (step (run w pre) (.accept i m)) post :=
        mem_run_of_mem haccepted hack
      exact hwaits

/-- What comes in a run may come behind what was before it. -/
theorem Sound.allowed {pre post : List (Event ι μ)} (h : Sound Part w (pre ++ e :: post)) :
    Allowed Part (run w pre) e := by
  induction pre generalizing w with
  | nil =>
      cases h with
      | cons hallowed _ => exact hallowed
  | cons f pre ih =>
      cases h with
      | cons _ h => exact ih h

/-- What waits behind a run from nothing was accepted in it. -/
theorem accepted_of_mem_run (h : (i, m) ∈ run [] es) :
    ∃ before since, es = before ++ .accept i m :: since ∧ ∀ e ∈ since, e ≠ .ack i := by
  rcases mem_run.mp h with ⟨hnil, -⟩ | haccepted
  · exact absurd hnil List.not_mem_nil
  · exact haccepted

/-- **What is sent again was accepted, and not acknowledged since.** -/
theorem Sound.accepted_of_resend {pre post : List (Event ι μ)}
    (h : Sound Part [] (pre ++ .resend i m :: post)) :
    ∃ before since, pre = before ++ .accept i m :: since ∧ ∀ e ∈ since, e ≠ .ack i :=
  accepted_of_mem_run h.allowed

/-- **What is cut short is a part of what was accepted**, and not
acknowledged since. -/
theorem Sound.accepted_of_cut {pre post : List (Event ι μ)}
    (h : Sound Part [] (pre ++ .cut i part :: post)) :
    ∃ m before since, Part part m ∧ pre = before ++ .accept i m :: since ∧
      ∀ e ∈ since, e ≠ .ack i := by
  obtain ⟨m, hmem, hpart⟩ := h.allowed
  obtain ⟨before, since, hpre, hack⟩ := accepted_of_mem_run hmem
  exact ⟨m, before, since, hpart, hpre, hack⟩

end Outbox

end WeatherTerminal
