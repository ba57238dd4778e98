import Mathlib.Tactic.Common
/-!
# A computation that follows a reading

A computation with a state and an error is compared with a reading, an
`Option` that knows nothing of the state: where the reading has nothing
the computation stops with the error, and where it has a value the
computation returns one that stands for it. What a value stands for is a
`Lasting` assertion, one that later steps do not take back, so that what
the first of many steps found still holds when the last is done.
-/

namespace WeatherTerminal

universe u

variable {σ : Type u} {later : σ → σ → Prop}

/-- An assertion about a state that no later state takes back. -/
structure Lasting (later : σ → σ → Prop) where
  holds : σ → Prop
  lasts : ∀ {s s' : σ}, later s s' → holds s → holds s'

/-- Both of two assertions, which last where each does. -/
def Lasting.and (P Q : Lasting later) : Lasting later where
  holds s := P.holds s ∧ Q.holds s
  lasts hle h := ⟨P.lasts hle h.1, Q.lasts hle h.2⟩

/-- What follows from an assertion still does when another is added. -/
theorem Lasting.and_left {F P : Lasting later} {p : σ → Prop} (h : ∀ s, F.holds s → p s) :
    ∀ s, (F.and P).holds s → p s :=
  fun s hs => h s hs.1

/-- A fact that is not about the state, and lasts for that reason. -/
def Lasting.pure (later : σ → σ → Prop) (p : Prop) : Lasting later where
  holds _ := p
  lasts _ h := h

/-- An assertion for each member of a family, all of them at once. -/
def Lasting.all {ι : Type u} (P : ι → Lasting later) : Lasting later where
  holds s := ∀ i, (P i).holds s
  lasts hle h i := (P i).lasts hle (h i)

section

variable {ε α β γ δ : Type u} {F : Lasting later} {e : ε} {m : StateT σ (Except ε) α}
  {o : Option β} {R : α → β → Lasting later}

/-- **From a state where `F` holds, `m` follows `o`**: it stops with the error
where that is none, and else returns a value that stands for it. -/
def Follows (F : Lasting later) (m : StateT σ (Except ε) α) (e : ε) (o : Option β)
    (R : α → β → Lasting later) : Prop :=
  ∀ s, F.holds s → match o with
    | none => m s = .error e
    | some b => ∃ a s', m s = .ok (a, s') ∧ later s s' ∧ (R a b).holds s'

/-- **The rule of sequence**: a step follows its reading, and the next step
the next one. -/
theorem Follows.bind {f : α → StateT σ (Except ε) γ} {g : β → Option δ}
    {Q : γ → δ → Lasting later} (htrans : ∀ {r s t : σ}, later r s → later s t → later r t)
    (hm : Follows F m e o R) (hf : ∀ a b, Follows (F.and (R a b)) (f a) e (g b) Q) :
    Follows F (m >>= f) e (o >>= g) Q := by
  intro s hs
  have hfirst := hm s hs
  rcases o with - | b
  · change (m s >>= fun p => f p.1 p.2) = _
    rw [hfirst]
    rfl
  · obtain ⟨a, s', hrun, hle, hR⟩ := hfirst
    have hnext := hf a b s' ⟨F.lasts hle hs, hR⟩
    have hrun' : (m >>= f) s = f a s' := by
      change (m s >>= fun p => f p.1 p.2) = _
      rw [hrun]
      rfl
    rw [hrun', Option.bind_eq_bind, Option.bind_some]
    revert hnext
    rcases g b with - | d
    · exact id
    · intro hnext
      obtain ⟨c, s'', hc, hle', hQ⟩ := hnext
      exact ⟨c, s'', hc, htrans hle hle', hQ⟩

/-- The rule of sequence behind a step that finds a fact. -/
theorem Follows.bind_pure {p : α → β → Prop} {f : α → StateT σ (Except ε) γ} {g : β → Option δ}
    {Q : γ → δ → Lasting later} (htrans : ∀ {r s t : σ}, later r s → later s t → later r t)
    (hm : Follows F m e o fun a b => Lasting.pure later (p a b))
    (hf : ∀ a b, p a b → Follows F (f a) e (g b) Q) :
    Follows F (m >>= f) e (o >>= g) Q := by
  refine hm.bind htrans fun a b s hs => ?_
  exact hf a b hs.2 s hs.1

/-- The rule of the last step, which returns what it has found. -/
theorem Follows.pure {a : α} {b : β} (hrefl : ∀ s : σ, later s s)
    (h : ∀ s, F.holds s → (R a b).holds s) :
    Follows F (Pure.pure a : StateT σ (Except ε) α) e (some b) R :=
  fun s hs => ⟨a, s, rfl, hrefl s, h s hs⟩

/-- A stronger assertion is enough before, and a weaker one behind. -/
theorem Follows.weaken {F' : Lasting later} {Q : α → β → Lasting later}
    (hm : Follows F m e o R) (hF : ∀ s, F'.holds s → F.holds s)
    (hR : ∀ a b s, (R a b).holds s → (Q a b).holds s) : Follows F' m e o Q := by
  intro s hs
  have h := hm s (hF s hs)
  rcases o with - | b
  · exact h
  · obtain ⟨a, s', hrun, hle, hab⟩ := h
    exact ⟨a, s', hrun, hle, hR a b s' hab⟩

end

end WeatherTerminal
