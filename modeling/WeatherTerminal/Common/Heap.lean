import WeatherTerminal.Common.Fault
import Mathlib.Data.List.Nodup
import Mathlib.Tactic.Common
/-!
# The heap, as a ledger

What the results on leaks need of a heap: which blocks have been handed
out and which have come back. Blocks are numbered in the order they are
handed out, so no two have a number in common; a block that comes back
must have been handed out and must not have come back before.
-/

namespace WeatherTerminal

/-- A heap, by the blocks it has handed out and those that came back. -/
structure Heap where
  /-- The number of blocks handed out. -/
  next : ℕ
  /-- The blocks that came back, the last one first. -/
  freed : List ℕ
  freed_lt : ∀ p ∈ freed, p < next
  freed_nodup : freed.Nodup

namespace Heap

/-- A heap nothing has been taken from, and nothing brought back to. -/
def empty : Heap where
  next := 0
  freed := []
  freed_lt := by simp
  freed_nodup := List.nodup_nil

/-- `p` has been handed out and not come back, so it may be used. -/
def Live (h : Heap) (p : ℕ) : Prop := p < h.next ∧ p ∉ h.freed

instance (h : Heap) (p : ℕ) : Decidable (h.Live p) := inferInstanceAs (Decidable (_ ∧ _))

/-- `malloc`: another block than any before, or null where it is not granted.
-/
def malloc (h : Heap) : Bool → Option ℕ × Heap
  | false => (none, h)
  | true => (some h.next,
      { next := h.next + 1
        freed := h.freed
        freed_lt := fun p hp => Nat.lt_succ_of_lt (h.freed_lt p hp)
        freed_nodup := h.freed_nodup })

/-- `free`: null is not freed, and a block that is not live is a fault. -/
def free (h : Heap) : Option ℕ → Except Fault Heap
  | none => .ok h
  | some p =>
      if hlive : h.Live p then
        .ok { next := h.next
              freed := p :: h.freed
              freed_lt := by
                intro q hq
                rcases List.mem_cons.mp hq with rfl | hq
                · exact hlive.1
                · exact h.freed_lt q hq
              freed_nodup := List.nodup_cons.mpr ⟨hlive.2, h.freed_nodup⟩ }
      else .error .badFree

/-- A call from `h` to `h'` frees no block that is not its own. -/
structure Keeps (h h' : Heap) : Prop where
  next_le : h.next ≤ h'.next
  others : ∀ p, p < h.next → (p ∈ h'.freed ↔ p ∈ h.freed)

/-- **It is balanced**: every block it obtained has come back once, and no
other has. -/
structure Balanced (h h' : Heap) : Prop extends Keeps h h' where
  obtained : ∀ p, h.next ≤ p → p < h'.next → h'.freed.count p = 1

variable {h h' h'' : Heap} {p : ℕ}

theorem malloc_live (h : Heap) : (h.malloc true).2.Live h.next := by
  refine ⟨Nat.lt_succ_self _, fun hmem => ?_⟩
  exact Nat.lt_irrefl _ (h.freed_lt h.next hmem)

theorem malloc_live_of_live (hp : h.Live p) : (h.malloc true).2.Live p :=
  ⟨Nat.lt_succ_of_lt hp.1, hp.2⟩

/-- A live block can be freed, and is the last that came back. -/
theorem free_ok (hp : h.Live p) :
    ∃ h', h.free (some p) = .ok h' ∧ h'.next = h.next ∧ h'.freed = p :: h.freed := by
  rw [free, dif_pos hp]
  exact ⟨_, rfl, rfl, rfl⟩

/-- The only fault of `free` is a block that is not live. -/
theorem free_error {q : Option ℕ} {e : Fault} (herr : h.free q = .error e) : e = .badFree := by
  cases q with
  | none => cases herr
  | some p =>
      rw [free] at herr
      split at herr
      · cases herr
      · exact (Except.error.inj herr).symm

theorem Keeps.refl (h : Heap) : Keeps h h := ⟨Nat.le_refl _, fun _ _ => Iff.rfl⟩

/-- What is kept by one call and by the next is kept by both. -/
theorem Keeps.trans (h₁ : Keeps h h') (h₂ : Keeps h' h'') : Keeps h h'' := by
  have hnext := h₁.next_le
  refine ⟨Nat.le_trans hnext h₂.next_le, fun p hlt => ?_⟩
  exact (h₂.others p (by omega)).trans (h₁.others p hlt)

/-- A block that is live stays live behind a call that keeps it. -/
theorem Keeps.live (hk : Keeps h h') (hp : h.Live p) : h'.Live p := by
  have hnext := hk.next_le
  obtain ⟨hlt, hmem⟩ := hp
  exact ⟨by omega, fun hfreed => hmem ((hk.others p hlt).mp hfreed)⟩

theorem Balanced.refl (h : Heap) : Balanced h h :=
  ⟨Keeps.refl h, fun _ h1 h2 => absurd h2 (Nat.not_lt.mpr h1)⟩

/-- **No block is live behind a balanced call that was not before it.** -/
theorem Balanced.live_iff (hb : Balanced h h') : h'.Live p ↔ h.Live p := by
  refine ⟨fun ⟨hlt, hmem⟩ => ?_, hb.toKeeps.live⟩
  have hold : p < h.next := by
    by_contra hge
    have hcount := hb.obtained p (Nat.not_lt.mp hge) hlt
    rw [List.count_eq_zero_of_not_mem hmem] at hcount
    omega
  exact ⟨hold, fun hp => hmem ((hb.others p hold).mpr hp)⟩

theorem Balanced.trans (h₁ : Balanced h h') (h₂ : Balanced h' h'') : Balanced h h'' := by
  refine ⟨h₁.toKeeps.trans h₂.toKeeps, fun p hge hlt => ?_⟩
  rcases Nat.lt_or_ge p h'.next with hold | hnew
  · refine List.count_eq_one_of_mem h''.freed_nodup ((h₂.others p hold).mpr ?_)
    exact List.count_pos_iff.mp (by rw [h₁.obtained p hge hold]; exact Nat.one_pos)
  · exact h₂.obtained p hnew hlt

/-- **A block obtained that is still live unbalances a run.** -/
theorem not_balanced_of_live (hge : h.next ≤ p) (hp : h'.Live p) : ¬ Balanced h h' := by
  intro hb
  have hcount := hb.obtained p hge hp.1
  rw [List.count_eq_zero_of_not_mem hp.2] at hcount
  omega

/-- A call that returns all it obtained is balanced, in whatever order it
does. -/
theorem balanced_of_freed {ps : List ℕ} (hnext : h.next ≤ h'.next)
    (hfreed : h'.freed = ps ++ h.freed)
    (hps : ∀ p, p ∈ ps ↔ h.next ≤ p ∧ p < h'.next) : Balanced h h' := by
  refine ⟨⟨hnext, fun p hlt => ?_⟩, fun p hge hlt => ?_⟩
  · rw [hfreed, List.mem_append, hps p]
    refine ⟨fun h => h.resolve_left ?_, Or.inr⟩
    omega
  · refine List.count_eq_one_of_mem h'.freed_nodup ?_
    rw [hfreed]
    exact List.mem_append_left _ ((hps p).mpr ⟨hge, hlt⟩)

/-! ## One block and two -/

/-- A block that is obtained and freed leaves the heap balanced. -/
theorem exists_free_malloc (h : Heap) :
    ∃ h', (h.malloc true).2.free (some h.next) = .ok h' ∧ Balanced h h' := by
  obtain ⟨h', hfree, hnext, hfreed⟩ := free_ok (malloc_live h)
  have hps : h'.freed = [h.next] ++ h.freed := hfreed
  refine ⟨h', hfree, balanced_of_freed (by rw [hnext]; exact Nat.le_succ _) hps fun p => ?_⟩
  rw [hnext, List.mem_singleton]
  simp only [malloc]
  omega

/-- Two blocks, the second one freed first, do as well. -/
theorem exists_free_malloc_malloc (h : Heap) :
    ∃ h₁ h', ((h.malloc true).2.malloc true).2.free (some (h.next + 1)) = .ok h₁ ∧
      h₁.free (some h.next) = .ok h' ∧ Balanced h h' := by
  obtain ⟨h₁, hfree₁, hnext₁, hfreed₁⟩ := free_ok (malloc_live (h.malloc true).2)
  have hlive : h₁.Live h.next := by
    obtain ⟨hlt, hmem⟩ := malloc_live_of_live (malloc_live h)
    refine ⟨hnext₁ ▸ hlt, ?_⟩
    rw [hfreed₁, List.mem_cons]
    exact not_or.mpr ⟨Nat.ne_of_lt (Nat.lt_succ_self _), hmem⟩
  obtain ⟨h', hfree, hnext, hfreed⟩ := free_ok hlive
  have hnext' : h'.next = h.next + 1 + 1 := hnext.trans hnext₁
  refine ⟨h₁, h', hfree₁, hfree, ?_⟩
  have hps : h'.freed = [h.next, h.next + 1] ++ h.freed := by
    rw [hfreed, hfreed₁]
    rfl
  refine balanced_of_freed (by omega) hps fun p => ?_
  rw [hnext', List.mem_cons, List.mem_singleton]
  omega

/-- A call that obtains blocks and frees none leaves one live. -/
theorem leaks_of_freed (hnext : h.next < h'.next) (hfreed : h'.freed = h.freed) :
    Keeps h h' ∧ h'.Live h.next := by
  refine ⟨⟨Nat.le_of_lt hnext, fun p _ => by rw [hfreed]⟩, hnext, ?_⟩
  rw [hfreed]
  exact fun hmem => Nat.lt_irrefl _ (h.freed_lt _ hmem)

end Heap

end WeatherTerminal
