import Mathlib.Data.List.GetD
import Mathlib.Data.List.Induction
import Mathlib.Tactic.Common
/-!
# A window filled row by row

A display memory is written through a window: a pointer starts at the
window's corner, each pixel goes where it stands, and it moves along the
row, to the next row, and from the last cell back to the corner. So the
`k`-th pixel lands in a cell that arithmetic names (`Window.cell`), and a
cell keeps the last pixel that landed in it (`Raster.puts_mem`).
-/

namespace WeatherTerminal

/-- The step past the end of a row goes to the start of the next. -/
theorem succ_div_mod_of_end {a b : ℕ} (h : a % b + 1 = b) :
    (a + 1) / b = a / b + 1 ∧ (a + 1) % b = 0 := by
  refine (Nat.div_mod_unique (by omega)).mpr ⟨?_, by omega⟩
  have hsplit := Nat.div_add_mod a b
  rw [Nat.mul_succ]
  omega

theorem succ_div_mod_of_lt {a b : ℕ} (h : a % b + 1 < b) :
    (a + 1) / b = a / b ∧ (a + 1) % b = a % b + 1 := by
  refine (Nat.div_mod_unique (by omega)).mpr ⟨?_, h⟩
  have hsplit := Nat.div_add_mod a b
  omega

/-- The columns `x₁` to `x₂` and the rows `y₁` to `y₂`, or only the first
where the last is before it. -/
structure Window where
  x₁ : ℕ
  x₂ : ℕ
  y₁ : ℕ
  y₂ : ℕ
deriving DecidableEq, Repr

namespace Window

variable (w : Window)

/-- The columns of a window, both of its borders included. -/
def width : ℕ := w.x₂ - w.x₁ + 1

/-- The rows of a window, both of its borders included. -/
def height : ℕ := w.y₂ - w.y₁ + 1

/-- The cells of a window, which is how many pixels fill it once. -/
def size : ℕ := w.width * w.height

/-- The cell of the `k`-th pixel, row by row and from the start again behind
the last. -/
def cell (k : ℕ) : ℕ × ℕ := (w.x₁ + k % w.width, w.y₁ + k / w.width % w.height)

/-- Where the pointer goes from a cell: along the row, to the next, or back to
the corner. -/
def next (p : ℕ × ℕ) : ℕ × ℕ :=
  if p.1 < w.x₂ then (p.1 + 1, p.2)
  else if p.2 < w.y₂ then (w.x₁, p.2 + 1)
  else (w.x₁, w.y₁)

/-- The cell is in the window, between its borders. -/
def Has (x y : ℕ) : Prop :=
  w.x₁ ≤ x ∧ x < w.x₁ + w.width ∧ w.y₁ ≤ y ∧ y < w.y₁ + w.height

instance (x y : ℕ) : Decidable (w.Has x y) := inferInstanceAs (Decidable (_ ∧ _ ∧ _ ∧ _))

/-- The first pixel that lands in a cell, counted from the corner. -/
def index (x y : ℕ) : ℕ := (y - w.y₁) * w.width + (x - w.x₁)

/-- Of `n` pixels the last that lands where the `i`-th does. -/
def lastVisit (n i : ℕ) : ℕ := i + w.size * ((n - 1 - i) / w.size)

variable {w} {x y : ℕ}

theorem width_pos : 0 < w.width := Nat.succ_pos _

theorem height_pos : 0 < w.height := Nat.succ_pos _

theorem size_pos : 0 < w.size := Nat.mul_pos width_pos height_pos

theorem cell_zero : w.cell 0 = (w.x₁, w.y₁) := by
  unfold cell
  rw [Nat.zero_mod, Nat.zero_div, Nat.zero_mod]
  rfl

theorem has_cell (k : ℕ) : w.Has (w.cell k).1 (w.cell k).2 :=
  ⟨Nat.le_add_right _ _, Nat.add_lt_add_left (Nat.mod_lt _ width_pos) _, Nat.le_add_right _ _,
    Nat.add_lt_add_left (Nat.mod_lt _ height_pos) _⟩

/-- **The pointer names the next cell**, wherever it is in the window. -/
theorem next_cell (k : ℕ) : w.next (w.cell k) = w.cell (k + 1) := by
  have hcol := Nat.mod_lt k (width_pos (w := w))
  have hrow := Nat.mod_lt (k / w.width) (height_pos (w := w))
  -- a row ends where the column does, and the window where the last row does
  by_cases hend : k % w.width + 1 = w.width
  · obtain ⟨hdiv, hmod⟩ := succ_div_mod_of_end hend
    have hright : ¬w.x₁ + k % w.width < w.x₂ := by
      unfold width at hend ⊢
      omega
    unfold next cell
    rw [if_neg hright, hdiv, hmod]
    by_cases hlast : k / w.width % w.height + 1 = w.height
    · obtain ⟨-, hback⟩ := succ_div_mod_of_end hlast
      have hbottom : ¬w.y₁ + k / w.width % w.height < w.y₂ := by
        unfold height at hlast ⊢
        omega
      rw [if_neg hbottom, hback]
      rfl
    · obtain ⟨-, hdown⟩ := succ_div_mod_of_lt (show k / w.width % w.height + 1 < w.height by omega)
      have hbottom : w.y₁ + k / w.width % w.height < w.y₂ := by
        unfold height at hlast hrow ⊢
        omega
      rw [if_pos hbottom, hdown]
      rfl
  · obtain ⟨hdiv, hmod⟩ := succ_div_mod_of_lt (show k % w.width + 1 < w.width by omega)
    have hright : w.x₁ + k % w.width < w.x₂ := by
      unfold width at hend hcol ⊢
      omega
    unfold next cell
    rw [if_pos hright, hdiv, hmod]
    rfl

/-- A cell of the window is reached before it is full. -/
theorem index_lt (h : w.Has x y) : w.index x y < w.size := by
  obtain ⟨-, hx, -, hy⟩ := h
  have hrow : y - w.y₁ + 1 ≤ w.height := by
    have := height_pos (w := w)
    omega
  have hmul := Nat.mul_le_mul_right w.width hrow
  rw [Nat.succ_mul] at hmul
  have hcol : x - w.x₁ < w.width := by
    have := width_pos (w := w)
    omega
  unfold index size
  rw [Nat.mul_comm w.width]
  omega

/-- **A cell of the window is the cell of its index**, and of no other
pixel before the pointer is back at the corner. -/
theorem cell_eq_iff (h : w.Has x y) (k : ℕ) : w.cell k = (x, y) ↔ k % w.size = w.index x y := by
  have hcol : x - w.x₁ < w.width := by
    have := h.2.1
    have := width_pos (w := w)
    omega
  have hrow : y - w.y₁ < w.height := by
    have := h.2.2.2
    have := height_pos (w := w)
    omega
  have hmod : k % w.size % w.width = k % w.width := Nat.mod_mul_right_mod k w.width w.height
  have hdiv : k % w.size / w.width = k / w.width % w.height := Nat.mod_mul_right_div_self k _ _
  have hunique := Nat.div_mod_unique (a := k % w.size) (width_pos (w := w))
    (d := y - w.y₁) (c := x - w.x₁)
  rw [hdiv, hmod] at hunique
  rw [cell, Prod.mk.injEq]
  constructor
  · rintro ⟨hx, hy⟩
    obtain ⟨hk, -⟩ := hunique.mp ⟨by omega, by omega⟩
    rw [index, ← hk, Nat.mul_comm, Nat.add_comm]
  · intro hk
    obtain ⟨hy, hx⟩ := hunique.mpr ⟨by rw [hk, index, Nat.mul_comm, Nat.add_comm], hcol⟩
    exact ⟨by rw [hx, Nat.add_sub_cancel' h.1], by rw [hy, Nat.add_sub_cancel' h.2.2.1]⟩

/-- Before the window is full each cell has been visited once at most. -/
theorem lastVisit_of_le {n i : ℕ} (hn : n ≤ w.size) : w.lastVisit n i = i := by
  rw [lastVisit, Nat.div_eq_of_lt (by have := size_pos (w := w); omega), Nat.mul_zero, Nat.add_zero]

/-- A cell that is reached last has been visited by that pixel. -/
theorem lastVisit_of_ge {n i : ℕ} (hn : n ≤ i + 1) : w.lastVisit n i = i := by
  rw [lastVisit, Nat.sub_eq_zero_of_le (by omega), Nat.zero_div, Nat.mul_zero, Nat.add_zero]

/-- The last visit of a cell is by a pixel that was sent. -/
theorem lastVisit_lt {n i : ℕ} (hi : i < n) : w.lastVisit n i < n := by
  have := Nat.mul_div_le (n - 1 - i) w.size
  unfold lastVisit
  omega

/-- The last of one more pixel is that one, where it lands in the cell. -/
theorem lastVisit_succ {n i : ℕ} (hi : i < w.size) :
    w.lastVisit (n + 1) i = if n % w.size = i then n else w.lastVisit n i := by
  by_cases hin : i ≤ n
  · unfold lastVisit
    rw [Nat.add_sub_cancel]
    have hsplit : n - i = w.size * ((n - i) / w.size) + (n - i) % w.size :=
      (Nat.div_add_mod _ _).symm
    by_cases hmod : n % w.size = i
    · have hzero : (n - i) % w.size = 0 := by
        rw [← hmod]
        exact Nat.sub_mod_eq_zero_of_mod_eq (Nat.mod_mod n w.size).symm
      rw [if_pos hmod]
      omega
    · have hpos : (n - i) % w.size ≠ 0 := by
        intro hzero
        refine hmod ?_
        have hn : n = i + w.size * ((n - i) / w.size) := by omega
        rw [hn, Nat.add_mul_mod_self_left, Nat.mod_eq_of_lt hi]
      have hne : n - i ≠ 0 := by
        intro hzero
        rw [hzero, Nat.zero_mod] at hpos
        exact hpos rfl
      have hpred : n - i = n - 1 - i + 1 := by omega
      rw [if_neg hmod, hpred, Nat.succ_div_of_mod_ne_zero (by rw [← hpred]; exact hpos)]
  · have hmod : n % w.size = n := Nat.mod_eq_of_lt (by omega)
    rw [if_neg (by omega), lastVisit_of_ge (by omega), lastVisit_of_ge (by omega)]

end Window

/-- A memory of cells, the window it is written through, and the pointer. -/
structure Raster (α : Type) where
  window : Window
  ptr : ℕ × ℕ
  mem : ℕ → ℕ → α

namespace Raster

variable {α : Type} {r : Raster α}

/-- The pointer goes to the window's corner, and the memory stays as it is. -/
def corner (r : Raster α) : Raster α := { r with ptr := (r.window.x₁, r.window.y₁) }

/-- A pixel, which is put where the pointer is and moves it on. -/
def put (r : Raster α) (p : α) : Raster α where
  window := r.window
  ptr := r.window.next r.ptr
  mem x y := if (x, y) = r.ptr then p else r.mem x y

/-- Pixels put one after the other. -/
def puts (r : Raster α) (ps : List α) : Raster α := ps.foldl put r

theorem puts_append (ps qs : List α) : r.puts (ps ++ qs) = (r.puts ps).puts qs := List.foldl_append

@[simp] theorem puts_window (ps : List α) : (r.puts ps).window = r.window := by
  induction ps generalizing r with
  | nil => rfl
  | cons p ps ih => exact ih

/-- The pointer goes on by as many cells as there are pixels. -/
theorem puts_ptr {k : ℕ} (hptr : r.ptr = r.window.cell k) (ps : List α) :
    (r.puts ps).ptr = r.window.cell (k + ps.length) := by
  induction ps generalizing r k with
  | nil => exact hptr
  | cons p ps ih =>
      have hnext : (r.put p).ptr = r.window.cell (k + 1) := by
        show r.window.next r.ptr = _
        rw [hptr, Window.next_cell]
      have := ih (r := r.put p) hnext
      rwa [List.length_cons, Nat.add_comm ps.length, ← Nat.add_assoc]

/-- **A cell holds the last pixel that landed in it.** -/
theorem puts_mem (hptr : r.ptr = r.window.cell 0) (ps : List α) (x y : ℕ) :
    (r.puts ps).mem x y =
      if r.window.Has x y then
        ps.getD (r.window.lastVisit ps.length (r.window.index x y)) (r.mem x y)
      else r.mem x y := by
  induction ps using List.reverseRecOn with
  | nil => simp [puts]
  | append_singleton ps p ih =>
      have hlast : (r.puts ps).ptr = r.window.cell ps.length := by
        rw [puts_ptr hptr, Nat.zero_add]
      rw [puts_append]
      show (if (x, y) = (r.puts ps).ptr then p else (r.puts ps).mem x y) = _
      rw [hlast, ih]
      by_cases hhas : r.window.Has x y
      · have hi := Window.index_lt hhas
        have hiff : (x, y) = r.window.cell ps.length ↔
            ps.length % r.window.size = r.window.index x y :=
          eq_comm.trans (Window.cell_eq_iff hhas ps.length)
        rw [if_pos hhas, if_pos hhas, List.length_append, List.length_singleton,
          Window.lastVisit_succ hi]
        -- the new pixel falls on this cell, or the cell keeps its last visit
        by_cases hmod : ps.length % r.window.size = r.window.index x y
        · rw [if_pos (hiff.mpr hmod), if_pos hmod, List.getD_append_right _ _ _ _ (Nat.le_refl _),
            Nat.sub_self]
          rfl
        · rw [if_neg (mt hiff.mp hmod), if_neg hmod]
          rcases Nat.lt_or_ge (r.window.index x y) ps.length with hlt | hge
          · rw [List.getD_append _ _ _ _ (Window.lastVisit_lt hlt)]
          · have hne : ps.length ≠ r.window.index x y := by
              intro heq
              rw [heq, Nat.mod_eq_of_lt hi] at hmod
              exact hmod rfl
            rw [Window.lastVisit_of_ge (by omega), List.getD_eq_default _ _ hge,
              List.getD_eq_default _ _ (by rw [List.length_append, List.length_singleton]; omega)]
      · have hne : (x, y) ≠ r.window.cell ps.length := by
          intro heq
          have := Window.has_cell (w := r.window) ps.length
          rw [← heq] at this
          exact hhas this
        rw [if_neg hne, if_neg hhas, if_neg hhas]

/-- One pixel over and over, in the first cells of the window or in all of
them. -/
theorem puts_replicate_mem (hptr : r.ptr = r.window.cell 0) (n : ℕ) (p : α) (x y : ℕ) :
    (r.puts (List.replicate n p)).mem x y =
      if r.window.Has x y ∧ r.window.index x y < n then p else r.mem x y := by
  rw [puts_mem hptr, List.length_replicate]
  by_cases hhas : r.window.Has x y
  · rw [if_pos hhas]
    by_cases hlt : r.window.index x y < n
    · rw [if_pos ⟨hhas, hlt⟩, List.getD_replicate _ (Window.lastVisit_lt hlt)]
    · rw [if_neg fun h => hlt h.2, Window.lastVisit_of_ge (by omega),
        List.getD_eq_default _ _ (by rw [List.length_replicate]; omega)]
  · rw [if_neg hhas, if_neg fun h => hhas h.1]

/-- Pixels that fill the window once at most: each cell has the one that lands
in it. -/
theorem puts_mem_of_le (hptr : r.ptr = r.window.cell 0) {ps : List α}
    (hps : ps.length ≤ r.window.size) (x y : ℕ) :
    (r.puts ps).mem x y =
      if r.window.Has x y then ps.getD (r.window.index x y) (r.mem x y) else r.mem x y := by
  rw [puts_mem hptr, Window.lastVisit_of_le hps]

end Raster

end WeatherTerminal
