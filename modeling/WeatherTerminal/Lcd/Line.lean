import Mathlib.Data.List.Dedup
import Mathlib.Data.List.Range
import Mathlib.Tactic.LinearCombination
import WeatherTerminal.Common.Accumulator
import WeatherTerminal.Lcd.Flush
import WeatherTerminal.Lcd.Model.Line
/-!
# The points of a line

Along each axis the stepping loop is an accumulator of the axis's
difference over the longer one. So the loop ends behind as many rounds as
the longer difference and two, the first point comes twice, and every
later round moves one along the longer axis.
-/

namespace WeatherTerminal

namespace Lcd

open Accumulator

/-! ## An axis -/

/-- The coordinate behind `t` rounds of a line from `first` to `last`. -/
def along (first last : ℤ) (D t : ℕ) : ℤ :=
  first + (direction (last - first)).1 * steps (last - first).natAbs D t

theorem direction_snd (delta : ℤ) : (direction delta).2 = delta.natAbs := by
  unfold direction
  split
  · show delta = _
    omega
  · split
    · show delta = _
      omega
    · show -delta = _
      omega

/-- The direction of a difference times its size is the difference. -/
theorem direction_mul (delta : ℤ) : (direction delta).1 * delta.natAbs = delta := by
  unfold direction
  split
  · show 1 * _ = _
    omega
  · split
    · show 0 * _ = _
      omega
    · show -1 * _ = _
      omega

variable {first last : ℤ} {D t : ℕ}

/-- Before the first round a coordinate is the first one. -/
theorem along_zero : along first last D 0 = first := by
  unfold along
  rw [steps_zero]
  omega

/-- **A round on one axis** is a round of the accumulator. -/
theorem advance_along (hd : (last - first).natAbs ≤ D) :
    advance (direction (last - first)).1 (direction (last - first)).2 D
        (err (last - first).natAbs D t) (along first last D t) =
      ((err (last - first).natAbs D (t + 1) : ℤ), along first last D (t + 1)) := by
  obtain ⟨hover, hunder⟩ := round (t := t) hd
  unfold advance
  rw [direction_snd]
  by_cases hlt : D < err (last - first).natAbs D t + (last - first).natAbs
  · obtain ⟨hsteps, herr⟩ := hover hlt
    refine (if_pos (by omega)).trans (Prod.ext ?_ ?_)
    · show (_ : ℤ) = _
      omega
    · unfold along
      rw [hsteps, Int.natCast_succ, Int.mul_add, Int.mul_one, Int.add_assoc]
  · obtain ⟨hsteps, herr⟩ := hunder (by omega)
    refine (if_neg (by omega)).trans (Prod.ext ?_ ?_)
    · show (_ : ℤ) = _
      omega
    · unfold along
      rw [hsteps]

/-! ## A line -/

/-- One step toward `last`, or none, and never past it. -/
def Toward (last p q : ℤ) : Prop := q = p ∨ q = p + 1 ∧ q ≤ last ∨ q = p - 1 ∧ last ≤ q

/-- Between two coordinates, in either order, both of them included. -/
def Between (a b v : ℤ) : Prop := min a b ≤ v ∧ v ≤ max a b

theorem along_one (hd : (last - first).natAbs ≤ D) : along first last D 1 = first := by
  unfold along
  rw [steps_one hd]
  omega

theorem along_last (hd : (last - first).natAbs ≤ D) : along first last D (D + 1) = last := by
  unfold along
  rw [steps_last hd, direction_mul]
  omega

/-- The direction is that of the difference, or none where there is none. -/
theorem direction_fst (delta : ℤ) :
    delta < 0 ∧ (direction delta).1 = -1 ∨ delta = 0 ∧ (direction delta).1 = 0 ∨
      0 < delta ∧ (direction delta).1 = 1 := by
  unfold direction
  split
  · exact Or.inr (Or.inr ⟨by omega, rfl⟩)
  · split
    · exact Or.inr (Or.inl ⟨by omega, rfl⟩)
    · exact Or.inl ⟨by omega, rfl⟩

/-- Every round goes one step toward the last coordinate, or none. -/
theorem along_toward (hd : (last - first).natAbs ≤ D) (ht : t ≤ D) :
    Toward last (along first last D t) (along first last D (t + 1)) := by
  obtain ⟨hle, hsucc⟩ := steps_le_succ (t := t) hd
  have hmax := steps_le (t := t + 1) hd (by omega)
  unfold Toward along
  rcases direction_fst (last - first) with ⟨hdelta, hinc⟩ | ⟨hdelta, hinc⟩ | ⟨hdelta, hinc⟩ <;>
    rw [hinc] <;> omega

/-- A coordinate stays between the first and the last one. -/
theorem along_between (hd : (last - first).natAbs ≤ D) (ht : t ≤ D + 1) :
    Between first last (along first last D t) := by
  have hmax := steps_le (t := t) hd ht
  unfold Between along
  rcases direction_fst (last - first) with ⟨hdelta, hinc⟩ | ⟨hdelta, hinc⟩ | ⟨hdelta, hinc⟩ <;>
    rw [hinc] <;> omega

/-- The longer axis moves every round but the first, by one each. -/
theorem along_longer (hD : (last - first).natAbs = D) (ht : t ≤ D) :
    along first last D (t + 1) = first + (direction (last - first)).1 * t := by
  unfold along
  rcases Nat.eq_zero_or_pos D with hzero | hpos
  · obtain rfl : t = 0 := by omega
    rw [steps_one (Nat.le_of_eq hD)]
  · rw [hD, steps_longer hpos]

/-- Each of its coordinates comes once, in one round of all. -/
theorem along_longer_inj {u : ℕ} (hD : (last - first).natAbs = D) (ht : t ≤ D) (hu : u ≤ D)
    (heq : along first last D (t + 1) = along first last D (u + 1)) : t = u := by
  rw [along_longer hD ht, along_longer hD hu] at heq
  rcases direction_fst (last - first) with ⟨hdelta, hinc⟩ | ⟨hdelta, hinc⟩ | ⟨hdelta, hinc⟩ <;>
    rw [hinc] at heq <;> omega

theorem along_longer_surj {v : ℤ} (hD : (last - first).natAbs = D) (hv : Between first last v) :
    ∃ t ≤ D, along first last D (t + 1) = v := by
  obtain ⟨hmin, hmax⟩ := hv
  refine ⟨(v - first).natAbs, by omega, ?_⟩
  rw [along_longer hD (by omega)]
  rcases direction_fst (last - first) with ⟨hdelta, hinc⟩ | ⟨hdelta, hinc⟩ | ⟨hdelta, hinc⟩ <;>
    rw [hinc] <;> omega

/-- **The shorter axis keeps within one of the segment**, measured along
itself. -/
theorem along_near {first' last' : ℤ} (hD : (last' - first').natAbs = D)
    (hd : (last - first).natAbs ≤ D) (ht : t ≤ D) :
    ((along first last D (t + 1) - first) * (last' - first') -
      (along first' last' D (t + 1) - first') * (last - first)).natAbs ≤ D := by
  obtain ⟨hupper, hlower⟩ := steps_slope (t := t) hd
  have hinc : ∀ delta : ℤ, (direction delta).1.natAbs ≤ 1 := by
    intro delta
    rcases direction_fst delta with ⟨-, h⟩ | ⟨-, h⟩ | ⟨-, h⟩ <;> rw [h] <;> decide
  have hproduct : (along first last D (t + 1) - first) * (last' - first') -
      (along first' last' D (t + 1) - first') * (last - first) =
      (direction (last - first)).1 * (direction (last' - first')).1 *
        ((D * steps (last - first).natAbs D (t + 1) : ℕ) - (t * (last - first).natAbs : ℕ)) := by
    have hshort := direction_mul (last - first)
    have hlong := direction_mul (last' - first')
    rw [hD] at hlong
    rw [along_longer hD ht, along, Int.natCast_mul, Int.natCast_mul]
    linear_combination
      -((direction (last - first)).1 * (steps (last - first).natAbs D (t + 1) : ℤ)) * hlong +
        (direction (last' - first')).1 * (t : ℤ) * hshort
  have hone := Nat.mul_le_mul (hinc (last - first)) (hinc (last' - first'))
  rw [hproduct, Int.natAbs_mul, Int.natAbs_mul]
  refine Nat.le_trans (Nat.mul_le_mul_right _ hone) ?_
  omega

/-! ## The loop -/

/-- The longer difference, which is the number of steps. -/
def distance (x1 y1 x2 y2 : UInt16) : ℕ :=
  max ((x2.toNat : ℤ) - x1.toNat).natAbs ((y2.toNat : ℤ) - y1.toNat).natAbs

theorem distance_eq (x1 y1 x2 y2 : UInt16) :
    (if (direction ((x2.toNat : ℤ) - x1.toNat)).2 > (direction ((y2.toNat : ℤ) - y1.toNat)).2 then
        (direction ((x2.toNat : ℤ) - x1.toNat)).2
      else (direction ((y2.toNat : ℤ) - y1.toNat)).2) = (distance x1 y1 x2 y2 : ℤ) := by
  rw [direction_snd, direction_snd]
  unfold distance
  split <;> omega

/-- No more columns are between the ends than that. -/
theorem columns_le_distance (x1 y1 x2 y2 : UInt16) :
    ((x2.toNat : ℤ) - x1.toNat).natAbs ≤ distance x1 y1 x2 y2 := Nat.le_max_left _ _

theorem rows_le_distance (x1 y1 x2 y2 : UInt16) :
    ((y2.toNat : ℤ) - y1.toNat).natAbs ≤ distance x1 y1 x2 y2 := Nat.le_max_right _ _

/-- The point of a round, from the rounds that have gone before. -/
def pointAt (x1 y1 x2 y2 : UInt16) (t : ℕ) : ℤ × ℤ :=
  (along x1.toNat x2.toNat (distance x1 y1 x2 y2) t,
    along y1.toNat y2.toNat (distance x1 y1 x2 y2) t)

/-- The variables behind `k` rounds, by what has been added to them. -/
def traced (x1 y1 x2 y2 : UInt16) (k : ℕ) : Tracing where
  points := (List.range k).map (pointAt x1 y1 x2 y2)
  t := UInt16.ofNat k
  uRow := along x1.toNat x2.toNat (distance x1 y1 x2 y2) k
  uCol := along y1.toNat y2.toNat (distance x1 y1 x2 y2) k
  xerr := err ((x2.toNat : ℤ) - x1.toNat).natAbs (distance x1 y1 x2 y2) k
  yerr := err ((y2.toNat : ℤ) - y1.toNat).natAbs (distance x1 y1 x2 y2) k

/-- Before the first round they are as they are initialised. -/
theorem traced_zero (x1 y1 x2 y2 : UInt16) :
    traced x1 y1 x2 y2 0 = ⟨[], 0, x1.toNat, y1.toNat, 0, 0⟩ := by
  unfold traced
  rw [along_zero, along_zero, err_zero, err_zero]
  rfl

/-- A round goes from each to the next, the counter wrapping as it does. -/
theorem traceRound_traced (x1 y1 x2 y2 : UInt16) (k : ℕ) :
    traceRound (direction ((x2.toNat : ℤ) - x1.toNat)).1 (direction ((y2.toNat : ℤ) - y1.toNat)).1
      (direction ((x2.toNat : ℤ) - x1.toNat)).2 (direction ((y2.toNat : ℤ) - y1.toNat)).2
      (distance x1 y1 x2 y2) (traced x1 y1 x2 y2 k) = traced x1 y1 x2 y2 (k + 1) := by
  have hX := advance_along (t := k) (columns_le_distance x1 y1 x2 y2)
  have hY := advance_along (t := k) (rows_le_distance x1 y1 x2 y2)
  show Tracing.mk _ _ (advance _ _ _ _ _).2 (advance _ _ _ _ _).2 (advance _ _ _ _ _).1
    (advance _ _ _ _ _).1 = _
  unfold traced
  simp only [hX, hY, uint16_ofNat_succ, List.range_succ, List.map_append]
  rfl

/-- The points of a line, in order, the first of them twice. -/
def points (x1 y1 x2 y2 : UInt16) : List (ℤ × ℤ) :=
  (List.range (distance x1 y1 x2 y2 + 2)).map (pointAt x1 y1 x2 y2)

/-- **The loop ends**, with a point for each round, where its counter can hold
the number of rounds. -/
theorem linePoints_eq {fuel : ℕ} {x1 y1 x2 y2 : UInt16}
    (hcounter : distance x1 y1 x2 y2 + 2 < 2 ^ 16) (hfuel : distance x1 y1 x2 y2 + 2 < fuel) :
    linePoints fuel x1 y1 x2 y2 = some (points x1 y1 x2 y2) := by
  have ht : ∀ k ≤ distance x1 y1 x2 y2 + 2, (UInt16.ofNat k).toNat = k := fun k hk =>
    (UInt16.toNat_ofNat').trans (Nat.mod_eq_of_lt (by omega))
  unfold linePoints
  simp only [distance_eq]
  rw [← traced_zero, loop_eq_some _ _ (traced x1 y1 x2 y2) hfuel ?_ ?_]
  · rfl
  · intro k hk
    refine ⟨decide_eq_true ?_, congrArg some (traceRound_traced x1 y1 x2 y2 k)⟩
    show ((UInt16.ofNat k).toNat : ℤ) ≤ _
    rw [ht k (by omega)]
    omega
  · refine decide_eq_false fun hle => ?_
    change ((UInt16.ofNat (distance x1 y1 x2 y2 + 2)).toNat : ℤ) ≤ _ at hle
    rw [ht _ (Nat.le_refl _)] at hle
    omega

/-- A round of `LCD_DrawLine` draws the point it is at. -/
theorem drawLineFrom_traced (color : UInt16) (x1 y1 x2 y2 : UInt16) (n k : ℕ) :
    drawLineFrom color (direction ((x2.toNat : ℤ) - x1.toNat)).2
        (direction ((y2.toNat : ℤ) - y1.toNat)).2 (direction ((x2.toNat : ℤ) - x1.toNat)).1
        (direction ((y2.toNat : ℤ) - y1.toNat)).1 (distance x1 y1 x2 y2) n
        (traced x1 y1 x2 y2 k).uRow (traced x1 y1 x2 y2 k).uCol (traced x1 y1 x2 y2 k).xerr
        (traced x1 y1 x2 y2 k).yerr =
      ((List.range' k n).map (pointAt x1 y1 x2 y2)).flatMap
        fun p => lcdFastDrawPoint color p.1 p.2 := by
  induction n generalizing k with
  | zero => rfl
  | succ n ih =>
      have hround := traceRound_traced x1 y1 x2 y2 k
      rw [List.range'_succ, List.map_cons, List.flatMap_cons, ← ih (k + 1), ← hround]
      rfl

/-- **`LCD_DrawLine` draws the points of the line**, one behind the other. -/
theorem lcdDrawLine_eq (color x1 y1 x2 y2 : UInt16) :
    lcdDrawLine color x1 y1 x2 y2 =
      (points x1 y1 x2 y2).flatMap fun p => lcdFastDrawPoint color p.1 p.2 := by
  have hrounds : ((distance x1 y1 x2 y2 : ℤ) + 2).toNat = distance x1 y1 x2 y2 + 2 := by omega
  rw [points, List.range_eq_range', ← drawLineFrom_traced, traced_zero]
  unfold lcdDrawLine
  simp only [distance_eq, hrounds]

/-! ## What a line is -/

variable {x1 y1 x2 y2 : UInt16}

/-- The first round stays where the line starts. -/
theorem pointAt_one : pointAt x1 y1 x2 y2 1 = pointAt x1 y1 x2 y2 0 := by
  unfold pointAt
  rw [along_one (columns_le_distance x1 y1 x2 y2), along_one (rows_le_distance x1 y1 x2 y2),
    along_zero, along_zero]

/-- So the points are those of the other rounds, with the first one once more.
-/
theorem points_eq_cons :
    points x1 y1 x2 y2 = pointAt x1 y1 x2 y2 1 ::
      (List.range (distance x1 y1 x2 y2 + 1)).map fun t => pointAt x1 y1 x2 y2 (t + 1) := by
  rw [points, List.range_succ_eq_map, List.map_cons, List.map_map, pointAt_one]
  rfl

/-- A point of the line is the one of a round behind the first. -/
theorem mem_points {p : ℤ × ℤ} :
    p ∈ points x1 y1 x2 y2 ↔ ∃ t ≤ distance x1 y1 x2 y2, pointAt x1 y1 x2 y2 (t + 1) = p := by
  rw [points_eq_cons, List.mem_cons, List.mem_map]
  constructor
  · rintro (rfl | ⟨t, ht, rfl⟩)
    · exact ⟨0, Nat.zero_le _, rfl⟩
    · exact ⟨t, by have := List.mem_range.mp ht; omega, rfl⟩
  · rintro ⟨t, ht, rfl⟩
    exact Or.inr ⟨t, List.mem_range.mpr (by omega), rfl⟩

/-- One of the axes is the longer one, the columns or the rows. -/
theorem longer (x1 y1 x2 y2 : UInt16) :
    ((x2.toNat : ℤ) - x1.toNat).natAbs = distance x1 y1 x2 y2 ∨
      ((y2.toNat : ℤ) - y1.toNat).natAbs = distance x1 y1 x2 y2 := by
  unfold distance
  omega

/-- Different rounds but the first make different points, being apart on the
longer axis. -/
theorem pointAt_inj {t u : ℕ} (ht : t ≤ distance x1 y1 x2 y2) (hu : u ≤ distance x1 y1 x2 y2)
    (heq : pointAt x1 y1 x2 y2 (t + 1) = pointAt x1 y1 x2 y2 (u + 1)) : t = u := by
  obtain ⟨hcol, hrow⟩ := Prod.mk.inj heq
  rcases longer x1 y1 x2 y2 with hlong | hlong
  · exact along_longer_inj hlong ht hu hcol
  · exact along_longer_inj hlong ht hu hrow

/-- The points go from one end to the other, by at most one along each axis
and only toward the end, within the ends' box; along the longer axis every
coordinate comes with one point, along the other the point is at most one
from the segment. -/
structure IsLine (x1 y1 x2 y2 : UInt16) (ps : List (ℤ × ℤ)) : Prop where
  starts : ps.head? = some ((x1.toNat : ℤ), (y1.toNat : ℤ))
  ends : ps.getLast? = some ((x2.toNat : ℤ), (y2.toNat : ℤ))
  connected : ps.IsChain fun p q => Toward x2.toNat p.1 q.1 ∧ Toward y2.toNat p.2 q.2
  bounded : ∀ p ∈ ps, Between x1.toNat x2.toNat p.1 ∧ Between y1.toNat y2.toNat p.2
  count : ps.dedup.length = distance x1 y1 x2 y2 + 1
  columns : ((x2.toNat : ℤ) - x1.toNat).natAbs = distance x1 y1 x2 y2 →
    ∀ v, Between x1.toNat x2.toNat v → ∃ p ∈ ps, p.1 = v ∧ ∀ q ∈ ps, q.1 = v → q = p
  rows : ((y2.toNat : ℤ) - y1.toNat).natAbs = distance x1 y1 x2 y2 →
    ∀ v, Between y1.toNat y2.toNat v → ∃ p ∈ ps, p.2 = v ∧ ∀ q ∈ ps, q.2 = v → q = p
  nearColumns : ((x2.toNat : ℤ) - x1.toNat).natAbs = distance x1 y1 x2 y2 →
    ∀ p ∈ ps, ((p.2 - y1.toNat) * ((x2.toNat : ℤ) - x1.toNat) -
      (p.1 - x1.toNat) * ((y2.toNat : ℤ) - y1.toNat)).natAbs ≤ distance x1 y1 x2 y2
  nearRows : ((y2.toNat : ℤ) - y1.toNat).natAbs = distance x1 y1 x2 y2 →
    ∀ p ∈ ps, ((p.1 - x1.toNat) * ((y2.toNat : ℤ) - y1.toNat) -
      (p.2 - y1.toNat) * ((x2.toNat : ℤ) - x1.toNat)).natAbs ≤ distance x1 y1 x2 y2

/-- **The points of the loop are a line**: from end to end, without a gap, and
near the segment. -/
theorem isLine_points (x1 y1 x2 y2 : UInt16) : IsLine x1 y1 x2 y2 (points x1 y1 x2 y2) where
  starts := by
    rw [points_eq_cons, List.head?_cons, pointAt, along_one (columns_le_distance x1 y1 x2 y2),
      along_one (rows_le_distance x1 y1 x2 y2)]
  ends := by
    rw [points, List.range_succ, List.map_append, List.map_singleton, List.getLast?_concat, pointAt,
      along_last (columns_le_distance x1 y1 x2 y2), along_last (rows_le_distance x1 y1 x2 y2)]
  connected := by
    refine (List.isChain_map _).mpr ((List.isChain_range_succ _ _).mpr fun t ht => ⟨?_, ?_⟩)
    · exact along_toward (columns_le_distance x1 y1 x2 y2) (by omega)
    · exact along_toward (rows_le_distance x1 y1 x2 y2) (by omega)
  bounded := by
    intro p hp
    obtain ⟨t, ht, rfl⟩ := mem_points.mp hp
    exact ⟨along_between (columns_le_distance x1 y1 x2 y2) (by omega),
      along_between (rows_le_distance x1 y1 x2 y2) (by omega)⟩
  count := by
    -- only the first point is drawn twice
    have hnodup : ((List.range (distance x1 y1 x2 y2 + 1)).map
        fun t => pointAt x1 y1 x2 y2 (t + 1)).Nodup := by
      refine List.Nodup.map_on (fun t ht u hu heq => ?_) List.nodup_range
      have := List.mem_range.mp ht
      have := List.mem_range.mp hu
      exact pointAt_inj (by omega) (by omega) heq
    rw [points_eq_cons, List.dedup_cons_of_mem, hnodup.dedup, List.length_map, List.length_range]
    exact List.mem_map.mpr ⟨0, List.mem_range.mpr (by omega), rfl⟩
  columns := by
    intro hlong v hv
    obtain ⟨t, ht, rfl⟩ := along_longer_surj hlong hv
    refine ⟨_, mem_points.mpr ⟨t, ht, rfl⟩, rfl, fun q hq heq => ?_⟩
    obtain ⟨u, hu, rfl⟩ := mem_points.mp hq
    rw [along_longer_inj hlong hu ht heq]
  rows := by
    intro hlong v hv
    obtain ⟨t, ht, rfl⟩ := along_longer_surj hlong hv
    refine ⟨_, mem_points.mpr ⟨t, ht, rfl⟩, rfl, fun q hq heq => ?_⟩
    obtain ⟨u, hu, rfl⟩ := mem_points.mp hq
    rw [along_longer_inj hlong hu ht heq]
  nearColumns := by
    intro hlong p hp
    obtain ⟨t, ht, rfl⟩ := mem_points.mp hp
    exact along_near hlong (rows_le_distance x1 y1 x2 y2) ht
  nearRows := by
    intro hlong p hp
    obtain ⟨t, ht, rfl⟩ := mem_points.mp hp
    exact along_near hlong (columns_le_distance x1 y1 x2 y2) ht

/-- **`LCD_DrawLine` ends, and what it draws is a line**, for coordinates
the counter has room for. -/
theorem lcdDrawLine_isLine (x1 y1 x2 y2 : UInt16) (hx1 : x1 ≤ 65533) (hy1 : y1 ≤ 65533)
    (hx2 : x2 ≤ 65533) (hy2 : y2 ≤ 65533) (color : UInt16) (fuel : ℕ) (hfuel : 2 ^ 16 ≤ fuel) :
    ∃ ps, linePoints fuel x1 y1 x2 y2 = some ps ∧
      lcdDrawLine color x1 y1 x2 y2 = (ps.flatMap fun p => lcdFastDrawPoint color p.1 p.2) ∧
      IsLine x1 y1 x2 y2 ps := by
  have hdistance : distance x1 y1 x2 y2 ≤ 65533 := by
    have hle : ∀ v : UInt16, v ≤ 65533 → v.toNat ≤ 65533 := fun v => UInt16.le_iff_toNat_le.mp
    have := hle x1 hx1
    have := hle y1 hy1
    have := hle x2 hx2
    have := hle y2 hy2
    unfold distance
    omega
  exact ⟨_, linePoints_eq (by omega) (by omega), lcdDrawLine_eq color x1 y1 x2 y2,
    isLine_points x1 y1 x2 y2⟩

/-- A line up to the left, which is one as well. -/
theorem lcdDrawLine_isLine_upward :
    ∃ ps, linePoints (2 ^ 16) 9 5 3 2 = some ps ∧
      lcdDrawLine red 9 5 3 2 = (ps.flatMap fun p => lcdFastDrawPoint red p.1 p.2) ∧
      IsLine 9 5 3 2 ps :=
  lcdDrawLine_isLine 9 5 3 2 (by decide) (by decide) (by decide) (by decide) red (2 ^ 16)
    (Nat.le_refl _)

end Lcd

end WeatherTerminal
