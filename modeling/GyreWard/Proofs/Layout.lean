/-
Module: GyreWard.Proofs.Layout
Purpose: The cubes of a scene stand apart: the layers of a pyramid, the grid of towers, and the room
  between them.
Trusted boundary: human-reviewed spec (`openBox`, `WellPlaced`)
Main exports: six_squares, layerOf_spec, cell_injective, disjoint_of_clear, towers_apart, mates_apart,
  no_cube_starts_in_another
-/
import Mathlib.Data.Set.Defs
import Mathlib.Algebra.Order.Group.Unbundled.Abs
import Mathlib.Tactic.Linarith
import Mathlib.Tactic.Ring
import GyreWard.Model.Gaffer

namespace GyreWard

open Lib

/-! ### Layers -/

/-- How many cubes a pyramid of `n` layers has. -/
def squares : Nat → Nat
  | 0 => 0
  | n + 1 => squares n + (n + 1) * (n + 1)

theorem six_squares (n : Nat) : 6 * squares n = n * (n + 1) * (2 * n + 1) := by
  induction n with
  | zero => rfl
  | succ n ih =>
      rw [squares, Nat.mul_add, ih]
      ring

theorem perPyramid_eq {pile : Nat} (tall : 1 < pile) : perPyramid pile = squares pile := by
  rw [perPyramid, if_pos tall, ← six_squares]
  exact Nat.mul_div_cancel_left _ (by decide)

/-- A place in a layer that is not empty. -/
structure Layer.Inside (l : Layer) : Prop where
  wide : 1 ≤ l.w
  within : l.k < l.w * l.w

/-- Where the loop over the layers ends: the wider layers are those before, and what is left of the index
is a place in this one. -/
theorem layerOf_spec {w k : Nat} (level : Nat) (one : k < squares w) :
    ∃ l, layerOf w k level = some l ∧ l.Inside ∧ l.level + l.w = level + w ∧
      k + squares l.w = squares w + l.k := by
  induction w generalizing k level with
  | zero => cases one
  | succ w ih =>
      unfold layerOf
      split
      · next more =>
          rw [squares] at one
          obtain ⟨l, found, inside, layers, left⟩ :=
            ih (k := k - (w + 1) * (w + 1)) (level + 1) (by omega)
          refine ⟨l, found, inside, by omega, ?_⟩
          rw [squares]
          omega
      · next here =>
          refine ⟨_, rfl, ⟨Nat.le_add_left _ _, Nat.lt_of_not_le here⟩, rfl, ?_⟩
          exact Nat.add_comm _ _

/-- A place in a layer is a row and a column. -/
theorem cell_injective {l l' : Layer} (layers : l.level + l.w = l'.level + l'.w)
    (same : l.cell = l'.cell) : l = l' := by
  obtain ⟨level, place⟩ := Prod.mk.inj same
  obtain ⟨row, col⟩ := Prod.mk.inj place
  have wide : l.w = l'.w := by omega
  have index : l.k = l'.k := by
    rw [← Nat.div_add_mod l.k l.w, ← Nat.div_add_mod l'.k l'.w, row, col, wide]
  cases l
  cases l'
  cases level
  cases wide
  cases index
  rfl

/-- Different cubes of one pyramid are in different cells. -/
theorem cells_apart {pile k k' : Nat} {l l' : Layer} (one : k < squares pile) (other : k' < squares pile)
    (found : layerOf pile k 0 = some l) (found' : layerOf pile k' 0 = some l') (same : l.cell = l'.cell) :
    k = k' := by
  obtain ⟨_, again, -, layers, left⟩ := layerOf_spec 0 one
  obtain ⟨_, again', -, layers', left'⟩ := layerOf_spec 0 other
  obtain rfl := Option.some.inj (found.symm.trans again)
  obtain rfl := Option.some.inj (found'.symm.trans again')
  obtain rfl := cell_injective (layers.trans layers'.symm) same
  omega

/-! ### The grid -/

theorem gridCell_injective {side t t' : Nat} (same : gridCell side t = gridCell side t') : t = t' := by
  obtain ⟨row, col⟩ := Prod.mk.inj same
  rw [← Nat.div_add_mod t side, ← Nat.div_add_mod t' side, row, col]

/-! ### Boxes -/

/-- The open box of a cube, about its place. -/
def openBox (p : Vec3 Rat) : Set (Vec3 Rat) :=
  { v | |v.x - p.x| < cubeMetres / 2 ∧ |v.y - p.y| < cubeMetres / 2 ∧ |v.z - p.z| < cubeMetres / 2 }

/-- Two places that are as far apart as a cube is wide, along one of the axes. -/
inductive Clear (p q : Vec3 Rat) : Prop where
  | alongX (far : cubeMetres ≤ |p.x - q.x|)
  | alongY (far : cubeMetres ≤ |p.y - q.y|)
  | alongZ (far : cubeMetres ≤ |p.z - q.z|)

/-- What is close to two numbers holds them close together. -/
theorem close_of_between {v a b : Rat} (left : |v - a| < cubeMetres / 2) (right : |v - b| < cubeMetres / 2) :
    |a - b| < cubeMetres := by
  obtain ⟨low, high⟩ := abs_lt.mp left
  obtain ⟨low', high'⟩ := abs_lt.mp right
  apply abs_lt.mpr
  constructor
  · linarith
  · linarith

/-- The boxes of such places have no point in common. -/
theorem disjoint_of_clear {p q : Vec3 Rat} (clear : Clear p q) : ∀ v ∈ openBox p, v ∉ openBox q := by
  rintro v ⟨x, y, z⟩ ⟨x', y', z'⟩
  cases clear with
  | alongX far => exact absurd (close_of_between x x') (not_lt.mpr far)
  | alongY far => exact absurd (close_of_between y y') (not_lt.mpr far)
  | alongZ far => exact absurd (close_of_between z z') (not_lt.mpr far)

/-- Different multiples of a number that is wide enough are far apart. -/
theorem multiples_apart {wide : Rat} (room : cubeMetres ≤ wide) {m n : Nat} (other : m ≠ n) :
    wide ≤ |(m : Rat) * wide - n * wide| := by
  have some : (0 : Rat) ≤ wide := le_trans (by decide +kernel) room
  rw [← sub_mul, abs_mul, abs_of_nonneg some]
  apply le_mul_of_one_le_left some
  rcases Nat.lt_or_gt_of_ne other with less | more
  · have step : (m : Rat) + 1 ≤ n := by exact_mod_cast less
    rw [abs_sub_comm]
    exact le_trans (by linarith) (le_abs_self _)
  · have step : (n : Rat) + 1 ≤ m := by exact_mod_cast more
    exact le_trans (by linarith) (le_abs_self _)

/-! ### Towers -/

/-- How far from its tower's place a cube can be. -/
def slack (pile : Nat) : Rat := if 1 < pile then ((pile : Rat) - 1) / 2 * cubeMetres else 0

/-- Between the places of two towers there is room for both, and a cube's width. -/
theorem pitch_roomy (stack pile : Nat) : cubeMetres + 2 * slack pile ≤ pitch stack pile := by
  unfold pitch slack cubeMetres
  split
  · next tall =>
      have two : (2 : Rat) ≤ pile := by exact_mod_cast tall
      linarith
  · split
    · next high =>
        have two : (2 : Rat) ≤ stack := by exact_mod_cast high
        linarith
    · norm_num

/-- A row or a column of a layer is not far from the middle. -/
theorem place_near {l : Layer} {pile n : Nat} (tall : 1 < pile) (narrow : l.w ≤ pile) (inside : n < l.w) :
    |((n : Rat) - ((l.w : Rat) - 1) * (1 / 2)) * cubeMetres| ≤ slack pile := by
  have first : (0 : Rat) ≤ n := Nat.cast_nonneg n
  have last : (n : Rat) + 1 ≤ l.w := by exact_mod_cast inside
  have most : (l.w : Rat) ≤ pile := by exact_mod_cast narrow
  rw [slack, if_pos tall]
  unfold cubeMetres
  apply abs_le.mpr
  constructor
  · linarith
  · linarith

section Cubes

variable {cubes stack pile i j : Nat}

theorem squares_pos {n : Nat} (some : 0 < n) : 0 < squares n := by
  cases n with
  | zero => cases some
  | succ n => exact Nat.add_pos_right _ (Nat.mul_pos n.succ_pos n.succ_pos)

theorem perGroup_pos (stack pile : Nat) : 0 < perGroup stack pile := by
  unfold perGroup
  split
  · next tall =>
      rw [perPyramid_eq tall]
      exact squares_pos (by omega)
  · split
    · omega
    · exact Nat.one_pos

/-- The loop ends for every cube of a pyramid. -/
theorem layer_of_cube (tall : 1 < pile) (i : Nat) :
    ∃ l, layerOf pile (i % perPyramid pile) 0 = some l ∧ l.Inside ∧ l.level + l.w = pile := by
  have one : i % perPyramid pile < squares pile := by
    rw [perPyramid_eq tall]
    exact Nat.mod_lt _ (squares_pos (by omega))
  obtain ⟨l, found, inside, layers, -⟩ := layerOf_spec 0 one
  exact ⟨l, found, inside, layers.trans (Nat.zero_add _)⟩

/-- The place of the tower a cube belongs to. -/
def towerX (cubes stack pile i : Nat) : Rat :=
  origin (side cubes stack pile) (pitch stack pile)
    (gridCell (side cubes stack pile) (i / perGroup stack pile)).2

def towerY (cubes stack pile i : Nat) : Rat :=
  origin (side cubes stack pile) (pitch stack pile)
    (gridCell (side cubes stack pile) (i / perGroup stack pile)).1

/-- Where a cube of a pyramid is. -/
theorem cubeAt_pile (tall : 1 < pile) {l : Layer} (found : layerOf pile (i % perPyramid pile) 0 = some l) :
    cubeAt cubes stack pile i = some (l.place (towerX cubes stack pile i) (towerY cubes stack pile i)) := by
  have group : perGroup stack pile = perPyramid pile := if_pos tall
  unfold cubeAt
  dsimp only
  rw [if_pos tall, group, found, towerX, towerY, group]
  rfl

/-- Where a cube of a column is. -/
theorem cubeAt_stack (flat : ¬ 1 < pile) (high : 1 < stack) :
    cubeAt cubes stack pile i =
      some { x := towerX cubes stack pile i, y := towerY cubes stack pile i
             z := 3 / 10 + (i % stack : Nat) * (cubeMetres + 1 / 500) } := by
  have group : perGroup stack pile = stack := by
    rw [perGroup, if_neg flat, if_pos high]
  unfold cubeAt
  dsimp only
  rw [if_neg flat, if_pos high, group, towerX, towerY, group]

/-- Where a cube of the field is. -/
theorem cubeAt_field (flat : ¬ 1 < pile) (low : ¬ 1 < stack) :
    cubeAt cubes stack pile i =
      some { x := towerX cubes stack pile i, y := towerY cubes stack pile i, z := 3 / 10 } := by
  unfold cubeAt
  dsimp only
  rw [if_neg flat, if_neg low]
  rfl

/-- Every cube has a place, and it is not far from its tower's. -/
theorem cubeAt_near (cubes stack pile i : Nat) :
    ∃ p, cubeAt cubes stack pile i = some p ∧ |p.x - towerX cubes stack pile i| ≤ slack pile ∧
      |p.y - towerY cubes stack pile i| ≤ slack pile := by
  have still (x : Rat) (flat : ¬ 1 < pile) : |x - x| ≤ slack pile := by
    rw [slack, if_neg flat, sub_self, abs_zero]
  by_cases tall : 1 < pile
  · obtain ⟨l, found, inside, layers⟩ := layer_of_cube tall i
    have narrow : l.w ≤ pile := by omega
    have col : l.k % l.w < l.w := Nat.mod_lt _ inside.wide
    have row : l.k / l.w < l.w := Nat.div_lt_of_lt_mul inside.within
    refine ⟨_, cubeAt_pile tall found, ?_, ?_⟩
    · rw [Layer.place, add_sub_cancel_left]
      exact place_near tall narrow col
    · rw [Layer.place, add_sub_cancel_left]
      exact place_near tall narrow row
  · by_cases high : 1 < stack
    · exact ⟨_, cubeAt_stack tall high, still _ tall, still _ tall⟩
    · exact ⟨_, cubeAt_field tall high, still _ tall, still _ tall⟩

/-- Numbers near to others that are far from each other are far from each other. -/
theorem far_of_near {a b a' b' slack wide : Rat} (left : |a - a'| ≤ slack) (right : |b - b'| ≤ slack)
    (far : wide ≤ |a' - b'|) (room : cubeMetres + 2 * slack ≤ wide) : cubeMetres ≤ |a - b| := by
  obtain ⟨low, high⟩ := abs_le.mp left
  obtain ⟨low', high'⟩ := abs_le.mp right
  rcases le_abs.mp far with behind | before
  · exact le_trans (by linarith) (le_abs_self _)
  · exact le_trans (by linarith) (neg_le_abs _)

/-- Cubes of different towers stand clear of each other. -/
theorem towers_apart (other : i / perGroup stack pile ≠ j / perGroup stack pile) {p q : Vec3 Rat}
    (here : cubeAt cubes stack pile i = some p) (there : cubeAt cubes stack pile j = some q) :
    Clear p q := by
  obtain ⟨_, again, nearX, nearY⟩ := cubeAt_near cubes stack pile i
  obtain rfl := Option.some.inj (here.symm.trans again)
  obtain ⟨_, again', nearX', nearY'⟩ := cubeAt_near cubes stack pile j
  obtain rfl := Option.some.inj (there.symm.trans again')
  have room := pitch_roomy stack pile
  have none : (0 : Rat) ≤ slack pile := le_trans (abs_nonneg _) nearX
  have wide : cubeMetres ≤ pitch stack pile := by linarith
  have spread {m n : Nat} (different : m ≠ n) :
      pitch stack pile ≤ |origin (side cubes stack pile) (pitch stack pile) m -
        origin (side cubes stack pile) (pitch stack pile) n| := by
    rw [origin, origin, sub_sub_sub_cancel_right]
    exact multiples_apart wide different
  by_cases col : (gridCell (side cubes stack pile) (i / perGroup stack pile)).2 =
      (gridCell (side cubes stack pile) (j / perGroup stack pile)).2
  · have row : (gridCell (side cubes stack pile) (i / perGroup stack pile)).1 ≠
        (gridCell (side cubes stack pile) (j / perGroup stack pile)).1 :=
      fun same => other (gridCell_injective (Prod.ext same col))
    exact .alongY (far_of_near nearY nearY' (spread row) room)
  · exact .alongX (far_of_near nearX nearX' (spread col) room)

/-- In different cells of a pyramid cubes stand clear of each other. -/
theorem cells_clear {l l' : Layer} (layers : l.level + l.w = l'.level + l'.w) (other : l.cell ≠ l'.cell)
    (ox oy : Rat) : Clear (l.place ox oy) (l'.place ox oy) := by
  have room := le_refl cubeMetres
  by_cases level : l.level = l'.level
  · have wide : l.w = l'.w := by omega
    have same (m n k o : Rat) : o + (m - k) * cubeMetres - (o + (n - k) * cubeMetres) =
        m * cubeMetres - n * cubeMetres := by ring
    by_cases row : l.k / l.w = l'.k / l'.w
    · have col : l.k % l.w ≠ l'.k % l'.w := by
        intro equal
        apply other
        rw [Layer.cell, Layer.cell, level, row, equal]
      apply Clear.alongX
      rw [Layer.place, Layer.place, wide, same, ← wide]
      exact multiples_apart room (by rw [wide] at col ⊢; exact col)
    · apply Clear.alongY
      rw [Layer.place, Layer.place, wide, same, ← wide]
      exact multiples_apart room (by rw [wide] at row ⊢; exact row)
  · apply Clear.alongZ
    rw [Layer.place, Layer.place, add_sub_add_left_eq_sub]
    exact multiples_apart room level

/-- Different cubes of one tower stand clear of each other. -/
theorem mates_apart (other : i ≠ j) (tower : i / perGroup stack pile = j / perGroup stack pile)
    {p q : Vec3 Rat} (here : cubeAt cubes stack pile i = some p)
    (there : cubeAt cubes stack pile j = some q) : Clear p q := by
  have index : i % perGroup stack pile ≠ j % perGroup stack pile := by
    intro same
    apply other
    rw [← Nat.div_add_mod i (perGroup stack pile), ← Nat.div_add_mod j (perGroup stack pile), tower, same]
  have sameX : towerX cubes stack pile i = towerX cubes stack pile j := by rw [towerX, towerX, tower]
  have sameY : towerY cubes stack pile i = towerY cubes stack pile j := by rw [towerY, towerY, tower]
  by_cases tall : 1 < pile
  · have group : perGroup stack pile = perPyramid pile := if_pos tall
    rw [group, perPyramid_eq tall] at index
    obtain ⟨l, found, -, layers⟩ := layer_of_cube tall i
    obtain ⟨l', found', -, layers'⟩ := layer_of_cube tall j
    have cells : l.cell ≠ l'.cell := by
      rw [perPyramid_eq tall] at found found'
      intro same
      have some := squares_pos (n := pile) (by omega)
      exact index (cells_apart (Nat.mod_lt _ some) (Nat.mod_lt _ some) found found' same)
    obtain rfl := Option.some.inj ((cubeAt_pile tall found).symm.trans here)
    obtain rfl := Option.some.inj ((cubeAt_pile tall found').symm.trans there)
    rw [sameX, sameY]
    exact cells_clear (layers.trans layers'.symm) cells _ _
  · by_cases high : 1 < stack
    · have group : perGroup stack pile = stack := by
        rw [perGroup, if_neg tall, if_pos high]
      rw [group] at index
      obtain rfl := Option.some.inj ((cubeAt_stack tall high).symm.trans here)
      obtain rfl := Option.some.inj ((cubeAt_stack tall high).symm.trans there)
      have room : cubeMetres ≤ cubeMetres + 1 / 500 := by linarith
      apply Clear.alongZ
      rw [add_sub_add_left_eq_sub]
      exact le_trans room (multiples_apart room index)
    · have group : perGroup stack pile = 1 := by
        rw [perGroup, if_neg tall, if_neg high]
      rw [group, Nat.div_one, Nat.div_one] at tower
      exact absurd tower other

/-- Any two cubes stand clear of each other. -/
theorem cubes_clear (other : i ≠ j) {p q : Vec3 Rat} (here : cubeAt cubes stack pile i = some p)
    (there : cubeAt cubes stack pile j = some q) : Clear p q := by
  by_cases tower : i / perGroup stack pile = j / perGroup stack pile
  · exact mates_apart other tower here there
  · exact towers_apart tower here there

/-! ### The square -/

/-- The loop that looks for the side ends where all towers fit. -/
theorem sideFrom_fits (towers side : Nat) : towers ≤ sideFrom towers side * sideFrom towers side := by
  induction side using sideFrom.induct towers with
  | case1 side small ih =>
      rw [sideFrom, if_pos small]
      exact ih
  | case2 side large =>
      rw [sideFrom, if_neg large]
      exact Nat.le_of_not_lt large

theorem tower_of_cube (inside : i < cubes) : i / perGroup stack pile < towers cubes stack pile := by
  have positive := perGroup_pos stack pile
  have below : i / perGroup stack pile < (cubes + perGroup stack pile - 1) / perGroup stack pile := by
    apply Nat.lt_of_lt_of_le (Nat.lt_succ_self _)
    rw [Nat.le_div_iff_mul_le positive, Nat.succ_mul]
    have part := Nat.div_mul_le_self i (perGroup stack pile)
    omega
  unfold towers
  dsimp only
  split
  · omega
  · exact below

/-- Every tower has a row and a column of the square. -/
theorem tower_in_square {t : Nat} (inside : t < towers cubes stack pile) :
    (gridCell (side cubes stack pile) t).1 < side cubes stack pile ∧
      (gridCell (side cubes stack pile) t).2 < side cubes stack pile := by
  have fits : towers cubes stack pile ≤ side cubes stack pile * side cubes stack pile := sideFrom_fits _ _
  have within : t < side cubes stack pile * side cubes stack pile := Nat.lt_of_lt_of_le inside fits
  have some : 0 < side cubes stack pile := by
    rcases Nat.eq_zero_or_pos (side cubes stack pile) with none | some
    · rw [none] at within
      cases within
    · exact some
  exact ⟨Nat.div_lt_of_lt_mul within, Nat.mod_lt _ some⟩

/-! ### Scenes -/

/-- The loop over the layers ends in a layer for every cube of a pyramid, and different cubes of one pyramid
get different cells; every cube has a tower, and different towers get different cells of a square. -/
structure WellPlaced (cubes stack pile : Nat) : Prop where
  ends : 1 < pile → ∀ i < cubes, ∃ l, layerOf pile (i % perPyramid pile) 0 = some l ∧ 1 ≤ l.w
  cells : 1 < pile → ∀ i < cubes, ∀ j < cubes, i ≠ j → i / perPyramid pile = j / perPyramid pile →
    ∀ l l', layerOf pile (i % perPyramid pile) 0 = some l → layerOf pile (j % perPyramid pile) 0 = some l' →
      l.cell ≠ l'.cell
  within : ∀ i < cubes, i / perGroup stack pile < towers cubes stack pile
  square : ∀ t < towers cubes stack pile, (gridCell (side cubes stack pile) t).1 < side cubes stack pile ∧
    (gridCell (side cubes stack pile) t).2 < side cubes stack pile
  grid : ∀ t < towers cubes stack pile, ∀ t' < towers cubes stack pile, t ≠ t' →
    gridCell (side cubes stack pile) t ≠ gridCell (side cubes stack pile) t'

theorem wellPlaced (cubes stack pile : Nat) : WellPlaced cubes stack pile where
  ends tall i _ := by
    obtain ⟨l, found, inside, -⟩ := layer_of_cube tall i
    exact ⟨l, found, inside.wide⟩
  cells tall i _ j _ other tower l l' found found' same := by
    have some := squares_pos (n := pile) (by omega)
    rw [perPyramid_eq tall] at tower found found'
    apply other
    have index := cells_apart (Nat.mod_lt _ some) (Nat.mod_lt _ some) found found' same
    rw [← Nat.div_add_mod i (squares pile), ← Nat.div_add_mod j (squares pile), tower, index]
  within _ inside := tower_of_cube inside
  square _ inside := tower_in_square inside
  grid _ _ _ _ other same := other (gridCell_injective same)

end Cubes

/-- The cubes of every scene have a place each, and no two of them start inside each other. -/
theorem no_cube_starts_in_another (players cubes stack pile iters lsIters : Int) (timestep : Rat)
    (places : List (Option (Vec3 Rat)))
    (made : gafferScene players cubes stack pile iters lsIters timestep = some places) :
    WellPlaced cubes.toNat stack.toNat pile.toNat ∧
      ∃ ps : List (Vec3 Rat), places = ps.map some ∧ ps.length = cubes.toNat ∧
        ps.Pairwise fun p q => ∀ v ∈ openBox p, v ∉ openBox q := by
  refine ⟨wellPlaced _ _ _, ?_⟩
  unfold gafferScene at made
  dsimp only at made
  split at made
  · cases made
  · obtain rfl := Option.some.inj made
    choose place found _ using cubeAt_near cubes.toNat stack.toNat pile.toNat
    refine ⟨(List.range cubes.toNat).map place, ?_, ?_, ?_⟩
    · rw [List.map_map]
      apply List.map_congr_left
      intro i _
      exact found i
    · rw [List.length_map, List.length_range]
    · rw [List.pairwise_map]
      apply List.nodup_range.imp
      intro i j other
      exact disjoint_of_clear (cubes_clear other (found i) (found j))

/-- Thirty cubes in pyramids of three layers. -/
theorem thirty_cubes_stand_apart :
    ∃ places, gafferScene 1 30 0 3 0 0 (1 / 60) = some places ∧ WellPlaced 30 0 3 ∧
      ∃ ps : List (Vec3 Rat), places = ps.map some ∧ ps.length = 30 ∧
        ps.Pairwise fun p q => ∀ v ∈ openBox p, v ∉ openBox q := by
  have made : gafferScene 1 30 0 3 0 0 (1 / 60) = some ((List.range 30).map (cubeAt 30 0 3)) :=
    if_neg (by decide +kernel)
  exact ⟨_, made, no_cube_starts_in_another 1 30 0 3 0 0 (1 / 60) _ made⟩

end GyreWard
