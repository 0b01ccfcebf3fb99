/-
Module: GyreWard.Model.Gaffer
Purpose: Where the benchmark's scene puts its cubes (`bench/scene.c`, `gaffer_scene`): a flat field,
  columns, or pyramids.
Trusted boundary: human-reviewed translation of the source; exact numbers for `double` and unbounded ones
  for `int`; the floor, the avatars and the text itself are left out
Main exports: cubeMetres, perGroup, towers, side, pitch, Layer, layerOf, cubeAt, gafferScene
-/
import Mathlib.Algebra.Order.Ring.Rat
import GyreWard.Lib.Rigid

namespace GyreWard

open Lib

/-- `CUBE_METRES`. -/
def cubeMetres : Rat := 2 / 5

def perPyramid (pile : Nat) : Nat := if 1 < pile then pile * (pile + 1) * (2 * pile + 1) / 6 else 1

def perGroup (stack pile : Nat) : Nat :=
  if 1 < pile then perPyramid pile else if 1 < stack then stack else 1

def towers (cubes stack pile : Nat) : Nat :=
  let towers := (cubes + perGroup stack pile - 1) / perGroup stack pile
  if towers < 1 then 1 else towers

/-- The loop that looks for the side. -/
def sideFrom (towers side : Nat) : Nat :=
  if side * side < towers then sideFrom towers (side + 1) else side
termination_by towers - side
decreasing_by
  have := Nat.le_mul_self side
  omega

def side (cubes stack pile : Nat) : Nat := sideFrom (towers cubes stack pile) 1

def pitch (stack pile : Nat) : Rat :=
  if 1 < pile then (pile + 2) * cubeMetres * (8 / 5)
  else if 1 < stack then stack * cubeMetres * (3 / 4)
  else 3 / 5

/-- What the loop over the layers of a pyramid ends with: the layer, how wide it is, and the place in it. -/
structure Layer where
  level : Nat
  w : Nat
  k : Nat
deriving DecidableEq, Repr

/-- The loop over the layers, as far as there are any: the cubes of a pyramid are used up before its layers are, so
that `w` never gets down to nothing. -/
def layerOf : Nat → Nat → Nat → Option Layer
  | 0, _, _ => none
  | w + 1, k, level =>
      if (w + 1) * (w + 1) ≤ k then layerOf w (k - (w + 1) * (w + 1)) (level + 1)
      else some { level, w := w + 1, k }

/-- Layer, row and column. -/
def Layer.cell (l : Layer) : Nat × Nat × Nat := (l.level, l.k / l.w, l.k % l.w)

/-- The row and the column of a tower in the grid. -/
def gridCell (side t : Nat) : Nat × Nat := (t / side, t % side)

/-- Where a row or a column of towers starts. -/
def origin (side : Nat) (pitch : Rat) (n : Nat) : Rat := n * pitch - side * pitch * (1 / 2)

/-- Where a cube of a pyramid is, beside the tower. -/
def Layer.place (l : Layer) (ox oy : Rat) : Vec3 Rat where
  x := ox + ((l.k % l.w : Nat) - ((l.w : Rat) - 1) * (1 / 2)) * cubeMetres
  y := oy + ((l.k / l.w : Nat) - ((l.w : Rat) - 1) * (1 / 2)) * cubeMetres
  z := 1 / 5 + l.level * cubeMetres

/-- Where a cube is; nothing where it is in no layer. -/
def cubeAt (cubes stack pile i : Nat) : Option (Vec3 Rat) :=
  let t := i / perGroup stack pile
  let ox := origin (side cubes stack pile) (pitch stack pile) (gridCell (side cubes stack pile) t).2
  let oy := origin (side cubes stack pile) (pitch stack pile) (gridCell (side cubes stack pile) t).1
  if 1 < pile then (layerOf pile (i % perGroup stack pile) 0).map fun l => l.place ox oy
  else if 1 < stack then
    some { x := ox, y := oy, z := 3 / 10 + (i % perGroup stack pile : Nat) * (cubeMetres + 1 / 500) }
  else some { x := ox, y := oy, z := 3 / 10 }

/-- `gaffer_scene`: the places of the cubes, and nothing at all for arguments that do not make a scene. -/
def gafferScene (players cubes stack pile iters lsIters : Int) (timestep : Rat) :
    Option (List (Option (Vec3 Rat))) :=
  let entities := cubes + players * 3
  if players < 0 ∨ cubes < 0 ∨ stack < 0 ∨ pile < 0 ∨ iters < 0 ∨ lsIters < 0 ∨ entities < 1 ∨
      timestep ≤ 0 then none
  else
    some ((List.range cubes.toNat).map (cubeAt cubes.toNat stack.toNat pile.toNat))

end GyreWard
