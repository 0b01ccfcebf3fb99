/-
Module: GyreWard.Model.Freeze
Purpose: Freeze on settle (`bench/freeze.c`): which bodies a tick collects, and how it makes them
  part of the world.
Trusted boundary: human-reviewed translation of the source; MuJoCo's arrays as the tick finds them,
  its numbers and poses as parameters
Main exports: MjModel, MjData, MjSpec, isFreezable, ripeBodies, promote, weftFreezeTick
-/
import Mathlib.Algebra.Group.Defs
import GyreWard.Model.Wire

namespace GyreWard

/-! ### What MuJoCo hands over

The arrays of `mjModel` and `mjData` are functions of their index.  `V` is `mjtNum`, as far as
speeds are compared; `S` is what a tick copies of a geom but for its pose (type, size, friction,
colour, `condim`, `contype`, `conaffinity`); `P` is a position with an orientation, and a product of
poses composes them.
-/

/-- `mjtJoint`. -/
inductive JointType where
  | free
  | ball
  | slide
  | hinge
deriving DecidableEq, Repr

/-- A geom of a compiled model, its pose relative to its body. -/
structure Geom (S P : Type) where
  look : S
  pose : P

/-- The part of `mjModel` that a tick reads. -/
structure MjModel (S P : Type) where
  nbody : Nat
  bodyName : Nat → Text
  bodyJntnum : Nat → Nat
  bodyJntadr : Nat → Nat
  jntType : Nat → JointType
  bodyDofnum : Nat → Nat
  bodyDofadr : Nat → Nat
  bodyGeomnum : Nat → Nat
  bodyGeomadr : Nat → Nat
  geom : Nat → Geom S P

/-- The part of `mjData` that a tick reads: `body_speed`, the constraint islands of the dofs, and
`xpos` with `xquat`. -/
structure MjData (V P : Type) where
  bodySpeed : Nat → V
  dofIsland : Option (Nat → Int)
  xpose : Nat → P

/-- `weft_freeze_cfg`. -/
structure FreezeCfg (V : Type) where
  stillSpeed : V
  stillTicks : Nat
  maxPerTick : Nat

/-- `weft_freeze_t`. -/
structure Freeze where
  stillFor : Nat → Nat
  nbody : Nat
  frozenTotal : Int
  recompiles : Int

section Collection

variable {V S P : Type} [LT V] [DecidableLT V]

/-- `is_freezable`. -/
def isFreezable (m : MjModel S P) (b : Nat) (keepPrefix : Option Text) : Bool :=
  if m.bodyJntnum b ≠ 1 then false
  else if m.jntType (m.bodyJntadr b) ≠ .free then false
  else
    match keepPrefix with
    | some kept => kept.isEmpty || !kept.isPrefixOf (m.bodyName b)
    | none => true

/-- The bodies of a model but for the world, in the order the loops go. -/
def MjModel.bodies (m : MjModel S P) : List Nat := List.range' 1 (m.nbody - 1)

/-- How long each body has been still, after this tick. -/
def countStill (f : Freeze) (m : MjModel S P) (d : MjData V P) (cfg : FreezeCfg V)
    (keepPrefix : Option Text) (b : Nat) : Nat :=
  if b ∈ m.bodies then
    if !isFreezable m b keepPrefix then 0
    else if d.bodySpeed b < cfg.stillSpeed then f.stillFor b + 1
    else 0
  else f.stillFor b

/-- The island of a body's first dof, and `-1` for a body that touches nothing. -/
def islandOf (m : MjModel S P) (d : MjData V P) (b : Nat) : Int :=
  match d.dofIsland with
  | some island => if 0 < m.bodyDofnum b then island (m.bodyDofadr b) else -1
  | none => -1

/-- Is every body that shares an island still, and free to go? -/
def wholeIslandReady (m : MjModel S P) (d : MjData V P) (cfg : FreezeCfg V)
    (keepPrefix : Option Text) (still : Nat → Nat) (isl : Int) : Bool :=
  m.bodies.all fun o =>
    islandOf m d o ≠ isl || (isFreezable m o keepPrefix && cfg.stillTicks ≤ still o)

/-- The bodies that share an island, as far as the cap goes, behind those already collected. -/
def collectIsland (m : MjModel S P) (d : MjData V P) (cfg : FreezeCfg V) (isl : Int)
    (ripe : List Nat) : List Nat :=
  m.bodies.foldl
    (fun ripe o =>
      if cfg.maxPerTick ≤ ripe.length then ripe
      else if islandOf m d o ≠ isl then ripe
      else if o ∈ ripe then ripe
      else ripe ++ [o])
    ripe

/-- The loop over the bodies that have been still for long enough.  The world and bodies without a
dof are in no island, so an island that is not negative is a real one. -/
def collect (m : MjModel S P) (d : MjData V P) (cfg : FreezeCfg V) (keepPrefix : Option Text)
    (still : Nat → Nat) : List Nat :=
  m.bodies.foldl
    (fun ripe b =>
      if cfg.maxPerTick ≤ ripe.length then ripe
      else if still b < cfg.stillTicks then ripe
      else if islandOf m d b < 0 then ripe ++ [b]
      else if !wholeIslandReady m d cfg keepPrefix still (islandOf m d b) then ripe
      else collectIsland m d cfg (islandOf m d b) ripe)
    []

/-- The bodies a tick collects to freeze. -/
def ripeBodies (f : Freeze) (m : MjModel S P) (d : MjData V P) (cfg : FreezeCfg V)
    (keepPrefix : Option Text) : List Nat :=
  collect m d cfg keepPrefix (countStill f m d cfg keepPrefix)

end Collection

/-! ### Promotion -/

/-- A geom on the world body. -/
structure WorldGeom (S P : Type) where
  name : Text
  look : S
  pose : P

/-- A body of `mjSpec`, with the names of those it hangs under, the nearest first; the world is not
among them. -/
structure SpecBody (S P : Type) where
  name : Text
  ancestors : List Text
  geoms : List (Geom S P)

/-- `mjSpec`: the geoms of the world, and the other bodies. -/
structure MjSpec (S P : Type) where
  world : List (WorldGeom S P)
  bodies : List (SpecBody S P)

section Promotion

variable {V S P : Type} [LT V] [DecidableLT V] [Mul P]

/-- `mjs_findBody`. -/
def mjsFindBody (spec : MjSpec S P) (name : Text) : Option (SpecBody S P) :=
  spec.bodies.find? fun b => b.name == name

/-- `mjs_delete` of a body: the body goes, and whatever hangs under it. -/
def mjsDelete (spec : MjSpec S P) (name : Text) : MjSpec S P :=
  { spec with bodies := spec.bodies.filter fun b => b.name != name && !b.ancestors.contains name }

/-- `name#g`, in a buffer of 128. -/
def frozenName (name : Text) (g : Nat) : Text := fitted 128 (name ++ text "#" ++ decimal g)

/-- The geoms of a body, where the body came to rest. -/
def promotedGeoms (m : MjModel S P) (d : MjData V P) (b : Nat) : List (WorldGeom S P) :=
  (List.range (m.bodyGeomnum b)).map fun g =>
    let geom := m.geom (m.bodyGeomadr b + g)
    { name := frozenName (m.bodyName b) g, look := geom.look, pose := d.xpose b * geom.pose }

/-- The loop over the ripe bodies: the spec, and how many were frozen. -/
def promote (m : MjModel S P) (d : MjData V P) (ripe : List Nat) (spec : MjSpec S P) :
    MjSpec S P × Nat :=
  ripe.foldl
    (fun (spec, frozen) b =>
      match mjsFindBody spec (m.bodyName b) with
      | none => (spec, frozen)
      | some src =>
          (mjsDelete { spec with world := spec.world ++ promotedGeoms m d b } src.name, frozen + 1))
    (spec, 0)

/-- `weft_freeze_tick`: the bookkeeping, the spec, and how many bodies were frozen.  `recompile` is
`mj_recompile`, with the number of bodies of the model it makes. -/
def weftFreezeTick (recompile : MjSpec S P → Option Nat) (f : Freeze) (spec : MjSpec S P)
    (m : MjModel S P) (d : MjData V P) (cfg : FreezeCfg V) (keepPrefix : Option Text) :
    Freeze × MjSpec S P × Nat :=
  if f.nbody ≠ m.nbody then ({ f with stillFor := fun _ => 0, nbody := m.nbody }, spec, 0)
  else
    let ripe := ripeBodies f m d cfg keepPrefix
    let f := { f with stillFor := countStill f m d cfg keepPrefix }
    if ripe.isEmpty then (f, spec, 0)
    else
      let (spec, frozen) := promote m d ripe spec
      if frozen = 0 then (f, spec, 0)
      else
        match recompile spec with
        | none => (f, spec, 0)
        | some nbody =>
            let f := { f with frozenTotal := f.frozenTotal + frozen, recompiles := f.recompiles + 1 }
            (if f.nbody ≠ nbody then { f with stillFor := fun _ => 0, nbody } else f, spec, frozen)

end Promotion

end GyreWard
