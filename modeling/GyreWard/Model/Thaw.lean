/-
Module: GyreWard.Model.Thaw
Purpose: The reverse of a freeze (`bench/freeze.c`, `weft_thaw`), and the ticks and thaws of one freeze
  state on the whole scene, masses and the names of geoms included.
Trusted boundary: human-reviewed translation of the source; MuJoCo's arrays as the calls find them, its
  poses and masses as parameters, its builder a parameter with what it is known to keep
Main exports: SpecGeom, SceneBody, Scene, SceneModel, Bench, Bench.selected, Bench.tick, pieces,
  Bench.thaw
-/
import Mathlib.Algebra.Group.Defs
import GyreWard.Lib.Capped
import GyreWard.Model.Freeze

namespace GyreWard

open Lib

/-! ### The scene

`S`, `P` and `V` are as for a tick; `M` is a mass, which a built model does not keep for a geom of the
world. -/

/-- A geom of `mjSpec`, with the mass MuJoCo gives it. -/
structure SpecGeom (S M P : Type) where
  name : Option Text
  look : S
  mass : M
  pose : P
deriving DecidableEq

/-- A body of `mjSpec`, with the names of those it hangs under, the nearest first. -/
structure SceneBody (S M P : Type) where
  name : Text
  ancestors : List Text
  joints : List JointType
  pose : P
  geoms : List (SpecGeom S M P)
deriving DecidableEq

/-- `mjSpec`: the geoms of the world, and the other bodies. -/
structure Scene (S M P : Type) where
  world : List (SpecGeom S M P)
  bodies : List (SceneBody S M P)
deriving DecidableEq

/-- `mjModel`, with the names of its geoms. -/
structure SceneModel (S P : Type) extends MjModel S P where
  ngeom : Nat
  geomName : Nat → Option Text

section Scene

variable {V S M P : Type}

def SpecGeom.plain (g : SpecGeom S M P) : Geom S P := { look := g.look, pose := g.pose }

def SceneBody.plain (b : SceneBody S M P) : SpecBody S P :=
  { name := b.name, ancestors := b.ancestors, geoms := b.geoms.map SpecGeom.plain }

/-- The scene as far as a tick looks at it. -/
def Scene.spec (scene : Scene S M P) : MjSpec S P where
  world := scene.world.map fun g => { name := g.name.getD [], look := g.look, pose := g.pose }
  bodies := scene.bodies.map SceneBody.plain

/-- All geoms, in the order MuJoCo numbers them: those of the world, and then body by body. -/
def Scene.geoms (scene : Scene S M P) : List (SpecGeom S M P) :=
  scene.world ++ scene.bodies.flatMap (·.geoms)

/-- `mjs_findBody`. -/
def Scene.findBody (scene : Scene S M P) (name : Text) : Option (SceneBody S M P) :=
  scene.bodies.find? fun b => b.name == name

/-- `mjs_delete` of a body: the body goes, and whatever hangs under it. -/
def Scene.deleteBody (scene : Scene S M P) (name : Text) : Scene S M P :=
  { scene with bodies := scene.bodies.filter fun b => b.name != name && !b.ancestors.contains name }

/-- `mjs_delete` of the geom that `mjs_findElement` finds; no two geoms of a scene that was built share
a name. -/
def Scene.deleteGeom (scene : Scene S M P) (name : Text) : Scene S M P where
  world := scene.world.filter fun g => g.name ≠ some name
  bodies := scene.bodies.map fun b => { b with geoms := b.geoms.filter fun g => g.name ≠ some name }

end Scene

/-! ### A tick -/

section Tick

variable {V S M P : Type} [Mul P]

/-- The geoms of a body as `mjs_addGeom` puts them on the world; `weigh` is what a geom weighs that is
given no mass. -/
def promotedPieces (weigh : S → M) (m : MjModel S P) (d : MjData V P) (b : Nat) :
    List (SpecGeom S M P) :=
  (promotedGeoms m d b).map fun g =>
    { name := some g.name, look := g.look, mass := weigh g.look, pose := g.pose }

/-- The loop over the ripe bodies, on the whole scene. -/
def Scene.promote (weigh : S → M) (m : MjModel S P) (d : MjData V P) (ripe : List Nat)
    (scene : Scene S M P) : Scene S M P × Nat :=
  ripe.foldl
    (fun (scene, frozen) b =>
      match scene.findBody (m.bodyName b) with
      | none => (scene, frozen)
      | some src =>
          (Scene.deleteBody { scene with world := scene.world ++ promotedPieces weigh m d b } src.name,
            frozen + 1))
    (scene, 0)

/-- What the calls work on: the freeze state, the scene, and the model built from it. -/
structure Bench (S M P : Type) where
  f : Freeze
  scene : Scene S M P
  model : SceneModel S P

/-- `weft_freeze_init`. -/
def weftFreezeInit (m : MjModel S P) : Freeze :=
  { stillFor := fun _ => 0, nbody := m.nbody, frozenTotal := 0, recompiles := 0 }

variable [LT V] [DecidableLT V]

/-- The bodies a tick selects to freeze: none, when the number of bodies is not the one it knows. -/
def Bench.selected (cfg : FreezeCfg V) (keepPrefix : Option Text) (s : Bench S M P) (d : MjData V P) :
    List Nat :=
  if s.f.nbody ≠ s.model.nbody then [] else ripeBodies s.f s.model.toMjModel d cfg keepPrefix

/-- `weft_freeze_tick`, with the number of bodies frozen.  `build` is the builder behind
`mj_recompile`; where it fails the data is gone, and there is nothing to go on with. -/
def Bench.tick (weigh : S → M) (build : Scene S M P → Option (SceneModel S P)) (cfg : FreezeCfg V)
    (keepPrefix : Option Text) (s : Bench S M P) (d : MjData V P) : Option (Bench S M P × Nat) :=
  if s.f.nbody ≠ s.model.nbody then
    some ({ s with f := { s.f with stillFor := fun _ => 0, nbody := s.model.nbody } }, 0)
  else
    let ripe := ripeBodies s.f s.model.toMjModel d cfg keepPrefix
    let f := { s.f with stillFor := countStill s.f s.model.toMjModel d cfg keepPrefix }
    if ripe.isEmpty then some ({ s with f }, 0)
    else
      let (scene, frozen) := s.scene.promote weigh s.model.toMjModel d ripe
      if frozen = 0 then some ({ s with f, scene }, 0)
      else
        match build scene with
        | none => none
        | some model =>
            let f := { f with frozenTotal := f.frozenTotal + frozen, recompiles := f.recompiles + 1 }
            let f := if f.nbody ≠ model.nbody then
                { f with stillFor := fun _ => 0, nbody := model.nbody }
              else f
            some ({ f, scene, model }, frozen)

end Tick

/-! ### A thaw -/

section Thaw

variable {S M P : Type} [Mul P] [Inv P]

/-- The two `strncmp` of a thaw: the name of the geom begins with `name` and then the separator. -/
def isPieceName (name : Text) (geomName : Option Text) : Bool :=
  match geomName with
  | none => false
  | some gn => name.isPrefixOf gn && (text "#").isPrefixOf (gn.drop name.length)

/-- The geoms a thaw takes back: at most 32. -/
def pieces (m : SceneModel S P) (name : Text) : List Nat :=
  (List.range m.ngeom).foldl
    (fun ids g => if isPieceName name (m.geomName g) then push 32 ids g else ids) []

/-- A geom on the body that comes back: where it was beside the first one, and of the one mass a thaw
writes. -/
def thawedGeom (thawMass : M) (m : MjModel S P) (base : P) (g : Nat) : SpecGeom S M P :=
  { name := none, look := (m.geom g).look, mass := thawMass, pose := base⁻¹ * (m.geom g).pose }

/-- The body that comes back, with a free joint. -/
def thawedBody (thawMass : M) (m : MjModel S P) (name : Text) (base : P) (ids : List Nat) :
    SceneBody S M P :=
  { name, ancestors := [], joints := [.free], pose := base
    geoms := ids.map (thawedGeom thawMass m base) }

/-- The old copies go, geom after geom. -/
def Scene.deletePieces (m : SceneModel S P) (ids : List Nat) (scene : Scene S M P) : Scene S M P :=
  ids.foldl
    (fun scene g =>
      match m.geomName g with
      | none => scene
      | some gn => scene.deleteGeom gn)
    scene

/-- `weft_thaw`, with the number of geoms that came back.  `thawMass` is its 0.2. -/
def Bench.thaw (thawMass : M) (build : Scene S M P → Option (SceneModel S P)) (s : Bench S M P)
    (name : Text) : Option (Bench S M P × Nat) :=
  if name.isEmpty then some (s, 0)
  else
    match pieces s.model name with
    | [] => some (s, 0)
    | first :: rest =>
        let ids := first :: rest
        let base := (s.model.geom first).pose
        let scene := s.scene.deletePieces s.model ids
        let scene := { scene with
          bodies := scene.bodies ++ [thawedBody thawMass s.model.toMjModel name base ids] }
        match build scene with
        | none => none
        | some model =>
            let f := { s.f with
              recompiles := s.f.recompiles + 1
              frozenTotal := s.f.frozenTotal - (ids.length : Int) }
            some ({ f, scene, model }, ids.length)

end Thaw

end GyreWard
