/-
Module: GyreWard.Proofs.InPlace
Purpose: Where the geoms of a thing stand before a freeze, while it is frozen and after a thaw.
Trusted boundary: human-reviewed spec (`StandsAs`, `FrozenInPlace`, `ThawedInPlace`)
Main exports: mjuRotVecQuat_eq, inv_mul_eq_thawPose, StandsAs, standsAs_of_rigid, freeze_stands, thaw_stands,
  a_thing_keeps_its_shape_and_place, a_thing_comes_back_in_place
-/
import Mathlib.Tactic.LinearCombination
import GyreWard.Model.Poses
import GyreWard.Proofs.RoundTrip

namespace GyreWard

open Lib

section InPlace

variable {R : Type} [CommRing R] [DecidableEq R]

/-! ### MuJoCo's rotation -/

/-- With an orientation of length one MuJoCo's formula turns a vector as the quaternion does. -/
theorem mjuRotVecQuat_eq (vec : Vec3 R) {quat : Quaternion R} (unit : Quaternion.normSq quat = 1) :
    mjuRotVecQuat vec quat = rotate quat vec := by
  unfold mjuRotVecQuat
  split
  · next zero =>
      obtain ⟨x, y, z⟩ := zero
      have none : vec = 0 := Vec3.ext x y z
      rw [none, rotate_zero]
      rfl
  · split
    · next null =>
        obtain ⟨w, i, j, k⟩ := null
        have one : quat = 1 := Quaternion.ext _ _ w i j k
        rw [one, rotate_one]
    · rw [Quaternion.normSq_def'] at unit
      apply Vec3.ext
      all_goals
        simp only [rotate, Quaternion.re_mul, Quaternion.imI_mul, Quaternion.imJ_mul, Quaternion.imK_mul,
          Quaternion.re_star, Quaternion.imI_star, Quaternion.imJ_star, Quaternion.imK_star,
          Vec3.re_pure, Vec3.imI_pure, Vec3.imJ_pure, Vec3.imK_pure]
      · linear_combination -vec.x * unit
      · linear_combination -vec.y * unit
      · linear_combination -vec.z * unit

/-! ### Poses as motions -/

/-- The motion from the world's frame to a pose. -/
def Pose.rigid (a : Pose R) : Rigid R := { place := a.pos, turn := a.quat, unit := a.unit }

theorem rigid_mul (a b : Pose R) : (a * b).rigid = a.rigid * b.rigid := by
  apply Rigid.ext
  · exact congrArg (· + a.pos) (mjuRotVecQuat_eq b.pos a.unit)
  · exact mjuMulQuat_eq a.quat b.quat

theorem rigid_thawPose (base geom : Pose R) : (thawPose base geom).rigid = base.rigid⁻¹ * geom.rigid := by
  have back : Quaternion.normSq (mjuNegQuat base.quat) = 1 := by
    rw [mjuNegQuat_eq]
    exact normSq_star_of_unit base.unit
  apply Rigid.ext
  · change mjuRotVecQuat (geom.pos - base.pos) (mjuNegQuat base.quat) =
      rotate (star base.quat) geom.pos + rotate (star base.quat) (-base.pos)
    rw [mjuRotVecQuat_eq _ back, mjuNegQuat_eq, ← rotate_add, sub_eq_add_neg]
  · change mjuMulQuat (mjuNegQuat base.quat) geom.quat = star base.quat * geom.quat
    rw [mjuMulQuat_eq, mjuNegQuat_eq]

theorem rigid_inv (a : Pose R) : a⁻¹.rigid = a.rigid⁻¹ := by
  have home : (Pose.world : Pose R).rigid = 1 := rfl
  have seen := rigid_thawPose a Pose.world
  rw [home, mul_one] at seen
  exact seen

omit [DecidableEq R] in
theorem rigid_injective {a b : Pose R} (same : a.rigid = b.rigid) : a = b :=
  Pose.ext (congrArg Rigid.place same) (congrArg Rigid.turn same)

/-- What a thaw writes is the product with the inverse. -/
theorem inv_mul_eq_thawPose (base geom : Pose R) : base⁻¹ * geom = thawPose base geom := by
  apply rigid_injective
  rw [rigid_mul, rigid_inv, rigid_thawPose]

/-! ### Standing in the world -/

/-- A geom in the world stands as one on a body does: each of its points is where the body's motion takes it
to, and it is turned as the body, and then on it. -/
structure StandsAs (world body geom : Pose R) : Prop where
  points : ∀ v : Vec3 R, world.rigid • v = body.rigid • geom.rigid • v
  turned : world.quat = body.quat * geom.quat

omit [DecidableEq R] in
theorem standsAs_of_rigid {world body geom : Pose R} (same : world.rigid = body.rigid * geom.rigid) :
    StandsAs world body geom := by
  constructor
  · intro v
    rw [same, mul_smul]
  · exact congrArg Rigid.turn same

/-- A geom on a body stands in the world as another does on another body. -/
def StandTheSame (body geom body' geom' : Pose R) : Prop :=
  ∃ world, StandsAs world body geom ∧ StandsAs world body' geom'

/-- The pose a freeze gives a geom. -/
theorem freeze_stands (body geom : Pose R) : StandsAs (body * geom) body geom :=
  standsAs_of_rigid (rigid_mul body geom)

/-- The pose a thaw gives a geom. -/
theorem thaw_stands (base world : Pose R) : StandsAs world base (base⁻¹ * world) := by
  apply standsAs_of_rigid
  rw [rigid_mul, rigid_inv, mul_inv_cancel_left]

/-! ### Ticks and thaws -/

variable {V S M : Type} [LT V] [DecidableLT V]

/-- What a tick puts on the world are the geoms of the bodies it freezes, each where its body had it. -/
def FrozenInPlace (cfg : FreezeCfg V) (keepPrefix : Option Text) (s : Bench S M (Pose R))
    (d : MjData V (Pose R)) (s' : Bench S M (Pose R)) : Prop :=
  ∃ added, s'.scene.world = s.scene.world ++ added ∧
    List.Forall₂ (fun frozen on => StandsAs frozen.pose (d.xpose on.1) (Geom.pose on.2)) added
      ((s.frozen cfg keepPrefix d).flatMap fun b => (s.model.geoms b).map fun geom => (b, geom))

/-- A thaw puts a body at the first piece, and on it a geom for each piece, where the piece was. -/
def ThawedInPlace (s : Bench S M (Pose R)) (name : Text) (s' : Bench S M (Pose R)) : Prop :=
  ∃ c first, s'.scene.bodies.getLast? = some c ∧ c.name = name ∧
    (pieces s.model name).head? = some first ∧ c.pose = (s.model.geom first).pose ∧
    List.Forall₂ (fun geom piece => StandsAs (s.model.geom piece).pose c.pose (SpecGeom.pose geom)) c.geoms
      (pieces s.model name)

/-- The body a thaw brought back has a geom for each of these, where they were on a body in this pose. -/
def BackInPlace (name : Text) (body : Pose R) (geoms : List (Geom S (Pose R)))
    (s' : Bench S M (Pose R)) : Prop :=
  ∃ c, s'.scene.bodies.getLast? = some c ∧ c.name = name ∧
    List.Forall₂ (fun geom old => StandTheSame c.pose (SpecGeom.pose geom) body (Geom.pose old)) c.geoms geoms

variable {weigh : S → M} {thawMass : M} {build : Scene S M (Pose R) → Option (SceneModel S (Pose R))}
  {cfg : FreezeCfg V} {keepPrefix : Option Text} {s s' : Bench S M (Pose R)} {d : MjData V (Pose R)}
  {name : Text} {n : Nat}

theorem tick_in_place (ticked : Ticked weigh build cfg keepPrefix s d s' n) :
    FrozenInPlace cfg keepPrefix s d s' := by
  have idle (nothing : s.frozen cfg keepPrefix d = []) (same : s'.scene = s.scene) :
      FrozenInPlace cfg keepPrefix s d s' := by
    refine ⟨[], ?_, ?_⟩
    · rw [same, List.append_nil]
    · rw [nothing]
      exact .nil
  cases ticked with
  | skips other =>
      apply idle _ rfl
      rw [Bench.frozen, Bench.selected, if_pos other]
      rfl
  | counts known nothing => exact idle nothing rfl
  | freezes known something built =>
      refine ⟨_, rfl, ?_⟩
      apply List.rel_flatMap (R := Eq) (List.forall₂_refl _)
      rintro b _ rfl
      dsimp only
      rw [promotedPieces, promotedGeoms, MjModel.geoms, List.map_map, List.map_map,
        List.forall₂_map_left_iff, List.forall₂_map_right_iff, List.forall₂_same]
      intro g _
      exact freeze_stands _ _

omit [LT V] [DecidableLT V] in
theorem thaw_in_place (thawed : Thawed thawMass build s name s' n) (some : n ≠ 0) :
    ThawedInPlace s name s' := by
  cases thawed with
  | nothing none => exact absurd rfl some
  | @back first named head model built =>
      refine ⟨_, first, List.getLast?_concat, rfl, head, rfl, ?_⟩
      rw [thawedBody, List.forall₂_map_left_iff, List.forall₂_same]
      intro piece _
      exact thaw_stands _ _

omit [LT V] [DecidableLT V] in
/-- The pieces of a frozen thing come back where they were before they were frozen. -/
theorem thaw_back_in_place {body : Pose R} {geoms : List (Geom S (Pose R))}
    (frozen : (pieces s.model name).map s.model.geom =
      geoms.map fun g => { look := g.look, pose := body * g.pose })
    (thawed : Thawed thawMass build s name s' n) (some : n ≠ 0) : BackInPlace name body geoms s' := by
  have paired : List.Forall₂ Eq ((pieces s.model name).map s.model.geom)
      (geoms.map fun g => { look := g.look, pose := body * g.pose }) := by
    rw [frozen]
    exact List.forall₂_refl _
  rw [List.forall₂_map_left_iff, List.forall₂_map_right_iff] at paired
  cases thawed with
  | nothing none => exact absurd rfl some
  | @back first named head model built =>
      refine ⟨_, List.getLast?_concat, rfl, ?_⟩
      rw [thawedBody, List.forall₂_map_left_iff]
      apply paired.imp
      intro piece old same
      refine ⟨(s.model.geom piece).pose, thaw_stands _ _, ?_⟩
      rw [same]
      exact freeze_stands _ _

/-- A thing with a plain name, frozen and thawed, is where it was. -/
theorem a_thing_comes_back_in_place (faithful : ∀ scene m, build scene = some m → Built scene m)
    (built : Built s.scene s.model) {c : SceneBody S M (Pose R)} (there : c ∈ s.scene.bodies)
    (top : c.ancestors = []) (few : c.geoms.length ≤ 32) (plain : PlainName s.scene c.name) {b : Nat}
    (numbered : s.model.bodyName b = c.name) (selected : b ∈ s.selected cfg keepPrefix d)
    (ticked : s.tick weigh build cfg keepPrefix d = some (s', n)) {s₂ : Bench S M (Pose R)} {k : Nat}
    (thawed : s'.thaw thawMass build c.name = some (s₂, k)) (some : k ≠ 0) :
    BackInPlace c.name (d.xpose b) (c.geoms.map SpecGeom.plain) s₂ := by
  have here : b ∈ s.frozen cfg keepPrefix d :=
    found_of_ripe there top numbered
      (fun a mem same => built.compiled.name_inj (mem_selected mem).2 (mem_selected selected).2 same)
      selected
  cases tick_cases ticked with
  | skips other => exact absurd (mem_selected selected).1 other
  | counts known nothing =>
      rw [nothing] at here
      cases here
  | freezes known something made =>
      have promoted := (pieces_promoted built there top selected numbered few plain (faithful _ _ made)).2
      apply thaw_back_in_place _ (thaw_cases thawed) some
      rw [List.map_map]
      exact promoted

/-- A freeze leaves every geom where its body had it, a thaw brings every piece back where it was, and so a
thing of any number of geoms is where it was before the freeze. -/
theorem a_thing_keeps_its_shape_and_place (weigh : S → M) (thawMass : M)
    (build : Scene S M (Pose R) → Option (SceneModel S (Pose R))) (cfg : FreezeCfg V)
    (keepPrefix : Option Text) (s s' : Bench S M (Pose R)) (n : Nat) :
    (∀ d, s.tick weigh build cfg keepPrefix d = some (s', n) → FrozenInPlace cfg keepPrefix s d s') ∧
      ∀ name, s.thaw thawMass build name = some (s', n) → n ≠ 0 →
        ThawedInPlace s name s' ∧
          ∀ body geoms, (pieces s.model name).map s.model.geom =
            geoms.map (fun g => { look := g.look, pose := body * g.pose }) →
              BackInPlace name body geoms s' := by
  constructor
  · intro d ticked
    exact tick_in_place (tick_cases ticked)
  · intro name thawed some
    have cases := thaw_cases thawed
    exact ⟨thaw_in_place cases some, fun body geoms frozen => thaw_back_in_place frozen cases some⟩

/-! ### A handle upside down -/

instance : Inhabited (Pose R) := ⟨Pose.world⟩

end InPlace

/-- Two geoms of different orientations, neither of them where the body is. -/
def handle : SceneBody Nat Nat (Pose Int) where
  name := text "handle"
  ancestors := []
  joints := [.free]
  pose := Pose.world
  geoms := [
    { name := none, look := 1, mass := 2
      pose := { pos := ⟨1, 0, 0⟩, quat := ⟨0, 0, 1, 0⟩, unit := by decide +kernel } },
    { name := none, look := 1, mass := 2
      pose := { pos := ⟨0, 2, 0⟩, quat := ⟨1, 0, 0, 0⟩, unit := by decide +kernel } }]

def handleScene : Scene Nat Nat (Pose Int) := { world := [], bodies := [handle] }

def upsideDown : Pose Int :=
  { pos := ⟨3, 1, 2⟩, quat := ⟨0, 1, 0, 0⟩, unit := by decide +kernel }

/-- The handle has come to rest upside down. -/
def handleData : MjData Nat (Pose Int) :=
  { bodySpeed := fun _ => 0, dofIsland := none, xpose := fun _ => upsideDown }

def handleBench : Bench Nat Nat (Pose Int) :=
  { f := weftFreezeInit handleScene.layOut.toMjModel, scene := handleScene, model := handleScene.layOut }

/-- The bench with the handle frozen. -/
def handleFrozen : Bench Nat Nat (Pose Int) :=
  let after := handleBench.promoted (fun _ => 0) atOnce avatars handleData
  handleBench.after (fun _ => 0) atOnce avatars handleData after.layOut

/-- The bench with the handle back. -/
def handleBack : Bench Nat Nat (Pose Int) :=
  let after := handleFrozen.returned 2 (text "handle") 0
  { f := handleFrozen.uncounted (text "handle"), scene := after, model := after.layOut }

/-- It is frozen and thawed, and is where it was. -/
theorem a_handle_comes_back_in_place :
    FrozenInPlace atOnce avatars handleBench handleData handleFrozen ∧
      ThawedInPlace handleFrozen (text "handle") handleBack ∧
        BackInPlace (text "handle") upsideDown (handle.geoms.map SpecGeom.plain) handleBack := by
  have frozen : (handleBench.promoted (fun _ => 0) atOnce avatars handleData).build =
      some handleFrozen.model := if_pos (by decide)
  have ticked : handleBench.tick (fun _ => 0) Scene.build atOnce avatars handleData =
      some (handleFrozen, 1) := tick_freezes rfl (by decide) frozen
  have made : (handleFrozen.returned 2 (text "handle") 0).build = some handleBack.model :=
    if_pos (by decide)
  have thawed : handleFrozen.thaw 2 Scene.build (text "handle") = some (handleBack, 2) :=
    thaw_back (by decide) rfl made
  have claim := a_thing_keeps_its_shape_and_place (R := Int) (S := Nat) (M := Nat) (fun _ => 0) 2
    Scene.build atOnce avatars
  obtain ⟨place, back⟩ := (claim handleFrozen handleBack 2).2 (text "handle") thawed (by decide)
  exact ⟨(claim handleBench handleFrozen 1).1 handleData ticked, place, back _ _ rfl⟩

end GyreWard
