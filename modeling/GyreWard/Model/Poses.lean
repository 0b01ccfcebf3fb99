/-
Module: GyreWard.Model.Poses
Purpose: Positions and orientations as MuJoCo composes them (`engine_util_spatial.c`, `engine_util_blas.c`),
  and what `bench/freeze.c` makes of them in a freeze and a thaw.
Trusted boundary: human-reviewed translation of the source; exact numbers for `mjtNum`
Main exports: mjuRotVecQuat, mjuNegQuat, mjuMulQuat, Pose, freezePose, thawPose
-/
import GyreWard.Lib.Rigid

namespace GyreWard

open Lib

variable {R : Type} [CommRing R]

/-! ### MuJoCo's arithmetic -/

/-- `mju_addTo3`. -/
def mjuAddTo3 (res vec : Vec3 R) : Vec3 R := ⟨res.x + vec.x, res.y + vec.y, res.z + vec.z⟩

/-- `mju_sub3`. -/
def mjuSub3 (vec1 vec2 : Vec3 R) : Vec3 R := ⟨vec1.x - vec2.x, vec1.y - vec2.y, vec1.z - vec2.z⟩

/-- `mju_rotVecQuat`. -/
def mjuRotVecQuat [DecidableEq R] (vec : Vec3 R) (quat : Quaternion R) : Vec3 R :=
  if vec.x = 0 ∧ vec.y = 0 ∧ vec.z = 0 then ⟨0, 0, 0⟩
  else if quat.re = 1 ∧ quat.imI = 0 ∧ quat.imJ = 0 ∧ quat.imK = 0 then vec
  else
    let tmp : Vec3 R :=
      { x := quat.re * vec.x + quat.imJ * vec.z - quat.imK * vec.y
        y := quat.re * vec.y + quat.imK * vec.x - quat.imI * vec.z
        z := quat.re * vec.z + quat.imI * vec.y - quat.imJ * vec.x }
    { x := vec.x + 2 * (quat.imJ * tmp.z - quat.imK * tmp.y)
      y := vec.y + 2 * (quat.imK * tmp.x - quat.imI * tmp.z)
      z := vec.z + 2 * (quat.imI * tmp.y - quat.imJ * tmp.x) }

/-- `mju_negQuat`. -/
def mjuNegQuat (quat : Quaternion R) : Quaternion R := ⟨quat.re, -quat.imI, -quat.imJ, -quat.imK⟩

/-- `mju_mulQuat`. -/
def mjuMulQuat (qa qb : Quaternion R) : Quaternion R where
  re := qa.re * qb.re - qa.imI * qb.imI - qa.imJ * qb.imJ - qa.imK * qb.imK
  imI := qa.re * qb.imI + qa.imI * qb.re + qa.imJ * qb.imK - qa.imK * qb.imJ
  imJ := qa.re * qb.imJ - qa.imI * qb.imK + qa.imJ * qb.re + qa.imK * qb.imI
  imK := qa.re * qb.imK + qa.imI * qb.imJ - qa.imJ * qb.imI + qa.imK * qb.re

theorem mjuNegQuat_eq (quat : Quaternion R) : mjuNegQuat quat = star quat :=
  Quaternion.ext _ _ (Quaternion.re_star quat).symm rfl rfl rfl

theorem mjuMulQuat_eq (qa qb : Quaternion R) : mjuMulQuat qa qb = qa * qb :=
  Quaternion.ext _ _ (Quaternion.re_mul qa qb).symm (Quaternion.imI_mul qa qb).symm
    (Quaternion.imJ_mul qa qb).symm (Quaternion.imK_mul qa qb).symm

/-! ### Poses -/

/-- A position, and an orientation of length one. -/
@[ext]
structure Pose (R : Type) [CommRing R] where
  pos : Vec3 R
  quat : Quaternion R
  unit : Quaternion.normSq quat = 1

/-- The frame of the world. -/
def Pose.world : Pose R := { pos := ⟨0, 0, 0⟩, quat := 1, unit := normSq_one }

variable [DecidableEq R]

/-- The pose that a freeze gives a geom on the world. -/
def freezePose (body geom : Pose R) : Pose R where
  pos := mjuAddTo3 (mjuRotVecQuat geom.pos body.quat) body.pos
  quat := mjuMulQuat body.quat geom.quat
  unit := by rw [mjuMulQuat_eq, map_mul, body.unit, geom.unit, one_mul]

/-- The pose that a thaw gives a geom on the body that comes back at `base`. -/
def thawPose (base geom : Pose R) : Pose R where
  pos := mjuRotVecQuat (mjuSub3 geom.pos base.pos) (mjuNegQuat base.quat)
  quat := mjuMulQuat (mjuNegQuat base.quat) geom.quat
  unit := by
    rw [mjuMulQuat_eq, mjuNegQuat_eq, map_mul, normSq_star_of_unit base.unit, geom.unit, one_mul]

instance : Mul (Pose R) := ⟨freezePose⟩

/-- The world as it is seen from a pose: what a thaw writes is a product with it (`inv_mul_eq_thawPose`). -/
instance : Inv (Pose R) := ⟨fun base => thawPose base Pose.world⟩

end GyreWard
