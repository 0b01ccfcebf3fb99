/-
Module: GyreWard.Lib.Rigid
Purpose: Rotations of space by quaternions, and the motions made of a rotation and a shift.
Trusted boundary: human-reviewed spec (`rotate`, `Rigid`)
Main exports: Vec3, rotate, pure_rotate, rotate_mul, Rigid, smul_def
-/
import Mathlib.Algebra.Group.MinimalAxioms
import Mathlib.Algebra.Quaternion

namespace Lib

/-- Three coordinates. -/
@[ext]
structure Vec3 (R : Type) where
  x : R
  y : R
  z : R
deriving DecidableEq

section Rigid

variable {R : Type} [CommRing R]

/-! ### Vectors -/

namespace Vec3

instance : Add (Vec3 R) := ⟨fun v w => ⟨v.x + w.x, v.y + w.y, v.z + w.z⟩⟩
instance : Zero (Vec3 R) := ⟨⟨0, 0, 0⟩⟩
instance : Neg (Vec3 R) := ⟨fun v => ⟨-v.x, -v.y, -v.z⟩⟩
instance : Sub (Vec3 R) := ⟨fun v w => ⟨v.x - w.x, v.y - w.y, v.z - w.z⟩⟩

instance : AddCommGroup (Vec3 R) where
  add_assoc v w u := Vec3.ext (add_assoc ..) (add_assoc ..) (add_assoc ..)
  zero_add v := Vec3.ext (zero_add _) (zero_add _) (zero_add _)
  add_zero v := Vec3.ext (add_zero _) (add_zero _) (add_zero _)
  add_comm v w := Vec3.ext (add_comm ..) (add_comm ..) (add_comm ..)
  neg_add_cancel v := Vec3.ext (neg_add_cancel _) (neg_add_cancel _) (neg_add_cancel _)
  sub_eq_add_neg v w := Vec3.ext (sub_eq_add_neg ..) (sub_eq_add_neg ..) (sub_eq_add_neg ..)
  nsmul := nsmulRec
  zsmul := zsmulRec

/-- The quaternion with a vector for its imaginary part, and no real part. -/
def pure (v : Vec3 R) : Quaternion R := ⟨0, v.x, v.y, v.z⟩

@[simp] theorem re_pure (v : Vec3 R) : v.pure.re = 0 := rfl
@[simp] theorem imI_pure (v : Vec3 R) : v.pure.imI = v.x := rfl
@[simp] theorem imJ_pure (v : Vec3 R) : v.pure.imJ = v.y := rfl
@[simp] theorem imK_pure (v : Vec3 R) : v.pure.imK = v.z := rfl

theorem pure_injective {v w : Vec3 R} (same : v.pure = w.pure) : v = w :=
  Vec3.ext (congrArg QuaternionAlgebra.imI same) (congrArg QuaternionAlgebra.imJ same)
    (congrArg QuaternionAlgebra.imK same)

theorem pure_add (v w : Vec3 R) : (v + w).pure = v.pure + w.pure :=
  Quaternion.ext _ _ (add_zero 0).symm rfl rfl rfl

end Vec3

/-! ### Rotations -/

/-- What a quaternion of length one turns a vector into. -/
def rotate (q : Quaternion R) (v : Vec3 R) : Vec3 R :=
  let turned := q * v.pure * star q
  ⟨turned.imI, turned.imJ, turned.imK⟩

/-- Nothing real is left. -/
theorem pure_rotate (q : Quaternion R) (v : Vec3 R) : (rotate q v).pure = q * v.pure * star q := by
  have real : (q * v.pure * star q).re = 0 := by
    simp only [Quaternion.re_mul, Quaternion.imI_mul, Quaternion.imJ_mul, Quaternion.imK_mul,
      Vec3.re_pure, Vec3.imI_pure, Vec3.imJ_pure, Vec3.imK_pure, Quaternion.re_star, Quaternion.imI_star,
      Quaternion.imJ_star, Quaternion.imK_star]
    ring
  exact Quaternion.ext _ _ real.symm rfl rfl rfl

/-- One rotation after another. -/
theorem rotate_mul (p q : Quaternion R) (v : Vec3 R) : rotate (p * q) v = rotate p (rotate q v) := by
  apply Vec3.pure_injective
  rw [pure_rotate, pure_rotate, pure_rotate, star_mul]
  simp only [mul_assoc]

theorem rotate_add (q : Quaternion R) (v w : Vec3 R) : rotate q (v + w) = rotate q v + rotate q w := by
  apply Vec3.pure_injective
  rw [Vec3.pure_add, pure_rotate, pure_rotate, pure_rotate, Vec3.pure_add, mul_add, add_mul]

theorem rotate_zero (q : Quaternion R) : rotate q 0 = 0 := by
  have twice := rotate_add q 0 0
  rw [add_zero] at twice
  exact left_eq_add.mp twice

theorem rotate_one (v : Vec3 R) : rotate 1 v = v := by
  apply Vec3.pure_injective
  rw [pure_rotate, star_one, one_mul, mul_one]

theorem normSq_one : Quaternion.normSq (1 : Quaternion R) = 1 := map_one _

variable {q : Quaternion R}

theorem star_mul_self_of_unit (unit : Quaternion.normSq q = 1) : star q * q = 1 := by
  rw [Quaternion.star_mul_self, unit]
  rfl

theorem normSq_star_of_unit (unit : Quaternion.normSq q = 1) : Quaternion.normSq (star q) = 1 := by
  rw [Quaternion.normSq_star, unit]

/-! ### Motions -/

/-- A rotation about the origin, and then a shift. -/
@[ext]
structure Rigid (R : Type) [CommRing R] where
  place : Vec3 R
  turn : Quaternion R
  unit : Quaternion.normSq turn = 1

namespace Rigid

/-- The second motion first. -/
instance : Mul (Rigid R) :=
  ⟨fun a b =>
    { place := rotate a.turn b.place + a.place
      turn := a.turn * b.turn
      unit := by rw [map_mul, a.unit, b.unit, one_mul] }⟩

instance : One (Rigid R) := ⟨{ place := 0, turn := 1, unit := normSq_one }⟩

instance : Inv (Rigid R) :=
  ⟨fun a =>
    { place := rotate (star a.turn) (-a.place)
      turn := star a.turn
      unit := normSq_star_of_unit a.unit }⟩

variable (a b c : Rigid R)

@[simp] theorem place_mul : (a * b).place = rotate a.turn b.place + a.place := rfl
@[simp] theorem turn_mul : (a * b).turn = a.turn * b.turn := rfl
@[simp] theorem place_one : (1 : Rigid R).place = 0 := rfl
@[simp] theorem turn_one : (1 : Rigid R).turn = 1 := rfl
@[simp] theorem place_inv : a⁻¹.place = rotate (star a.turn) (-a.place) := rfl
@[simp] theorem turn_inv : a⁻¹.turn = star a.turn := rfl

instance : Group (Rigid R) :=
  Group.ofLeftAxioms
    (fun a b c => by
      apply Rigid.ext
      · simp only [place_mul, turn_mul, rotate_mul, rotate_add, add_assoc]
      · exact mul_assoc ..)
    (fun a => by
      apply Rigid.ext
      · simp only [place_mul, turn_one, place_one, rotate_one, add_zero]
      · exact one_mul _)
    (fun a => by
      apply Rigid.ext
      · rw [place_mul, place_inv, turn_inv, ← rotate_add, add_neg_cancel, rotate_zero]
        rfl
      · exact star_mul_self_of_unit a.unit)

/-- Motions move points. -/
instance : SMul (Rigid R) (Vec3 R) := ⟨fun a v => rotate a.turn v + a.place⟩

theorem smul_def (v : Vec3 R) : a • v = rotate a.turn v + a.place := rfl

instance : MulAction (Rigid R) (Vec3 R) where
  one_smul v := by
    rw [smul_def, turn_one, place_one, rotate_one, add_zero]
  mul_smul a b v := by
    simp only [smul_def, turn_mul, place_mul, rotate_mul, rotate_add, add_assoc]

end Rigid

end Rigid

end Lib
