/-
Module: GyreWard.Proofs.Homes
Purpose: What stands where: homes repeat with the period of their lattice, no board puts two contracts in
  one place, and nothing stands among the non-physical.
Trusted boundary: none
Main exports: stride_iff, lattice_iff, sparkHome_eq_iff, contractPlace_injective,
  nothing_stands_on_another
-/
import Mathlib.Data.Int.ModEq
import GyreWard.Model.Wire

namespace GyreWard

/-! ### Strides -/

section Strides

variable {a b m n s t : Int}

/-- Steps of a length prime to the period come round only with the period. -/
theorem stride_iff (positive : 0 < m) (prime : Int.gcd m s = 1) :
    a * s ≡ b * s [ZMOD m] ↔ a ≡ b [ZMOD m] := by
  constructor
  · intro same
    have cancelled := Int.ModEq.cancel_right_div_gcd positive same
    rwa [prime, Nat.cast_one, Int.ediv_one] at cancelled
  · intro same
    exact same.mul_right s

/-- Two strides with periods prime to one another come round together only with the product. -/
theorem lattice_iff (positive : 0 < m) (positive' : 0 < n) (prime : Int.gcd m s = 1)
    (prime' : Int.gcd n t = 1) (apart : m.natAbs.Coprime n.natAbs) :
    (a * s ≡ b * s [ZMOD m] ∧ a * t ≡ b * t [ZMOD n]) ↔ a ≡ b [ZMOD m * n] := by
  rw [stride_iff positive prime, stride_iff positive' prime']
  exact Int.modEq_and_modEq_iff_modEq_mul apart

end Strides

/-! ### Places -/

theorem um_inj {a b : Int} : um a = um b ↔ a = b := by
  unfold um
  constructor
  · intro same
    omega
  · rintro rfl
    rfl

/-- C's remainder of a number that is not negative. -/
theorem tmod_modEq {a b m : Int} (some : 0 ≤ a) (some' : 0 ≤ b) :
    a.tmod m = b.tmod m ↔ a ≡ b [ZMOD m] := by
  rw [Int.tmod_eq_emod_of_nonneg some, Int.tmod_eq_emod_of_nonneg some']
  rfl

/-- Two homes are one exactly when the ids are a whole number of periods apart. -/
theorem sparkHome_eq_iff {a b : Int} (some : 0 ≤ a) (some' : 0 ≤ b) :
    sparkHome a = sparkHome b ↔ a ≡ b [ZMOD 103 * 109] := by
  have lattice : (a * 37 ≡ b * 37 [ZMOD 103] ∧ a * 23 ≡ b * 23 [ZMOD 109]) ↔ a ≡ b [ZMOD 103 * 109] :=
    lattice_iff (by decide) (by decide) (by decide) (by decide) (by decide)
  have across := tmod_modEq (a := a * 37) (b := b * 37) (m := 103) (by omega) (by omega)
  have along := tmod_modEq (a := a * 23) (b := b * 23) (m := 109) (by omega) (by omega)
  rw [← lattice, ← across, ← along, sparkHome, sparkHome, Place.mk.injEq, um_inj, um_inj,
    Int.sub_left_inj, Int.sub_left_inj]
  constructor
  · rintro ⟨x, -, z⟩
    exact ⟨x, z⟩
  · rintro ⟨x, z⟩
    exact ⟨x, rfl, z⟩

/-- Contracts in one place have ids that many apart. -/
theorem contractPlace_modEq {a b : Int} (same : contractPlace a = contractPlace b) : a ≡ b [ZMOD 101] := by
  have x := um_inj.mp (congrArg Place.x same)
  have remainders : (a * 61).tmod 101 = (b * 61).tmod 101 := (Int.sub_left_inj 50).mp x
  -- whatever their signs, equal remainders are congruent
  have whole := Int.tmod_add_mul_tdiv (a * 61) 101
  have whole' := Int.tmod_add_mul_tdiv (b * 61) 101
  have strides : a * 61 ≡ b * 61 [ZMOD 101] := by
    unfold Int.ModEq
    omega
  exact (stride_iff (by decide) (by decide)).mp strides

/-- The contracts of one board, as far as a board can go, stand in different places. -/
theorem contractPlace_injective (c : Int) {i j : Nat} (few : i < boardSize + 3) (few' : j < boardSize + 3)
    (same : contractPlace (c * boardSize + i) = contractPlace (c * boardSize + j)) : i = j := by
  have apart := contractPlace_modEq same
  have size : boardSize = 6 := rfl
  unfold Int.ModEq at apart
  omega

theorem nonphysicalPlace_apart (loc : Nat) (id : Int) :
    nonphysicalPlace loc ≠ sparkHome id ∧ nonphysicalPlace loc ≠ contractPlace id := by
  constructor
  · intro same
    have level : nonphysicalUm = commonsUm := congrArg Place.y same
    exact absurd level (by decide)
  · intro same
    have level : nonphysicalUm = if id.tmod 2 ≠ 0 then underUm else commonsUm := congrArg Place.y same
    split at level
    · exact absurd level (by decide)
    · exact absurd level (by decide)

/-- Homes, contracts and the non-physical: nothing stands where something else does. -/
theorem nothing_stands_on_another :
    (∀ a b : Int, 0 ≤ a → 0 ≤ b →
      (sparkHome a = sparkHome b ↔ a % (103 * 109) = b % (103 * 109))) ∧
    (∀ a b : Nat, a < maxWards * sparksPerWard → b < maxWards * sparksPerWard →
      sparkHome a = sparkHome b → a = b) ∧
    (∀ (c : Int) (i j : Nat), i < boardSize + 3 → j < boardSize + 3 →
      contractPlace (c * boardSize + i) = contractPlace (c * boardSize + j) → i = j) ∧
    ∀ (loc : Nat) (id : Int),
      nonphysicalPlace loc ≠ sparkHome id ∧ nonphysicalPlace loc ≠ contractPlace id := by
  refine ⟨fun a b some some' => sparkHome_eq_iff some some', ?_,
    fun c i j few few' same => contractPlace_injective c few few' same, nonphysicalPlace_apart⟩
  intro a b here there same
  have period := (sparkHome_eq_iff (Int.natCast_nonneg a) (Int.natCast_nonneg b)).mp same
  have size : maxWards * sparksPerWard = 11072 := rfl
  unfold Int.ModEq at period
  omega

/-- The first home after a whole period is the first home again. -/
theorem homes_come_round : sparkHome 0 = sparkHome (103 * 109) :=
  (nothing_stands_on_another.1 0 (103 * 109) (by decide) (by decide)).mpr rfl

end GyreWard
