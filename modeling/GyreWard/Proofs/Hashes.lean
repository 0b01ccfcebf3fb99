/-
Module: GyreWard.Proofs.Hashes
Purpose: `mix64` loses nothing of a word, so different facts reach different hashes.
Trusted boundary: none
Main exports: mix64_bijective, uuid8Hash, uuid8_of_hash, Facts, distinct_facts_reach_distinct_hashes
-/
import GyreWard.Lib.Mixing
import GyreWard.Model.Wire

namespace GyreWard

open Lib

theorem mix64_bijective : Function.Bijective mix64 := by
  have added := add_injective 0x9e3779b97f4a7c15
  have first : Function.Injective fun x : UInt64 => (x ^^^ (x >>> 30)) * 0xbf58476d1ce4e5b9 :=
    (mul_injective_of_inverse (b := 0x96de1b173f119089) (by decide)).comp (xorShift64_injective (by decide))
  have second : Function.Injective fun x : UInt64 => (x ^^^ (x >>> 27)) * 0x94d049bb133111eb :=
    (mul_injective_of_inverse (b := 0x319642b2d24d8ec3) (by decide)).comp (xorShift64_injective (by decide))
  have last : Function.Injective fun x : UInt64 => x ^^^ (x >>> 31) := xorShift64_injective (by decide)
  exact bijective_of_injective (((last.comp second).comp first).comp added)

/-! ### Facts -/

/-- The hash that `uuid8` derives from its seed and the facts. -/
def uuid8Hash (seed : UInt64) (ward cls : Int) (seq : UInt64) : UInt64 :=
  mix64 (seed ^^^ mix64 ((UInt64.ofInt ward <<< 40) ^^^ (UInt64.ofInt cls <<< 32) ^^^ seq))

/-- What `uuid8` prints of a hash and a cycle. -/
def uuid8Print (h : UInt64) (cycle : Int) : Text :=
  let g := mix64 (h ^^^ 0xd1b54a32d192ed03)
  let ts := (UInt32.ofInt cycle).toUInt64 &&& 0xffffffffffff
  fitted 37 <|
    hexPadded 8 (ts >>> 16).toUInt32.toNat ++ text "-" ++
    hexPadded 4 (ts &&& 0xffff).toUInt32.toNat ++ text "-8" ++
    hexPadded 3 ((h >>> 52) &&& 0xfff).toUInt32.toNat ++ text "-" ++
    hexPadded 4 ((0x8000 : UInt64) ||| ((h >>> 36) &&& 0x3fff)).toUInt32.toNat ++ text "-" ++
    hexPadded 12 (g &&& 0xffffffffffff).toNat

theorem uuid8_of_hash (seed : UInt64) (ward cls cycle : Int) (seq : UInt64) :
    uuid8 seed ward cls cycle seq = uuid8Print (uuid8Hash seed ward cls seq) cycle := rfl

/-- A ward, a class and a sequence number that each fit their field. -/
structure Facts (ward cls : Int) (seq : UInt64) : Prop where
  ward : 0 ≤ ward ∧ ward < 2 ^ 24
  cls : 0 ≤ cls ∧ cls < 2 ^ 8
  seq : seq.toNat < 2 ^ 32

/-- The packed facts, as one number above another. -/
theorem Facts.packed {ward cls : Int} {seq : UInt64} (facts : Facts ward cls seq) :
    ((UInt64.ofInt ward <<< 40) ^^^ (UInt64.ofInt cls <<< 32) ^^^ seq).toNat =
      (ward.toNat <<< 8 ^^^ cls.toNat) <<< 32 ^^^ seq.toNat := by
  obtain ⟨⟨some, fits⟩, ⟨some', fits'⟩, -⟩ := facts
  have field (n : Int) (positive : 0 ≤ n) (small : n < 2 ^ 64) : (UInt64.ofInt n).toNat = n.toNat := by
    have word : (n % 2 ^ 64).toNat = n.toNat := by omega
    rw [UInt64.ofInt, word]
    apply UInt64.toNat_ofNat_of_lt'
    change n.toNat < 2 ^ 64
    omega
  have high : (UInt64.ofInt ward <<< 40).toNat = ward.toNat <<< 8 <<< 32 := by
    have small : ward.toNat * 2 ^ 40 < 2 ^ 64 := by omega
    have by_forty : (40 : UInt64).toNat % 64 = 8 + 32 := rfl
    rw [UInt64.toNat_shiftLeft, by_forty, field ward some (by omega), Nat.shiftLeft_eq,
      Nat.mod_eq_of_lt small, ← Nat.shiftLeft_add, Nat.shiftLeft_eq]
  have low : (UInt64.ofInt cls <<< 32).toNat = cls.toNat <<< 32 := by
    have small : cls.toNat * 2 ^ 32 < 2 ^ 64 := by omega
    have by_thirty_two : (32 : UInt64).toNat % 64 = 32 := rfl
    rw [UInt64.toNat_shiftLeft, by_thirty_two, field cls some' (by omega), Nat.shiftLeft_eq,
      Nat.mod_eq_of_lt small]
  rw [UInt64.toNat_xor, UInt64.toNat_xor, high, low, Nat.shiftLeft_xor_distrib]

/-- Facts that are packed the same are the same. -/
theorem Facts.injective {ward ward' cls cls' : Int} {seq seq' : UInt64} (facts : Facts ward cls seq)
    (facts' : Facts ward' cls' seq')
    (same : (UInt64.ofInt ward <<< 40) ^^^ (UInt64.ofInt cls <<< 32) ^^^ seq =
      (UInt64.ofInt ward' <<< 40) ^^^ (UInt64.ofInt cls' <<< 32) ^^^ seq') :
    ward = ward' ∧ cls = cls' ∧ seq = seq' := by
  have words := congrArg UInt64.toNat same
  rw [facts.packed, facts'.packed] at words
  obtain ⟨above, seqs⟩ := fields_injective facts.seq facts'.seq words
  have class' : cls.toNat < 2 ^ 8 := by
    have := facts.cls
    omega
  have class'' : cls'.toNat < 2 ^ 8 := by
    have := facts'.cls
    omega
  obtain ⟨wards, classes⟩ := fields_injective class' class'' above
  have := facts.ward
  have := facts'.ward
  have := facts.cls
  have := facts'.cls
  refine ⟨?_, ?_, UInt64.toNat_inj.mp seqs⟩
  · omega
  · omega

/-- `mix64` is a bijection, and whatever the seed, different facts have different hashes. -/
theorem distinct_facts_reach_distinct_hashes :
    Function.Bijective mix64 ∧
      ∀ (seed : UInt64) (ward ward' cls cls' : Int) (seq seq' : UInt64), Facts ward cls seq →
        Facts ward' cls' seq' → uuid8Hash seed ward cls seq = uuid8Hash seed ward' cls' seq' →
        ward = ward' ∧ cls = cls' ∧ seq = seq' := by
  refine ⟨mix64_bijective, ?_⟩
  intro seed ward ward' cls cls' seq seq' facts facts' same
  have inner := mix64_bijective.injective same
  rw [UInt64.xor_right_inj] at inner
  exact facts.injective facts' (mix64_bijective.injective inner)

/-- Two contracts of a ward, one after the other. -/
theorem two_contracts_have_two_hashes : uuid8Hash 7 0 3 0 ≠ uuid8Hash 7 0 3 1 := by
  have first : Facts 0 3 0 := ⟨by decide, by decide, by decide⟩
  have second : Facts 0 3 1 := ⟨by decide, by decide, by decide⟩
  intro same
  have facts := distinct_facts_reach_distinct_hashes.2 7 0 0 3 3 0 1 first second same
  exact absurd facts.2.2 (by decide)

end GyreWard
