/-
Module: GyreWard.Proofs.SalvageNames
Purpose: A salvage name is a UUIDv8 whose first thirteen characters are the cycle, and the names sort by
  it.
Trusted boundary: human-reviewed spec (`UuidV8`)
Main exports: UuidV8, stamp, uuid8_eq, stamp_injective, stamp_lt, salvage_name
-/
import GyreWard.Lib.Numerals
import GyreWard.Model.Wire

namespace GyreWard

open Lib

def hyphen : UInt8 := 0x2d

/-- A lower-case hexadecimal digit. -/
def hexDigit (d : Nat) : UInt8 := UInt8.ofNat d.digitChar.toNat

/-- A name in the 8-4-4-4-12 layout, of version 8 and variant `10`. -/
structure UuidV8 (s : Text) : Prop where
  size : s.length = 36
  layout : ∃ a b c d e : Text,
    s = a ++ hyphen :: b ++ hyphen :: c ++ hyphen :: d ++ hyphen :: e ∧
    a.length = 8 ∧ b.length = 4 ∧ c.length = 4 ∧ d.length = 4 ∧ e.length = 12 ∧
    (∀ x ∈ a ++ b ++ c ++ d ++ e, ∃ i < 16, x = hexDigit i) ∧
    c.head? = some (hexDigit 8) ∧
    ∃ i, 8 ≤ i ∧ i < 12 ∧ d.head? = some (hexDigit i)

theorem hexPadded_numeral {width n : Nat} (some : 0 < width) (fits : n < 16 ^ width) :
    hexPadded width n = numeral 16 hexDigit width n := by
  have zero : hexDigit 0 = 48 := rfl
  rw [hexPadded, ← zero]
  apply numeral_toDigits (by decide) _ some fits
  intro d _
  rfl

/-- The first thirteen characters of a name. -/
def stamp (cycle : Nat) : Text :=
  numeral 16 hexDigit 8 (cycle / 2 ^ 16) ++ hyphen :: numeral 16 hexDigit 4 (cycle % 2 ^ 16)

theorem length_stamp (cycle : Nat) : (stamp cycle).length = 13 := by
  rw [stamp, List.length_append, List.length_cons, length_numeral, length_numeral]

/-! ### The fields -/

theorem cycle_word {cycle : Int} (early : 0 ≤ cycle) (late : cycle < 2 ^ 31) :
    (UInt32.ofInt cycle).toNat = cycle.toNat := by
  have small : (cycle % 2 ^ 32).toNat = cycle.toNat := by omega
  rw [UInt32.ofInt, small]
  apply UInt32.toNat_ofNat_of_lt'
  change cycle.toNat < 2 ^ 32
  omega

/-- The low bits of a word that a mask keeps. -/
theorem mask_toNat (x : UInt64) {m : UInt64} (bits : Nat) (ones : m.toNat = 2 ^ bits - 1) :
    (x &&& m).toNat = x.toNat % 2 ^ bits := by
  rw [UInt64.toNat_and, ones, Nat.and_two_pow_sub_one_eq_mod]

theorem toUInt32_toNat {x : UInt64} (small : x.toNat < 2 ^ 32) : x.toUInt32.toNat = x.toNat := by
  rw [UInt64.toNat_toUInt32]
  exact Nat.mod_eq_of_lt small

/-- The variant: a bit in front of fourteen. -/
theorem variant_toNat {x : UInt64} (small : x.toNat < 2 ^ 14) :
    ((0x8000 : UInt64) ||| x).toNat = 0x8000 + x.toNat := by
  rw [UInt64.toNat_or]
  exact (Nat.two_pow_add_eq_or_of_lt small 2).symm

/-- A name is its stamp and what the seed and the facts make of the rest, every field as wide as it is
printed. -/
theorem uuid8_eq (seed : UInt64) (ward cls : Int) {cycle : Int} (seq : UInt64) (early : 0 ≤ cycle)
    (late : cycle < 2 ^ 31) :
    ∃ v < 16 ^ 3, ∃ r < 0x4000, ∃ x < 16 ^ 12,
      uuid8 seed ward cls cycle seq =
        stamp cycle.toNat ++ hyphen :: hexDigit 8 :: numeral 16 hexDigit 3 v ++
          hyphen :: numeral 16 hexDigit 4 (0x8000 + r) ++ hyphen :: numeral 16 hexDigit 12 x := by
  unfold uuid8
  extract_lets facts h g ts
  have stampWord : ts.toNat = cycle.toNat := by
    have below : cycle.toNat < 2 ^ 48 := by omega
    change ((UInt32.ofInt cycle).toUInt64 &&& 0xffffffffffff).toNat = _
    rw [mask_toNat _ 48 rfl, UInt32.toNat_toUInt64, cycle_word early late,
      Nat.mod_eq_of_lt below]
  have high : (ts >>> 16).toUInt32.toNat = cycle.toNat / 2 ^ 16 := by
    have shifted : (ts >>> 16).toNat = cycle.toNat / 2 ^ 16 := by
      rw [UInt64.toNat_shiftRight, stampWord]
      exact Nat.shiftRight_eq_div_pow _ _
    rw [toUInt32_toNat _, shifted]
    rw [shifted]
    omega
  have low : (ts &&& 0xffff).toUInt32.toNat = cycle.toNat % 2 ^ 16 := by
    have masked : (ts &&& 0xffff).toNat = cycle.toNat % 2 ^ 16 := by
      rw [mask_toNat _ 16 rfl, stampWord]
    rw [toUInt32_toNat _, masked]
    rw [masked]
    omega
  have version : ((h >>> 52) &&& 0xfff).toUInt32.toNat < 16 ^ 3 := by
    have masked := mask_toNat (h >>> 52) (m := 0xfff) 12 rfl
    rw [toUInt32_toNat _, masked]
    · omega
    · rw [masked]
      omega
  have variant := mask_toNat (h >>> 36) (m := 0x3fff) 14 rfl
  have narrow : ((h >>> 36) &&& 0x3fff).toNat < 2 ^ 14 := by
    rw [variant]
    exact Nat.mod_lt _ (by decide)
  have tail := mask_toNat g (m := 0xffffffffffff) 48 rfl
  have wide : (g &&& 0xffffffffffff).toNat < 16 ^ 12 := by
    rw [tail]
    exact Nat.mod_lt _ (by decide)
  have field : ((0x8000 : UInt64) ||| ((h >>> 36) &&& 0x3fff)).toUInt32.toNat =
      0x8000 + ((h >>> 36) &&& 0x3fff).toNat := by
    rw [toUInt32_toNat _, variant_toNat narrow]
    rw [variant_toNat narrow]
    omega
  refine ⟨_, version, _, narrow, _, wide, ?_⟩
  rw [high, low, field, hexPadded_numeral (by decide) (by omega),
    hexPadded_numeral (by decide) (by omega), hexPadded_numeral (by decide) version,
    hexPadded_numeral (by decide) (by omega), hexPadded_numeral (by decide) wide]
  have one : text "-" = [hyphen] := rfl
  have eight : text "-8" = [hyphen, hexDigit 8] := rfl
  rw [one, eight, fitted, List.take_of_length_le]
  · simp [stamp]
  · simp

/-! ### Stamps -/

theorem hexDigit_apart : ∀ i < 16, ∀ j < 16, hexDigit i = hexDigit j → i = j := by decide

theorem hexDigit_mono : ∀ i j, i < j → j < 16 → hexDigit i < hexDigit j := by
  have table : ∀ j < 16, ∀ i < j, hexDigit i < hexDigit j := by decide
  intro i j less small
  exact table j small i less

theorem cycle_fields {cycle : Nat} (small : cycle < 2 ^ 31) :
    cycle / 2 ^ 16 < 16 ^ 8 ∧ cycle % 2 ^ 16 < 16 ^ 4 := by
  omega

/-- The first thirteen characters tell the cycle. -/
theorem stamp_injective {c d : Nat} (hc : c < 2 ^ 31) (hd : d < 2 ^ 31) (same : stamp c = stamp d) :
    c = d := by
  obtain ⟨front, back⟩ := List.append_inj same (by simp)
  have high := numeral_injective (by decide) hexDigit_apart (cycle_fields hc).1 (cycle_fields hd).1
    front
  have low := numeral_injective (by decide) hexDigit_apart (cycle_fields hc).2 (cycle_fields hd).2
    (List.cons_inj_right _ |>.mp back)
  omega

/-- Stamps sort by the cycle. -/
theorem stamp_lt {c d : Nat} (hd : d < 2 ^ 31) (less : c < d) : stamp c < stamp d := by
  rw [stamp, stamp]
  by_cases same : c / 2 ^ 16 = d / 2 ^ 16
  case pos =>
      have later : c % 2 ^ 16 < d % 2 ^ 16 := by omega
      rw [same]
      apply List.append_left_lt
      exact .cons (numeral_lt (by decide) hexDigit_mono (cycle_fields hd).2 later)
  case neg =>
      have earlier : c / 2 ^ 16 < d / 2 ^ 16 := by omega
      apply append_lt_append _ (by simp)
      exact numeral_lt (by decide) hexDigit_mono (cycle_fields hd).1 earlier

/-! ### Names -/

theorem hexDigit_numeral {width n : Nat} {c : UInt8} (member : c ∈ numeral 16 hexDigit width n) :
    ∃ i < 16, c = hexDigit i :=
  mem_numeral (by decide) member

theorem uuid8_shape (seed : UInt64) (ward cls : Int) {cycle : Int} (seq : UInt64) (early : 0 ≤ cycle)
    (late : cycle < 2 ^ 31) : UuidV8 (uuid8 seed ward cls cycle seq) := by
  obtain ⟨v, -, r, few, x, -, name⟩ := uuid8_eq seed ward cls seq early late
  rw [name]
  constructor
  case size => simp [length_stamp]
  case layout =>
      refine ⟨numeral 16 hexDigit 8 (cycle.toNat / 2 ^ 16), numeral 16 hexDigit 4 (cycle.toNat % 2 ^ 16),
        hexDigit 8 :: numeral 16 hexDigit 3 v, numeral 16 hexDigit 4 (0x8000 + r),
        numeral 16 hexDigit 12 x, ?_, length_numeral 8 _, length_numeral 4 _, ?_, length_numeral 4 _,
        length_numeral 12 _, ?_, rfl, ?_⟩
      · simp [stamp]
      · rw [List.length_cons, length_numeral]
      · intro y member
        simp only [List.mem_append, List.mem_cons] at member
        rcases member with (((first | second) | eight | third) | fourth) | fifth
        · exact hexDigit_numeral first
        · exact hexDigit_numeral second
        · exact ⟨8, by decide, eight⟩
        · exact hexDigit_numeral third
        · exact hexDigit_numeral fourth
        · exact hexDigit_numeral fifth
      · refine ⟨(0x8000 + r) / 16 ^ 3 % 16, ?_, ?_, ?_⟩
        · omega
        · omega
        · rw [numeral_cons]
          rfl

theorem uuid8_take (seed : UInt64) (ward cls : Int) {cycle : Int} (seq : UInt64) (early : 0 ≤ cycle)
    (late : cycle < 2 ^ 31) : (uuid8 seed ward cls cycle seq).take 13 = stamp cycle.toNat := by
  obtain ⟨v, -, r, -, x, -, name⟩ := uuid8_eq seed ward cls seq early late
  rw [name, List.append_assoc, List.append_assoc, List.take_left' (length_stamp _)]

/-- A salvage name is a UUIDv8, its first thirteen characters tell its cycle, and it comes before every
name of a later cycle. -/
theorem salvage_name (seed seed' : UInt64) (ward ward' cls cls' cycle cycle' : Int) (seq seq' : UInt64)
    (early : 0 ≤ cycle) (late : cycle ≤ 2 ^ 31 - 1) (early' : 0 ≤ cycle') (late' : cycle' ≤ 2 ^ 31 - 1) :
    UuidV8 (uuid8 seed ward cls cycle seq) ∧
      ((uuid8 seed ward cls cycle seq).take 13 = (uuid8 seed' ward' cls' cycle' seq').take 13 →
        cycle = cycle') ∧
      (cycle < cycle' →
        uuid8 seed ward cls cycle seq < uuid8 seed' ward' cls' cycle' seq') := by
  have below : cycle < 2 ^ 31 := by omega
  have below' : cycle' < 2 ^ 31 := by omega
  have small : cycle.toNat < 2 ^ 31 := by omega
  have small' : cycle'.toNat < 2 ^ 31 := by omega
  refine ⟨uuid8_shape seed ward cls seq early below, ?_, ?_⟩
  · intro same
    rw [uuid8_take _ _ _ _ early below, uuid8_take _ _ _ _ early' below'] at same
    have stamped := stamp_injective small small' same
    omega
  · intro less
    have first : stamp cycle.toNat < stamp cycle'.toNat := stamp_lt small' (by omega)
    have size : (stamp cycle.toNat).length = (stamp cycle'.toNat).length := by
      rw [length_stamp, length_stamp]
    obtain ⟨v, -, r, -, x, -, name⟩ := uuid8_eq seed ward cls seq early below
    obtain ⟨v', -, r', -, x', -, name'⟩ := uuid8_eq seed' ward' cls' seq' early' below'
    rw [name, name', List.append_assoc, List.append_assoc, List.append_assoc, List.append_assoc]
    exact append_lt_append first size _ _

theorem salvage_name_of_two_days :
    UuidV8 (uuid8 7 0 1 3 5) ∧
      ((uuid8 7 0 1 3 5).take 13 = (uuid8 9 2 3 4 0).take 13 → (3 : Int) = 4) ∧
      ((3 : Int) < 4 → uuid8 7 0 1 3 5 < uuid8 9 2 3 4 0) :=
  salvage_name 7 9 0 2 1 3 3 4 5 0 (by decide) (by decide) (by decide) (by decide)

end GyreWard
