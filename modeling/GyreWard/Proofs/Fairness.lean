/-
Module: GyreWard.Proofs.Fairness
Purpose: A number below a bound is drawn with no bias: as many words map to each number as to any
  other, and the word that counts is the first one that is taken.
Trusted boundary: none
Main exports: Takes, takes_iff, ncard_takes, ncard_residue, rngBelow_first, below_is_fair
-/
import Mathlib.Data.Set.Card
import Mathlib.Order.Interval.Finset.Nat
import GyreWard.Proofs.Keystream

namespace GyreWard

open Lib

/-! ### The words that are taken -/

/-- `rng_below` takes the word. -/
def Takes (n v : UInt32) : Bool := !(rngLimit n < v)

/-- How often `n` goes into the greatest word. -/
def share (n : UInt32) : Nat := (2 ^ 32 - 1) / n.toNat

variable {n : UInt32}

theorem share_mul_lt (n : UInt32) : share n * n.toNat < 2 ^ 32 := by
  have most := Nat.div_mul_le_self (2 ^ 32 - 1) n.toNat
  rw [share]
  omega

theorem toNat_pos (positive : n ≠ 0) : 0 < n.toNat :=
  UInt32.lt_iff_toNat_lt.mp (UInt32.pos_iff_ne_zero.mpr positive)

theorem share_pos (positive : n ≠ 0) : 0 < share n := by
  apply Nat.div_pos _ (toNat_pos positive)
  exact Nat.le_sub_one_of_lt n.toNat_lt

/-- The limit is the last word below a multiple of `n`: neither subtraction wraps. -/
theorem rngLimit_toNat (positive : n ≠ 0) : (rngLimit n).toNat = share n * n.toNat - 1 := by
  have whole : n.toNat * share n + (2 ^ 32 - 1) % n.toNat = 2 ^ 32 - 1 := Nat.div_add_mod _ _
  have some : 0 < n.toNat * share n := Nat.mul_pos (toNat_pos positive) (share_pos positive)
  have rest : (0xFFFFFFFF - 0xFFFFFFFF % n : UInt32).toNat = n.toNat * share n := by
    have less : 0xFFFFFFFF % n ≤ 0xFFFFFFFF := by
      rw [UInt32.le_iff_toNat_le, UInt32.toNat_mod]
      exact Nat.mod_le _ _
    rw [UInt32.toNat_sub_of_le _ _ less, UInt32.toNat_mod]
    change 2 ^ 32 - 1 - (2 ^ 32 - 1) % n.toNat = _
    omega
  have one : (1 : UInt32) ≤ 0xFFFFFFFF - 0xFFFFFFFF % n := by
    apply UInt32.le_iff_toNat_le.mpr
    rw [rest]
    exact some
  rw [rngLimit, UInt32.toNat_sub_of_le _ _ one, rest, Nat.mul_comm]
  rfl

/-- The words that are taken are those below `share n` times `n`. -/
theorem takes_iff {v : UInt32} (positive : n ≠ 0) :
    Takes n v = true ↔ v.toNat < share n * n.toNat := by
  have limit := rngLimit_toNat positive
  have some : 0 < share n * n.toNat := Nat.mul_pos (share_pos positive) (toNat_pos positive)
  rw [Takes, Bool.not_eq_true', decide_eq_false_iff_not, UInt32.lt_iff_toNat_lt, limit]
  omega

/-! ### How many there are -/

/-- A set of words that a function of the numbers below `k` lists, none of them twice. -/
theorem ncard_words {words : Set UInt32} {f : Nat → Nat} {k : Nat}
    (apart : ∀ i < k, ∀ j < k, f i = f j → i = j)
    (listed : ∀ v, v ∈ words ↔ ∃ i < k, f i = v.toNat) (small : ∀ i < k, f i < 2 ^ 32) :
    words.ncard = k := by
  have word {i : Nat} (below : i < k) : (UInt32.ofNat (f i)).toNat = f i :=
    UInt32.toNat_ofNat_of_lt' (small i below)
  have image : words = (fun i => UInt32.ofNat (f i)) '' (Finset.range k : Set Nat) := by
    ext v
    rw [listed]
    constructor
    · rintro ⟨i, below, value⟩
      exact ⟨i, Finset.mem_coe.mpr (Finset.mem_range.mpr below), by simp [value]⟩
    · rintro ⟨i, member, rfl⟩
      have below : i < k := Finset.mem_range.mp member
      exact ⟨i, below, (word below).symm⟩
  have injective : Set.InjOn (fun i => UInt32.ofNat (f i)) (Finset.range k : Set Nat) := by
    intro i hi j hj same
    have below : i < k := Finset.mem_range.mp hi
    have below' : j < k := Finset.mem_range.mp hj
    apply apart i below j below'
    rw [← word below, ← word below']
    exact congrArg UInt32.toNat same
  rw [image, injective.ncard_image, Set.ncard_coe_finset, Finset.card_range]

theorem ncard_takes (positive : n ≠ 0) : {v | Takes n v = true}.ncard = share n * n.toNat := by
  apply ncard_words (f := fun i => i)
  · intro i _ j _ same
    exact same
  · intro v
    rw [Set.mem_ofPred_eq, takes_iff positive]
    simp
  · intro i below
    exact below.trans (share_mul_lt n)

theorem below_share {i r : Nat} (few : i < share n) (small : r < n.toNat) :
    i * n.toNat + r < share n * n.toNat := by
  have room : (i + 1) * n.toNat ≤ share n * n.toNat := Nat.mul_le_mul_right _ few
  rw [Nat.add_one_mul] at room
  omega

/-- The words that map to `r` are `r`, `r + n`, `r + 2n` and so on. -/
theorem residue_iff (positive : n ≠ 0) {r v : UInt32} (below : r < n) :
    Takes n v = true ∧ v % n = r ↔ ∃ i < share n, i * n.toNat + r.toNat = v.toNat := by
  have small : r.toNat < n.toNat := UInt32.lt_iff_toNat_lt.mp below
  rw [takes_iff positive, ← UInt32.toNat_inj, UInt32.toNat_mod]
  constructor
  · rintro ⟨taken, residue⟩
    exists v.toNat / n.toNat
    constructor
    · exact Nat.div_lt_of_lt_mul (by rwa [Nat.mul_comm])
    · rw [← residue, Nat.div_add_mod']
  · rintro ⟨i, few, value⟩
    rw [← value]
    constructor
    · exact below_share few small
    · rw [Nat.add_comm, Nat.add_mul_mod_self_right, Nat.mod_eq_of_lt small]

theorem ncard_residue (positive : n ≠ 0) {r : UInt32} (below : r < n) :
    {v | Takes n v = true ∧ v % n = r}.ncard = share n := by
  apply ncard_words (f := fun i => i * n.toNat + r.toNat)
  · intro i _ j _ same
    exact Nat.eq_of_mul_eq_mul_right (toNat_pos positive) (Nat.add_right_cancel same)
  · intro v
    exact residue_iff positive below
  · intro i few
    exact (below_share few (UInt32.lt_iff_toNat_lt.mp below)).trans (share_mul_lt n)

/-- At least half of all words are taken. -/
theorem half_taken (positive : n ≠ 0) : 2 ^ 31 ≤ share n * n.toNat := by
  have whole : n.toNat * share n + (2 ^ 32 - 1) % n.toNat = 2 ^ 32 - 1 := Nat.div_add_mod _ _
  have rest : (2 ^ 32 - 1) % n.toNat < n.toNat := Nat.mod_lt _ (toNat_pos positive)
  have once : n.toNat ≤ share n * n.toNat := Nat.le_mul_of_pos_left _ (share_pos positive)
  rw [Nat.mul_comm] at whole
  omega

/-! ### The loop -/

theorem rngBelowLoop_succ (n : UInt32) (turns : Nat) (r : Rng) :
    rngBelowLoop n (turns + 1) r =
      if Takes n (rngNext r).1 = true then some ((rngNext r).1 % n, (rngNext r).2)
      else rngBelowLoop n turns (rngNext r).2 := by
  simp only [rngBelowLoop, Takes, Bool.not_eq_true', decide_eq_false_iff_not, ite_not]

/-- The loop is a rejection by `Takes`. -/
theorem rngBelowLoop_eq (n : UInt32) (turns : Nat) (r : Rng) :
    rngBelowLoop n turns r =
      (rejecting rngNext (Takes n) turns r).map fun d => (d.1 % n, d.2) := by
  induction turns generalizing r with
  | zero => rfl
  | succ turns ih =>
      rw [rngBelowLoop_succ, rejecting, ih]
      split <;> rfl

/-- A source repeats itself once what is left of its block is handed out. -/
theorem drawn_repeats (r : Rng) {j : Nat} (late : 16 - r.used ≤ j) :
    drawn rngNext r (j + 2 ^ 68) = drawn rngNext r j := by
  obtain ⟨i, rfl⟩ := Nat.exists_eq_add_of_le late
  have block : (i + 2 ^ 68) / 16 = i / 16 + 2 ^ 64 := by omega
  have place : (i + 2 ^ 68) % 16 = i % 16 := by omega
  rw [Nat.add_assoc, drawn_late, drawn_late, block, place, Function.iterate_add_apply,
    bumpCounter_period]

/-- The first word that is taken is the one that counts, and nothing behind it is drawn. -/
theorem rngBelow_first (positive : n ≠ 0) {r : Rng} {k : Nat}
    (taken : Takes n (drawn rngNext r k) = true)
    (passed : ∀ j < k, ¬ Takes n (drawn rngNext r j) = true) :
    rngBelow r n = some (drawn rngNext r k % n, after rngNext (k + 1) r) := by
  have within : k < 16 - r.used + 2 ^ 68 :=
    first_within (by decide) (fun j late => drawn_repeats r late) taken passed
  rw [rngBelow, if_neg positive, rngBelowLoop_eq, rejecting_first _ taken passed]
  · rfl
  · omega

/-- Where no word of the source is taken, the loop never ends. -/
theorem rngBelow_never (positive : n ≠ 0) {r : Rng}
    (passed : ∀ j, ¬ Takes n (drawn rngNext r j) = true) : rngBelow r n = none := by
  rw [rngBelow, if_neg positive, rngBelowLoop_eq, rejecting_never fun j _ => passed j]
  rfl

/-- A bound on a draw: every number below it has the same share of the words, at least half of all
words are taken, and the first one that is taken decides, in every source. -/
theorem below_is_fair (n : UInt32) (r : Rng) :
    (n ≠ 0 →
      (∀ v < n, {w | Takes n w = true ∧ w % n = v}.ncard = (2 ^ 32 - 1) / n.toNat) ∧
      2 ^ 31 ≤ {w | Takes n w = true}.ncard ∧
      (∀ k, Takes n (drawn rngNext r k) = true →
        (∀ j < k, ¬ Takes n (drawn rngNext r j) = true) →
        rngBelow r n = some (drawn rngNext r k % n, after rngNext (k + 1) r)) ∧
      ((∀ j, ¬ Takes n (drawn rngNext r j) = true) → rngBelow r n = none)) ∧
    rngBelow r 0 = some (0, r) := by
  constructor
  · intro positive
    refine ⟨?_, ?_, ?_, ?_⟩
    · intro v below
      exact ncard_residue positive below
    · rw [ncard_takes positive]
      exact half_taken positive
    · intro k taken passed
      exact rngBelow_first positive taken passed
    · exact rngBelow_never positive
  · rfl

end GyreWard
