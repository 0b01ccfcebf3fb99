/-
Module: GyreWard.Lib.Numerals
Purpose: Numbers written with a fixed number of digits: they can be read back, and they sort as the
  numbers do.
Trusted boundary: none
Main exports: numeral, length_numeral, numeral_injective, numeral_lt, numeral_toDigits,
  append_lt_append
-/
import Mathlib.Algebra.Group.Nat.Defs
import Mathlib.Data.List.Basic

namespace Lib

variable {α : Type} {base : Nat} {digit : Nat → α}

/-- The `width` low digits of a number, the highest first. -/
def numeral (base : Nat) (digit : Nat → α) : Nat → Nat → List α
  | 0, _ => []
  | width + 1, n => numeral base digit width (n / base) ++ [digit (n % base)]

@[simp] theorem length_numeral (width n : Nat) : (numeral base digit width n).length = width := by
  induction width generalizing n with
  | zero => rfl
  | succ width ih => rw [numeral, List.length_append, ih, List.length_singleton]

/-- The first digit, and the rest. -/
theorem numeral_cons (width n : Nat) :
    numeral base digit (width + 1) n =
      digit (n / base ^ width % base) :: numeral base digit width n := by
  induction width generalizing n with
  | zero => rw [Nat.pow_zero, Nat.div_one]; rfl
  | succ width ih =>
      rw [numeral, ih, Nat.div_div_eq_div_mul, ← Nat.pow_succ', numeral, List.cons_append]

theorem mem_numeral {width n : Nat} {c : α} (positive : 0 < base)
    (member : c ∈ numeral base digit width n) : ∃ d < base, c = digit d := by
  induction width generalizing n with
  | zero => cases member
  | succ width ih =>
      rcases List.mem_append.mp member with high | low
      · exact ih high
      · exact ⟨n % base, Nat.mod_lt n positive, List.mem_singleton.mp low⟩

theorem div_base_lt {width n : Nat} (small : n < base ^ (width + 1)) : n / base < base ^ width := by
  apply Nat.div_lt_of_lt_mul
  rwa [Nat.mul_comm, ← Nat.pow_succ]

/-- A numeral gives its number back. -/
theorem numeral_injective (positive : 0 < base)
    (apart : ∀ i < base, ∀ j < base, digit i = digit j → i = j) {width n m : Nat}
    (hn : n < base ^ width) (hm : m < base ^ width)
    (same : numeral base digit width n = numeral base digit width m) : n = m := by
  induction width generalizing n m with
  | zero =>
      rw [Nat.pow_zero] at hn hm
      omega
  | succ width ih =>
      obtain ⟨high, low⟩ := List.append_inj same (by simp)
      have quotient := ih (div_base_lt hn) (div_base_lt hm) high
      have rest := apart _ (Nat.mod_lt n positive) _ (Nat.mod_lt m positive) (List.singleton_inj.mp low)
      rw [← Nat.div_add_mod n base, quotient, rest, Nat.div_add_mod]

section Order

variable [LT α]

/-- A text that comes first does so whatever follows, among texts of one length. -/
theorem append_lt_append {a b : List α} (before : a < b) (alike : a.length = b.length)
    (s t : List α) : a ++ s < b ++ t := by
  induction before with
  | nil => cases alike
  | rel first => exact .rel first
  | cons _ ih => exact .cons (ih (Nat.succ.inj alike))

/-- Numerals sort as their numbers. -/
theorem numeral_lt (positive : 0 < base) (mono : ∀ i j, i < j → j < base → digit i < digit j)
    {width n m : Nat} (hm : m < base ^ width) (less : n < m) :
    numeral base digit width n < numeral base digit width m := by
  induction width generalizing n m with
  | zero =>
      rw [Nat.pow_zero] at hm
      omega
  | succ width ih =>
      rw [numeral, numeral]
      by_cases quotient : n / base = m / base
      case pos =>
          rw [quotient]
          apply List.append_left_lt
          apply List.Lex.rel
          apply mono _ _ _ (Nat.mod_lt m positive)
          have whole := Nat.div_add_mod n base
          have whole' := Nat.div_add_mod m base
          rw [quotient] at whole
          omega
      case neg =>
          have first : n / base < m / base :=
            Nat.lt_of_le_of_ne (Nat.div_le_div_right (Nat.le_of_lt less)) quotient
          exact append_lt_append (ih (div_base_lt hm) first) (by simp) _ _

end Order

theorem numeral_zero (width : Nat) :
    numeral base digit width 0 = List.replicate width (digit 0) := by
  induction width with
  | zero => rfl
  | succ width ih => rw [numeral, Nat.zero_div, Nat.zero_mod, ih, List.replicate_succ']

/-- The digits of a number that fits, filled up with zeros, are its numeral. -/
theorem numeral_toDigits {letter : Char → α} (two : 1 < base)
    (letters : ∀ d < base, letter d.digitChar = digit d) {width n : Nat} (some : 0 < width)
    (fits : n < base ^ width) :
    List.replicate (width - ((Nat.toDigits base n).map letter).length) (digit 0) ++
      (Nat.toDigits base n).map letter = numeral base digit width n := by
  induction width generalizing n with
  | zero => cases some
  | succ width ih =>
      by_cases single : n < base
      case pos =>
          rw [Nat.toDigits_of_lt_base single, numeral, Nat.div_eq_of_lt single, Nat.mod_eq_of_lt single,
            numeral_zero, List.map_singleton, letters n single]
          rfl
      case neg =>
          have long : base ≤ n := Nat.le_of_not_lt single
          have more : 0 < width := by
            apply Nat.pos_of_ne_zero
            rintro rfl
            rw [Nat.zero_add, Nat.pow_one] at fits
            exact single fits
          have front := ih more (div_base_lt fits)
          rw [Nat.toDigits_of_base_le two long, numeral, ← front, List.map_append, List.map_singleton,
            letters _ (Nat.mod_lt n (Nat.zero_lt_of_lt two)), List.length_append, List.length_singleton,
            Nat.add_sub_add_right, List.append_assoc]

end Lib
