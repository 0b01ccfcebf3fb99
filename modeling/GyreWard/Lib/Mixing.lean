/-
Module: GyreWard.Lib.Mixing
Purpose: Steps of a mixing function that lose nothing of a word, and fields of a word that keep apart.
Trusted boundary: none
Main exports: xorShift_injective, mul_injective_of_inverse, bijective_of_injective, fields_injective
-/
import Mathlib.Data.Nat.Bitwise
import Mathlib.Data.Fintype.EquivFin

namespace Lib

/-! ### Steps -/

/-- A word and its own upper bits: the highest bits are left as they are, and give away the others. -/
theorem xorShift_injective {w s : Nat} (positive : 0 < s) :
    Function.Injective fun x : BitVec w => x ^^^ (x >>> s) := by
  intro x y same
  have bit : ∀ i, (x.getLsbD i ^^ x.getLsbD (s + i)) = (y.getLsbD i ^^ y.getLsbD (s + i)) := by
    intro i
    have whole := congrArg (fun z : BitVec w => z.getLsbD i) same
    simpa using whole
  -- from the highest bit down
  have below : ∀ n i, w ≤ i + n → x.getLsbD i = y.getLsbD i := by
    intro n
    induction n with
    | zero =>
        intro i above
        rw [BitVec.getLsbD_of_ge x i above, BitVec.getLsbD_of_ge y i above]
    | succ n ih =>
        intro i above
        have upper := ih (s + i) (by omega)
        have here := bit i
        rw [upper] at here
        exact Bool.xor_right_inj.mp (by rwa [Bool.xor_comm, Bool.xor_comm (y.getLsbD (s + i))])
  apply BitVec.eq_of_getLsbD_eq
  intro i _
  exact below w i (Nat.le_add_left w i)

theorem xorShift64_injective {s : UInt64} (positive : 0 < s.toNat % 64) :
    Function.Injective fun x : UInt64 => x ^^^ (x >>> s) := by
  intro x y same
  apply UInt64.toBitVec_inj.mp
  apply xorShift_injective positive
  have words := congrArg UInt64.toBitVec same
  simpa using words

/-- A factor that has an inverse can be taken away again. -/
theorem mul_injective_of_inverse {a b : UInt64} (inverse : a * b = 1) :
    Function.Injective fun x : UInt64 => x * a := by
  intro x y same
  have undone := congrArg (fun z : UInt64 => z * b) same
  simpa [UInt64.mul_assoc, inverse] using undone

theorem add_injective (a : UInt64) : Function.Injective fun x : UInt64 => x + a :=
  fun _ _ same => (UInt64.add_left_inj a).mp same

/-- There are only so many words: what loses none reaches all. -/
theorem bijective_of_injective {f : UInt64 → UInt64} (injective : Function.Injective f) :
    Function.Bijective f := by
  have finite : Finite UInt64 := by
    apply Finite.of_injective (fun x : UInt64 => x.toBitVec.toFin)
    intro x y same
    exact UInt64.toBitVec_inj.mp (BitVec.toFin_inj.mp same)
  exact Finite.injective_iff_bijective.mp injective

/-! ### Fields -/

/-- A number above a field, and what is in the field. -/
theorem fields_injective {k hi hi' lo lo' : Nat} (fits : lo < 2 ^ k) (fits' : lo' < 2 ^ k)
    (same : hi <<< k ^^^ lo = hi' <<< k ^^^ lo') : hi = hi' ∧ lo = lo' := by
  have upper (hi lo : Nat) (fits : lo < 2 ^ k) : (hi <<< k ^^^ lo) >>> k = hi := by
    have gone : lo >>> k = 0 := by
      rw [Nat.shiftRight_eq_div_pow]
      exact Nat.div_eq_of_lt fits
    rw [Nat.shiftRight_xor_distrib, gone, Nat.shiftLeft_shiftRight, Nat.xor_zero]
  have lower (hi lo : Nat) (fits : lo < 2 ^ k) : (hi <<< k ^^^ lo) % 2 ^ k = lo := by
    rw [Nat.xor_mod_two_pow, Nat.shiftLeft_eq, Nat.mul_mod_left, Nat.zero_xor, Nat.mod_eq_of_lt fits]
  constructor
  · rw [← upper hi lo fits, same, upper hi' lo' fits']
  · rw [← lower hi lo fits, same, lower hi' lo' fits']

end Lib
