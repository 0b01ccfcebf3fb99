/-
Module: GyreWard.Lib.Draws
Purpose: A source that hands out one value at a time, and the loop that draws until it is handed a
  value it takes.
Trusted boundary: none
Main exports: after, drawn, rejecting, rejecting_first, rejecting_never, first_within
-/
import Mathlib.Logic.Function.Iterate

namespace Lib

variable {σ α : Type} (next : σ → α × σ)

/-- The source after `k` draws. -/
def after (k : Nat) (s : σ) : σ := (fun s => (next s).2)^[k] s

/-- What draw `k` hands out, counted from 0. -/
def drawn (s : σ) (k : Nat) : α := (next (after next k s)).1

@[simp] theorem after_zero (s : σ) : after next 0 s = s := rfl

theorem after_succ (k : Nat) (s : σ) : after next (k + 1) s = after next k (next s).2 := rfl

theorem after_add (j k : Nat) (s : σ) : after next (j + k) s = after next k (after next j s) := by
  rw [after, Nat.add_comm, Function.iterate_add_apply]
  rfl

@[simp] theorem drawn_zero (s : σ) : drawn next s 0 = (next s).1 := rfl

theorem drawn_succ (s : σ) (k : Nat) : drawn next s (k + 1) = drawn next (next s).2 k := rfl

theorem drawn_after (j k : Nat) (s : σ) : drawn next (after next j s) k = drawn next s (j + k) := by
  rw [drawn, drawn, after_add]

/-! ### Rejection -/

/-- Draw until a value is taken, at most `turns` times. -/
def rejecting (takes : α → Bool) : Nat → σ → Option (α × σ)
  | 0, _ => none
  | turns + 1, s =>
      if takes (next s).1 then some (next s) else rejecting takes turns (next s).2

variable {next} {takes : α → Bool}

/-- The loop stops at the first value that is taken, right behind it. -/
theorem rejecting_first {k turns : Nat} {s : σ} (within : k < turns)
    (taken : takes (drawn next s k)) (passed : ∀ j < k, ¬ takes (drawn next s j)) :
    rejecting next takes turns s = some (drawn next s k, after next (k + 1) s) := by
  induction k generalizing turns s with
  | zero =>
      cases turns with
      | zero => cases within
      | succ turns => exact if_pos taken
  | succ k ih =>
      cases turns with
      | zero => cases within
      | succ turns =>
          have first : ¬ takes (next s).1 := passed 0 (Nat.zero_lt_succ k)
          rw [rejecting, if_neg first, drawn_succ, after_succ]
          apply ih (Nat.lt_of_succ_lt_succ within) taken
          intro j before
          exact passed (j + 1) (Nat.succ_lt_succ before)

/-- Where no value is taken the loop does not come back. -/
theorem rejecting_never {turns : Nat} {s : σ} (passed : ∀ j < turns, ¬ takes (drawn next s j)) :
    rejecting next takes turns s = none := by
  induction turns generalizing s with
  | zero => rfl
  | succ turns ih =>
      have first : ¬ takes (next s).1 := passed 0 (Nat.zero_lt_succ turns)
      rw [rejecting, if_neg first]
      apply ih
      intro j before
      exact passed (j + 1) (Nat.succ_lt_succ before)

/-- A source that repeats itself after `start` draws, with period `p`, hands out the first value that
is taken before its first period ends. -/
theorem first_within {start p k : Nat} {s : σ} (positive : 0 < p)
    (repeats : ∀ j, start ≤ j → drawn next s (j + p) = drawn next s j)
    (taken : takes (drawn next s k)) (passed : ∀ j < k, ¬ takes (drawn next s j)) :
    k < start + p := by
  by_contra late
  have split : k - p + p = k := by omega
  have same := repeats (k - p) (by omega)
  rw [split] at same
  rw [same] at taken
  exact passed (k - p) (by omega) taken

end Lib
