/-
Module: GyreWard.Proofs.Sleep
Purpose: How long the server sleeps, against how long it may.
Trusted boundary: none
Main exports: micros_of_delta, armTimer_micros, the_timer_is_exact_iff, an_idle_ward_keeps_waking
-/
import Mathlib.Algebra.Group.Int.Defs
import Mathlib.Algebra.Group.Nat.Defs
import GyreWard.Model.Timer

namespace GyreWard

/-- A delay that is split into seconds and nanoseconds is the delay. -/
theorem micros_of_delta (delta : Int) :
    (Itimerspec.mk (delta.tdiv 1000000) (delta.tmod 1000000 * 1000)).micros = delta := by
  have whole := Int.tmod_add_mul_tdiv delta 1000000
  have nano : (delta.tmod 1000000 * 1000).tdiv 1000 = delta.tmod 1000000 :=
    Int.mul_tdiv_cancel _ (by decide)
  change delta.tdiv 1000000 * 1000000 + (delta.tmod 1000000 * 1000).tdiv 1000 = delta
  rw [nano]
  omega

/-- A word read as a signed number. -/
theorem toInt64_toInt (x : UInt64) :
    x.toInt64.toInt = if x.toNat < 2 ^ 63 then (x.toNat : Int) else x.toNat - 2 ^ 64 := by
  change x.toBitVec.toInt = _
  rw [BitVec.toInt_eq_toNat_cond]
  change (if 2 * x.toNat < 2 ^ 64 then (x.toNat : Int) else x.toNat - (2 ^ 64 : Nat)) = _
  by_cases low : x.toNat < 2 ^ 63
  · rw [if_pos low, if_pos (by omega)]
  · rw [if_neg low, if_neg (by omega)]
    rfl

/-- The timer holds the signed difference, and never less than a millisecond. -/
theorem armTimer_micros (quic : Quic) (now : UInt64) :
    (armTimer quic now).micros = max 1000 (nextWakeTime quic now - now).toInt64.toInt := by
  unfold armTimer
  dsimp only
  split
  · next short =>
      rw [micros_of_delta]
      omega
  · next long =>
      rw [micros_of_delta]
      omega

/-- What the signed difference is, for a wake time before or after now. -/
theorem difference (next now : UInt64) :
    (next - now).toNat = if now.toNat ≤ next.toNat then next.toNat - now.toNat
      else next.toNat + 2 ^ 64 - now.toNat := by
  have small := next.toNat_lt
  have small' := now.toNat_lt
  rw [UInt64.toNat_sub]
  split
  · next ahead =>
      have turn : 2 ^ 64 - now.toNat + next.toNat = next.toNat - now.toNat + 2 ^ 64 := by omega
      rw [turn, Nat.add_mod_right]
      exact Nat.mod_eq_of_lt (by omega)
  · next behind =>
      have sum : 2 ^ 64 - now.toNat + next.toNat = next.toNat + 2 ^ 64 - now.toNat := by omega
      rw [sum]
      exact Nat.mod_eq_of_lt (by omega)

/-- The delay is the one that was asked for, and at least a millisecond, exactly when a packet is pending,
or the earliest connection wakes within the next 2^63 microseconds. -/
theorem the_timer_is_exact_iff (quic : Quic) (now : UInt64) (sane : now.toNat < 2 ^ 62) :
    (armTimer quic now).micros = max 1000 ((nextWakeTime quic now).toNat - now.toNat : Int) ↔
      quic.pendingStatelessPacket = true ∨
        ∃ first, quic.cnxWakeTree.head? = some first ∧ first.toNat < now.toNat + 2 ^ 63 := by
  have near (next : UInt64) :
      max 1000 (next - now).toInt64.toInt = max 1000 (next.toNat - now.toNat : Int) ↔
        next.toNat < now.toNat + 2 ^ 63 := by
    have small := next.toNat_lt
    rw [toInt64_toInt, difference]
    split
    · split
      · omega
      · omega
    · split
      · omega
      · omega
  rw [armTimer_micros, near, nextWakeTime]
  by_cases pending : quic.pendingStatelessPacket = true
  · rw [if_pos pending]
    constructor
    · intro _
      exact .inl pending
    · intro _
      omega
  · rw [if_neg pending]
    cases earliest : quic.cnxWakeTree.head? with
    | none =>
        have last : never.toNat = 2 ^ 64 - 1 := rfl
        constructor
        · intro soon
          dsimp only at soon
          omega
        · rintro (there | ⟨_, there, -⟩)
          · exact absurd there pending
          · cases there
    | some first =>
        constructor
        · intro soon
          exact .inr ⟨first, rfl, soon⟩
        · rintro (there | ⟨_, there, soon⟩)
          · exact absurd there pending
          · obtain rfl := Option.some.inj there
            exact soon

/-- A connection that wakes in two milliseconds. -/
theorem two_milliseconds_are_slept :
    (armTimer ⟨false, [7000]⟩ 5000).micros =
      max 1000 ((nextWakeTime ⟨false, [7000]⟩ 5000).toNat - (5000 : UInt64).toNat : Int) :=
  (the_timer_is_exact_iff ⟨false, [7000]⟩ 5000 (by decide)).mpr
    (.inr ⟨7000, rfl, by decide⟩)

/-- With nobody connected the next wake is never, and the timer fires in a millisecond. -/
theorem an_idle_ward_is_woken :
    ¬ ∀ (quic : Quic) (now : UInt64), now.toNat < 2 ^ 62 →
        (armTimer quic now).micros = max 1000 ((nextWakeTime quic now).toNat - now.toNat : Int) := by
  intro claim
  exact absurd (claim ⟨false, []⟩ 5000 (by decide)) (by decide +kernel)

/-- A ward with nobody connected is woken a thousand times a second, as long as the clock goes. -/
theorem an_idle_ward_keeps_waking (now : UInt64) (n : Nat) (sane : now.toNat + 1000 * n < 2 ^ 62) :
    (wakeAt ⟨false, []⟩ now n).toNat = now.toNat + 1000 * n := by
  induction n generalizing now with
  | zero => rfl
  | succ n ih =>
      rw [Nat.mul_succ, ← Nat.add_assoc] at sane
      have later : (now + UInt64.ofInt 1000).toNat = now.toNat + 1000 := by
        have within : now.toNat + 1000 < 2 ^ 64 := by omega
        have step : (UInt64.ofInt 1000).toNat = 1000 := by decide +kernel
        rw [UInt64.toNat_add, step, Nat.mod_eq_of_lt within]
      have last : never.toNat = 2 ^ 64 - 1 := rfl
      have millisecond : (armTimer ⟨false, []⟩ now).micros = 1000 := by
        have next : nextWakeTime ⟨false, []⟩ now = never := rfl
        rw [armTimer_micros, next, toInt64_toInt, difference, last]
        split
        · split
          · omega
          · omega
        · split
          · omega
          · omega
      have rest := ih (now + UInt64.ofInt 1000) (by omega)
      rw [wakeAt, millisecond, rest, later]
      rw [Nat.mul_succ, Nat.add_assoc, Nat.add_comm 1000]

end GyreWard
