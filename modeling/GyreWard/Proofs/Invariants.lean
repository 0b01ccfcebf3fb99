/-
Module: GyreWard.Proofs.Invariants
Purpose: What the calls under the commands keep of a ward holds in every world a service comes through.
Trusted boundary: none
Main exports: WardInvariant, WardInvariant.command, WardInvariant.reached
-/
import GyreWard.Model.Service
import GyreWard.Proofs.Reply

namespace GyreWard

open Lib
open Lib.Action (Leaves wp)

/-- The call keeps `I` of the ward, whether it succeeds or fails. -/
abbrev KeepsWard {α : Type} (I : Gyre → Prop) (x : Action World α) (w : World) : Prop :=
  wp x (fun _ w' => I w'.g) (fun w' => I w'.g) w

/-- A cycle, a building and a payment by hand keep `I`, and a ward founded on zeros has it. -/
structure WardInvariant (I : Gyre → Prop) : Prop where
  cycle : ∀ {w : World}, I w.g → KeepsWard I cycle w
  build : ∀ (i : Int) {w : World}, I w.g → KeepsWard I (buildVenue i) w
  pay : ∀ (i : Nat) (amount : Int) {w : World}, I w.g → KeepsWard I (payAlone i amount none) w
  found : ∀ (n : Nat) (seed : UInt64) {w : World}, w.g = Gyre.zero →
    KeepsWard I (foundWard liveName n seed 0) w

namespace WardInvariant

variable {I : Gyre → Prop} {w : World}

theorem cycleLoop (inv : WardInvariant I) (n : Nat) (holds : I w.g) : KeepsWard I (cycleLoop n) w := by
  induction n generalizing w with
  | zero => exact holds
  | succ n ih =>
      unfold KeepsWard GyreWard.cycleLoop
      rw [Action.wp_bind, Action.wp_attempt]
      apply Action.wp_mono (inv.cycle holds)
      · intro _ w₁ holds₁
        rw [Action.wp_bind]
        have same : Leaves (fun w : World => w.g) honest := asks_honest.leaves _ fun _ _ => rfl
        apply Action.wp_mono (same.wp w₁)
        · intro honest w₂ same
          rw [← same] at holds₁
          apply Action.wp_ite
          · intro _
            exact ih holds₁
          · intro _
            exact holds₁
        · intro w₂ same
          rw [← same] at holds₁
          exact holds₁
      · intro _ holds₁
        exact holds₁

/-- Every command keeps it, whatever the plane fails. -/
theorem command (inv : WardInvariant I) (c : Command) (holds : I w.g) : KeepsWard I c.run w := by
  cases c with
  | look => exact holds
  | quit => exact holds
  | unknown => exact holds
  | cycle n =>
      change wp (runCycle n) _ _ w
      unfold runCycle
      rw [Action.wp_bind]
      apply Action.wp_mono (inv.cycleLoop _ holds) _ fun _ holds => holds
      intro why w' holds
      cases why with
      | none => exact holds
      | some _ => exact holds
  | commission venue =>
      change wp (runCommission venue) _ _ w
      unfold runCommission
      rw [Action.wp_bind, Action.wp_attempt]
      exact inv.build _ holds
  | pay who amount =>
      change wp (runPay who amount) _ _ w
      unfold runPay
      rw [Action.wp_bind, Action.wp_read]
      cases findSpark (who.getD (-1)) w.g.sparks with
      | none => exact holds
      | some i =>
          apply Action.wp_ite
          · intro _
            exact holds
          · intro _
            rw [Action.wp_bind, Action.wp_attempt]
            exact inv.pay i _ holds
  | restart =>
      change wp runRestart _ _ w
      unfold runRestart
      rw [Action.wp_bind, Action.wp_read, Action.wp_bind]
      change wp _ _ _ (w.setGyre _)
      rw [Action.wp_bind]
      change wp _ _ _ ((w.setGyre _).setGyre fun _ => Gyre.zero)
      rw [Action.wp_bind, Action.wp_attempt]
      exact inv.found _ _ rfl

/-- It holds of the ward in every world a service comes through. -/
theorem reached (inv : WardInvariant I) (reached : Reached w) : I w.g := by
  induction reached with
  | founded founds => exact Action.wp_ret (inv.found _ _ founds.zeroed) founds.founded
  | served _ serves holds =>
      have ⟨c, _, middle, ran, replied⟩ := serves.served
      have after : I middle.g := Action.wp_ret (inv.command _ holds) ran
      rw [(asks_wardReply _ c).same_g replied]
      exact after

end WardInvariant

end GyreWard
