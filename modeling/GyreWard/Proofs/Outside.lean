/-
Module: GyreWard.Proofs.Outside
Purpose: What stands outside a ward and its plane: what fails and when, and what the store holds.  No
  call changes it.
Trusted boundary: none
Main exports: World.outside, Contained, contained_group, contained_foundWard, contained_cycle, contained_payAlone,
  contained_command, Serves.outside
-/
import GyreWard.Model.Service
import GyreWard.Proofs.Moves
import GyreWard.Proofs.Reply

namespace GyreWard

open Lib
open Lib.Action (MadeOf Leaves)

def World.outside (w : World) : Outside := w.plane.outside

/-- Code put together from calls that change nothing outside. -/
abbrev Contained (α : Type) (x : Action World α) : Prop :=
  MadeOf (fun _ y => Leaves World.outside y) α x

theorem Contained.leaves {α : Type} {x : Action World α} (made : Contained α x) :
    Leaves World.outside x :=
  MadeOf.leaves made fun _ _ contained => contained

theorem contained_asks {α : Type} {x : Action World α} (asks : Asks x) : Contained α x :=
  .move (asks.leaves World.outside fun _ _ => rfl)

theorem contained_remember (f : Gyre → Gyre) : Contained Unit (remember f) := .move fun _ => rfl

theorem contained_inside {α : Type} {x : Action World α} (made : MadeOf Inside α x) :
    Contained α x := by
  apply made.mono
  intro _ _ inside
  cases inside with
  | fallible => exact contained_asks asks_fallible
  | update f =>
      apply MadeOf.move
      intro w
      unfold update
      split <;> rfl
  | remember f => exact contained_remember f
  | takePart h => exact .move fun _ => rfl
  | enlist h => exact .move fun _ => rfl

theorem contained_moves {α : Type} {x : Action World α} (made : MadeOf Move α x) : Contained α x :=
  contained_inside (made.mono fun _ _ moves => moves.inside)

/-- A group begins and ends without a change outside. -/
theorem contained_group {α : Type} {x : Action World α} (made : MadeOf GroupMove α x) :
    Contained α x := by
  apply made.mono
  intro _ _ moves
  cases moves with
  | fallible => exact contained_asks asks_fallible
  | plane inside => exact .move fun w => inside w.plane
  | group f => exact .move fun _ => rfl
  | beginWard => exact contained_inside (.move (.update _))
  | beginSpark i => exact contained_inside (.move (.update _))
  | commitWard => exact contained_inside (.move (.update _))
  | commitSpark i => exact contained_inside (.move (.update _))
  | rollbackWard => exact contained_remember _
  | rollbackSpark i => exact contained_remember _

/-! ### Calls -/

theorem contained_joinWard (id : Int) : Contained Unit (joinWard id) :=
  contained_inside ((made_joinWard id).mono fun _ _ moves => moves.inside)

theorem contained_foundWard (dbPrefix : Text) (n : Nat) (seed : UInt64) (base : Int) :
    Contained Unit (foundWard dbPrefix n seed base) := by
  have asked : Contained Unit fallible := contained_asks asks_fallible
  have ran : ∀ stmt, Contained Unit (runWard stmt) := fun stmt =>
    contained_inside (.bind (.move .fallible) fun _ => .move (.update _))
  have opened : ∀ name, Contained Unit (openWard name) := fun name =>
    .bind (contained_remember _) fun _ => .bind (.read _) fun _ => .bind asked fun _ =>
      .bind asked fun _ => .bind asked fun _ => .bind (.read _) fun _ => contained_remember _
  have listed : ∀ i v, Contained Unit (foundVenue i v) := fun i v =>
    .bind (.read _) fun _ => .bind (made_wireIdOrExit _ _) fun _ => ran _
  apply MadeOf.bind (opened _)
  intro _
  apply MadeOf.bind (contained_remember _)
  intro _
  apply MadeOf.bind (ran _)
  intro _
  apply MadeOf.bind (ran _)
  intro _
  apply MadeOf.bind (.forEach fun p _ => listed p.2 p.1)
  intro _
  apply MadeOf.bind (contained_remember _)
  intro _
  apply MadeOf.bind (.read _)
  intro g
  apply MadeOf.bind (made_wireIdOrExit _ _)
  intro wire
  exact .bind (ran _) fun _ => .forEach fun i _ => contained_joinWard _

theorem contained_cycle : Contained Unit cycle := by
  apply MadeOf.bind (contained_remember _)
  intro _
  apply MadeOf.bind (contained_group grouped_groupBegin)
  intro _
  apply MadeOf.bind (.onFail (contained_moves made_cycleWrites) (contained_group grouped_groupAbort))
  intro arriving
  apply MadeOf.bind (contained_group grouped_groupCommit)
  intro _
  exact .ite (fun _ => .bind (.read _) fun _ => contained_joinWard _) fun _ => .pure _

theorem contained_payAlone (i : Nat) (amount : Int) (item : Option (Text × Text)) :
    Contained Unit (payAlone i amount item) := by
  apply MadeOf.bind (contained_group grouped_groupBegin)
  intro _
  apply MadeOf.bind (.onFail (contained_moves (made_pay i amount item)) (contained_group grouped_groupAbort))
  intro _
  exact .onFail (contained_group grouped_groupCommit) (contained_remember _)

theorem contained_cycleLoop (n : Nat) : Contained (Option Text) (cycleLoop n) := by
  induction n with
  | zero => exact .pure _
  | succ n ih =>
      apply MadeOf.bind (.attempt contained_cycle)
      intro cycled
      cases cycled with
      | none => exact .pure _
      | some _ =>
          apply MadeOf.bind (contained_asks asks_honest)
          intro honest
          exact .ite (fun _ => ih) fun _ => .pure _

/-- No command changes anything outside. -/
theorem contained_command (command : Command) : Contained Answer command.run := by
  cases command with
  | look => exact .pure _
  | cycle n =>
      apply MadeOf.bind (contained_cycleLoop _)
      intro why
      cases why with
      | none => exact .pure _
      | some _ => exact .pure _
  | commission venue =>
      apply MadeOf.bind (.attempt (contained_moves (made_of_writes (made_buildVenue _))))
      intro built
      cases built with
      | none => exact .pure _
      | some _ => exact .pure _
  | pay who amount =>
      apply MadeOf.bind (.read _)
      intro g
      cases found : findSpark (who.getD (-1)) g.sparks with
      | none => exact .pure _
      | some i =>
          apply MadeOf.ite
          · intro _
            exact .pure _
          · intro _
            apply MadeOf.bind (.attempt (contained_payAlone _ _ _))
            intro paid
            cases paid with
            | none => exact .pure _
            | some _ => exact .pure _
  | restart =>
      apply MadeOf.bind (.read _)
      intro g
      apply MadeOf.bind (contained_remember _)
      intro _
      apply MadeOf.bind (contained_remember _)
      intro _
      apply MadeOf.bind (.attempt (contained_foundWard _ _ _ _))
      intro founded
      cases founded with
      | none => exact .bind (.move fun _ => rfl) fun _ => .pure _
      | some _ => exact .pure _
  | quit => exact .pure _
  | unknown => exact .pure _

theorem Serves.outside {line : Text} {answer : Answer} {w w' : World}
    (serves : Serves line answer w w') : w'.outside = w.outside := by
  obtain ⟨c, c', middle, ran, replied⟩ := serves.served
  have reply := (contained_asks (asks_wardReply answer c)).leaves middle
  have command := (contained_command (commandOf line)).leaves w
  rw [replied] at reply
  rw [ran] at command
  exact reply.trans command

end GyreWard
