/-
Module: GyreWard.Model.Service
Purpose: The service around one ward (`serve` in `queen.c`): the ward it founds, and the commands it
  answers one after another.
Trusted boundary: human-reviewed translation of the source
Main exports: World.fresh, World.founded, Founds, Serves, Reached, Undisturbed
-/
import GyreWard.Model.Interactor

namespace GyreWard

open Lib

/-- A ward of zeros over a plane nobody has used. -/
def World.fresh (faults : Nat → Bool) : World := { g := Gyre.zero, plane := Plane.fresh faults }

/-- What `found_ward` makes of a ward of zeros over an empty store. -/
def World.founded (nsparks : Nat) (seed : UInt64) (faults : Nat → Bool) : World :=
  (foundWard liveName nsparks seed 0 (World.fresh faults)).2

/-- `serve` founds a ward: on a `gyre_t` of zeros, over a plane no group holds, without an
error. -/
structure Founds (nsparks : Nat) (seed : UInt64) (w w' : World) : Prop where
  zeroed : w.g = Gyre.zero
  free : w.plane.locked = false
  founded : foundWard liveName nsparks seed 0 w = (.ret (), w')

theorem ran_to {σ α : Type} {x : Action σ α} {w : σ} {result : Result α}
    (came : (x w).1 = result) : x w = (result, (x w).2) := Prod.ext came rfl

theorem founds_fresh {n : Nat} {seed : UInt64} {faults : Nat → Bool}
    (founds : (foundWard liveName n seed 0 (World.fresh faults)).1 = .ret ()) :
    Founds n seed (World.fresh faults) (World.founded n seed faults) :=
  ⟨rfl, rfl, ran_to founds⟩

/-- `serve` answers a command: the line is run, and then the reply is written. -/
structure Serves (line : Text) (answer : Answer) (w w' : World) : Prop where
  served : ∃ c c' middle, (commandOf line).run w = (.ret answer, middle) ∧
    wardReply answer c middle = (.ret c', w')

/-- A command answered, with the world after the reply. -/
def World.answer (line : Text) (w : World) : Option Answer × World :=
  match (commandOf line).run w with
  | (.ret answer, middle) =>
      match wardReply answer (weftCborTo wardReplyMax) middle with
      | (.ret _, w') => (some answer, w')
      | (_, w') => (none, w')
  | (_, w') => (none, w')

theorem serves_answer {line : Text} {answer : Answer} {w : World}
    (answered : (w.answer line).1 = some answer) : Serves line answer w (w.answer line).2 := by
  unfold World.answer at answered ⊢
  rcases ran : (commandOf line).run w with ⟨_ | _ | _, middle⟩
  · rename_i given
    simp only [ran] at answered ⊢
    rcases replied : wardReply given (weftCborTo wardReplyMax) middle with ⟨_ | _ | _, w'⟩
    · rw [replied] at answered
      obtain rfl : given = answer := Option.some.inj answered
      exact ⟨_, _, middle, ran, replied⟩
    · rw [replied] at answered
      cases answered
    · rw [replied] at answered
      cases answered
  · rw [ran] at answered
    cases answered
  · rw [ran] at answered
    cases answered

/-- The worlds a service comes through: the ward is founded, and then command after command is
answered. -/
inductive Reached : World → Prop where
  | founded {nsparks : Nat} {seed : UInt64} {w w' : World} (founds : Founds nsparks seed w w') :
      Reached w'
  | served {line : Text} {answer : Answer} {w w' : World} (before : Reached w)
      (serves : Serves line answer w w') : Reached w'

/-- A command that reports a failure underneath: a cycle that stopped, or a ward that could not be
founded again. -/
def Answer.Failed (a : Answer) : Prop :=
  a.say = text "the ward stopped mid-cycle" ∨ a.say = text "the ward could not be founded again"

instance (a : Answer) : Decidable a.Failed := inferInstanceAs (Decidable (_ ∨ _))

/-- The worlds a service comes through when no statement, group step or planner call fails: the
plane fails nothing, and no command reports a failure. -/
inductive Undisturbed : World → Prop where
  | founded {nsparks : Nat} {seed : UInt64} {w w' : World}
      (quiet : ∀ k, w.plane.faults k = false) (founds : Founds nsparks seed w w') : Undisturbed w'
  | served {line : Text} {answer : Answer} {w w' : World} (before : Undisturbed w)
      (serves : Serves line answer w w') (fine : ¬ answer.Failed) : Undisturbed w'

/-- An undisturbed service that answers a command well goes on undisturbed. -/
theorem Undisturbed.answer {w : World} (before : Undisturbed w) {line : Text}
    (well : (w.answer line).1.map (decide ·.Failed) = some false) :
    Undisturbed (w.answer line).2 := by
  obtain ⟨answer, answered, fine⟩ := Option.map_eq_some_iff.mp well
  exact .served before (serves_answer answered) (of_decide_eq_false fine)

/-- A founding that returns is undisturbed over a plane that fails nothing. -/
theorem undisturbed_founded {nsparks : Nat} {seed : UInt64}
    (founds : (foundWard liveName nsparks seed 0 (World.fresh fun _ => false)).1 = .ret ()) :
    Undisturbed (World.founded nsparks seed fun _ => false) := by
  exact .founded (fun _ => rfl) (founds_fresh founds)

end GyreWard
