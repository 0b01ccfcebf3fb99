/-
Module: GyreWard.Proofs.Lives
Purpose: A restart forgets everything before it, unless a group begun before it is still open.
Trusted boundary: none
Main exports: Life, replies, World.faults, Serves.faults, restarts_forget
-/
import GyreWard.Proofs.SideBySide
import GyreWard.Proofs.Venues
import GyreWard.Proofs.Wards

namespace GyreWard

open Lib
open Lib.Action (MadeOf Leaves Same wp)

/-- A ward of `n` Sparks at the beginning of a life: founded with this seed over any store, or founded
with it again by a `restart` that succeeded, whatever was served before. -/
inductive Life (n : Nat) (seed : UInt64) : World → Prop where
  | founded {w w' : World} (founds : Founds n seed w w') : Life n seed w'
  | restarted {line : Text} {answer : Answer} {w w' : World} (before : Reached w)
      (sparks : w.g.sparks.length = n) (seeded : w.g.seed = seed)
      (restarts : commandOf line = .restart) (serves : Serves line answer w w')
      (well : answer.ok = true) : Life n seed w'

/-- What a ward sends back, line after line. A line that never comes back is the last one. -/
def replies (cap : Nat) : List Text → World → List (Option (List UInt8))
  | [], _ => []
  | line :: rest, w =>
      match wardAsk line cap w with
      | (.ret reply, w') => some reply :: replies cap rest w'
      | _ => [none]

/-- Wards alike send back the same, for ever. -/
theorem Alike.replies {v w : World} (alike : Alike v w) (cap : Nat) (lines : List Text) :
    replies cap lines v = GyreWard.replies cap lines w := by
  induction lines generalizing v w with
  | nil => rfl
  | cons line rest ih =>
      have came := blind_wardAsk line cap v w alike
      unfold GyreWard.replies
      generalize wardAsk line cap v = p, wardAsk line cap w = q at came
      cases came with
      | ret after => exact congrArg _ (ih after)
      | fail _ => rfl
      | halt => rfl

/-! ### How a life begins -/

/-- A ward of a life is the one its seed and its number of Sparks make. -/
theorem wp_runRestart_founded (w : World) :
    wp runRestart (fun a w' => a.ok = true →
      w'.g = (Gyre.zero.foundedAs liveName w.g.seed 0).withSparks
        ((List.range w.g.sparks.length).map fun (i : Nat) => 0 + (i : Int)))
      (fun _ => True) w := by
  unfold runRestart
  rw [Action.wp_bind, Action.wp_read, Action.wp_bind]
  change wp _ _ _ (w.setGyre _)
  rw [Action.wp_bind]
  change wp _ _ _ ((w.setGyre _).setGyre fun _ => Gyre.zero)
  rw [Action.wp_bind, Action.wp_attempt]
  apply Action.wp_mono (wp_foundWard liveName w.g.sparks.length w.g.seed 0 _)
  · intro _ w' founded _
    exact founded
  · intro w' _ well
    cases well

theorem Life.founded_g {n : Nat} {seed : UInt64} {w : World} (life : Life n seed w) :
    w.g = (Gyre.zero.foundedAs liveName seed 0).withSparks
      ((List.range n).map fun (i : Nat) => 0 + (i : Int)) := by
  cases life with
  | @founded v _ founds =>
      have made := Action.wp_ret (wp_foundWard liveName n seed 0 v) founds.founded
      rw [made, founds.zeroed]
  | @restarted line answer v _ _ sparks seeded restarts serves well =>
      have ⟨c, c', middle, ran, replied⟩ := serves.served
      rw [restarts] at ran
      have made := Action.wp_ret (wp_runRestart_founded v) ran well
      rw [(asks_wardReply answer c).same_g replied, made, sparks, seeded]

/-- Two lives with the same seed and as many Sparks begin alike, over planes that no group holds. -/
theorem Life.alike {n : Nat} {seed : UInt64} {v w : World} (life : Life n seed v)
    (life' : Life n seed w) (free : v.plane.locked = false) (free' : w.plane.locked = false)
    (ahead : SameAhead v w) : Alike v w where
  g := life.founded_g.trans life'.founded_g.symm
  begun := by
    rw [life.founded_g, withSparks_eq]
    exact Int.le_refl 0
  ahead := ahead
  locked := free.trans free'.symm
  group := fun held => absurd (free.symm.trans held) nofun

/-! ### What a plane fails is not the ward's to change -/

def World.faults (w : World) : Nat → Bool := w.plane.faults

theorem Serves.faults {line : Text} {answer : Answer} {w w' : World}
    (serves : Serves line answer w w') : w'.faults = w.faults :=
  congrArg Outside.faults serves.outside

/-- Planes whose faults are past treat a ward the same. -/
theorem sameAhead_of_past {v w : World} (left : ∀ k, v.plane.tick ≤ k → v.faults k = false)
    (right : ∀ k, w.plane.tick ≤ k → w.faults k = false) : SameAhead v w where
  faults := by
    intro k
    exact (left _ (Nat.le_add_right ..)).trans (right _ (Nat.le_add_right ..)).symm
  disk := by
    intro k name turned
    have fine := left (v.plane.tick + k + 3) (by omega)
    exact absurd (fine.symm.trans turned) nofun

/-! ### Restarts -/

/-- Two lives with the same seed and as many Sparks answer alike, whatever stood in the databases and
whatever was served before, if no group from before is still open. -/
theorem restarts_forget {n : Nat} {seed : UInt64} {v w : World} (life : Life n seed v)
    (life' : Life n seed w) (free : v.plane.locked = false) (free' : w.plane.locked = false)
    (ahead : SameAhead v w) (cap : Nat) (lines : List Text) :
    replies cap lines v = replies cap lines w :=
  (life.alike life' free free' ahead).replies cap lines

/-- A ward after a cycle and a restart. -/
def World.returned (w : World) : World :=
  ((w.answer (text "cycle")).2.answer (text "restart")).2

theorem faults_founded (n : Nat) (seed : UInt64) (faults : Nat → Bool) :
    (World.founded n seed faults).faults = faults :=
  leaves_faults_foundWard liveName n seed 0 (World.fresh faults)

/-- A ward that is founded again begins a new life, over the plane it had. -/
theorem life_returned (n : Nat) (seed : UInt64) {w : World} (reached : Reached w)
    (cycled : (w.answer (text "cycle")).1.isSome = true)
    (sparks : (w.answer (text "cycle")).2.g.sparks.length = n)
    (seeded : (w.answer (text "cycle")).2.g.seed = seed)
    (well : ((w.answer (text "cycle")).2.answer (text "restart")).1.map (·.ok) = some true) :
    Life n seed w.returned ∧ w.returned.faults = w.faults := by
  have ⟨answer, answered⟩ := Option.isSome_iff_exists.mp cycled
  have ⟨founded, foundedAgain, fine⟩ := Option.map_eq_some_iff.mp well
  have serves := serves_answer answered
  have restarts := serves_answer foundedAgain
  have command : commandOf (text "restart") = .restart := by decide +kernel
  constructor
  · exact .restarted (.served reached serves) sparks seeded command restarts fine
  · exact restarts.faults.trans serves.faults

/-- A founded ward with one Spark, over a plane that fails nothing. -/
def oneSparkWard : World := World.founded 1 1 fun _ => false

/-- A ward of one Spark that is founded again goes on as it did the first time. -/
theorem one_spark_goes_on_as_before :
    replies wardReplyMax [text "cycle", text "pay 0 5", text "cycle 3"] oneSparkWard.returned =
      replies wardReplyMax [text "cycle", text "pay 0 5", text "cycle 3"] oneSparkWard := by
  have founds : Founds 1 1 (World.fresh fun _ => false) oneSparkWard :=
    founds_fresh (by decide +kernel)
  have quiet : oneSparkWard.faults = fun _ => false := faults_founded 1 1 _
  have ⟨life, faults⟩ := life_returned 1 1 (.founded founds) (by decide +kernel)
    (by decide +kernel) (by decide +kernel) (by decide +kernel)
  have free : oneSparkWard.returned.plane.locked = false := by decide +kernel
  have free' : oneSparkWard.plane.locked = false := by decide +kernel
  have ahead : SameAhead oneSparkWard.returned oneSparkWard := by
    apply sameAhead_of_past
    · intro k _
      rw [faults, quiet]
    · intro k _
      rw [quiet]
  exact restarts_forget life (.founded founds) free free' ahead wardReplyMax _

/-- A founded ward whose plane fails one statement, the `BEGIN` of the ward in its first cycle. -/
def unbegunWard : World := World.founded 0 1 fun k => k == 14

/-- The group that a cycle left open before a restart is open after it: the next cycle never comes
back, as it does in a ward that was just founded. -/
theorem held_lock_survives_a_restart :
    Life 0 1 unbegunWard.returned ∧ Life 0 1 emptyWard ∧
      SameAhead unbegunWard.returned emptyWard ∧
      replies wardReplyMax [text "cycle"] unbegunWard.returned ≠
        replies wardReplyMax [text "cycle"] emptyWard := by
  have founds : Founds 0 1 (World.fresh fun k => k == 14) unbegunWard :=
    founds_fresh (by decide +kernel)
  have fresh : Founds 0 1 (World.fresh fun _ => false) emptyWard :=
    founds_fresh (by decide +kernel)
  have ⟨life, faults⟩ := life_returned 0 1 (.founded founds) (by decide +kernel)
    (by decide +kernel) (by decide +kernel) (by decide +kernel)
  have past : 15 ≤ unbegunWard.returned.plane.tick := by decide +kernel
  have ahead : SameAhead unbegunWard.returned emptyWard := by
    apply sameAhead_of_past
    · intro k later
      have missed : k ≠ 14 := by omega
      rw [faults, unbegunWard, faults_founded]
      exact beq_false_of_ne missed
    · intro k _
      rw [emptyWard, faults_founded]
  have waits : (replies wardReplyMax [text "cycle"] unbegunWard.returned).map Option.isSome =
      [false] := by
    decide +kernel
  have comes : (replies wardReplyMax [text "cycle"] emptyWard).map Option.isSome = [true] := by
    decide +kernel
  constructor
  · exact life
  constructor
  · exact .founded fresh
  constructor
  · exact ahead
  · intro same
    rw [same, comes] at waits
    cases waits

end GyreWard
