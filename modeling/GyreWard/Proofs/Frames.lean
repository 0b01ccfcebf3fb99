/-
Module: GyreWard.Proofs.Frames
Purpose: No Frame is worn below nothing or past ninety, in any ward a service comes through and whatever the
  plane fails.
Trusted boundary: none
Main exports: Gyre.FramesHold, Careful, careful_cycleWrites, frames, Reached.framesHold
-/
import GyreWard.Proofs.Mirror
import GyreWard.Proofs.Wards

namespace GyreWard

open Lib
open Lib.Action (MadeOf Keeps Leaves wp)

/-- Every Frame is worn between nothing and ninety. -/
def Gyre.FramesHold (g : Gyre) : Prop := ∀ s ∈ g.sparks, 0 ≤ s.wear ∧ s.wear ≤ 90

/-- Code put together from calls that wear no Frame out of its bounds. -/
abbrev Careful (α : Type) (x : Action World α) : Prop :=
  MadeOf (fun _ y => Keeps (fun w : World => w.g.FramesHold) y) α x

section Careful

variable {α : Type} {x : Action World α} {i : Nat}

theorem Careful.keeps (made : Careful α x) : Keeps (fun w : World => w.g.FramesHold) x :=
  MadeOf.keeps made fun _ _ kept => kept

/-- What moves nobody wears nobody out. -/
theorem careful_still (made : Still α x) : Careful α x := by
  apply MadeOf.mono made
  intro β y still
  apply MadeOf.move
  intro w hold s mem
  have same : (y w).2.g.sparks.map Spark.posture = w.g.sparks.map Spark.posture :=
    congrArg Prod.snd (still w)
  have listed : s.posture ∈ w.g.sparks.map Spark.posture := by
    rw [← same]
    exact List.mem_map_of_mem mem
  obtain ⟨s', there, alike⟩ := List.mem_map.mp listed
  have wear : s'.wear = s.wear := congrArg Posture.wear alike
  rw [← wear]
  exact hold s' there

/-- A change to one Spark that keeps their Frame in its bounds. -/
theorem framesHold_setSpark {f : Spark → Spark}
    (bounds : ∀ s, 0 ≤ s.wear ∧ s.wear ≤ 90 → 0 ≤ (f s).wear ∧ (f s).wear ≤ 90) {g : Gyre}
    (hold : g.FramesHold) : (g.setSpark i f).FramesHold := by
  intro s mem
  obtain ⟨k, there⟩ := List.getElem?_of_mem mem
  rw [setSpark_at] at there
  split at there
  · obtain ⟨s', here, rfl⟩ := Option.map_eq_some_iff.mp there
    exact bounds s' (hold s' (List.mem_of_getElem? here))
  · exact hold s (List.mem_of_getElem? there)

theorem careful_setSpark {f : Spark → Spark}
    (bounds : ∀ s, 0 ≤ s.wear ∧ s.wear ≤ 90 → 0 ≤ (f s).wear ∧ (f s).wear ≤ 90) :
    Careful Unit (remember (Gyre.setSpark i f)) :=
  .move fun _ hold => framesHold_setSpark bounds hold

theorem careful_runSpark (i : Nat) (stmt : SparkTables → Option SparkTables) :
    Careful Unit (runSpark i stmt) := by
  apply MadeOf.bind (careful_still still_fallible)
  intro _
  apply MadeOf.move
  intro w hold
  unfold update
  cases changed : Gyre.onSpark i (Conn.execute stmt) w.g with
  | none => exact hold
  | some g =>
      obtain ⟨s, c, -, -, rfl⟩ := onSpark_eq_some.mp changed
      apply framesHold_setSpark (f := fun s => { s with db := c }) _ hold
      exact fun _ bounds => bounds

theorem careful_goToWork (i id : Nat) : Careful Unit (goToWork i id) := by
  have moved (f : Place → Place) : Careful Unit (remember (Gyre.movePlace i f)) :=
    careful_setSpark fun _ bounds => bounds
  have asked (query : Gyre → Option Int) : Careful Int (scalarOr 0 query) :=
    careful_still (still_of_asks (asks_scalarOr 0 query))
  have went : Careful Unit (goThere i id) := by
    apply MadeOf.bind (asked _)
    intro x
    apply MadeOf.bind (moved _)
    intro _
    apply MadeOf.bind (asked _)
    intro y
    apply MadeOf.bind (moved _)
    intro _
    exact .bind (asked _) fun _ => moved _
  rw [goToWork_eq]
  apply MadeOf.bind went
  intro _
  apply MadeOf.bind (careful_still (still_groupJoin _))
  intro _
  apply MadeOf.bind (.read _)
  intro g
  cases g.sparks[i]? with
  | none => exact .pure _
  | some s => exact careful_runSpark i _

/-- A contract wears its Spark's Frame, within the bounds. -/
theorem careful_settleContract (i id : Nat) (won : Bool) (earned : Int) (item : Option Text) :
    Careful Unit (settleContract i id won earned item) := by
  apply MadeOf.bind (careful_still (still_of_asks (asks_built 1)))
  intro repaired
  apply MadeOf.bind (careful_setSpark fun s _ => wornBy_bounds won repaired s.wear)
  intro _
  apply MadeOf.bind (careful_still (still_runWard _))
  intro _
  apply MadeOf.bind (.read _)
  intro treasury
  apply MadeOf.ite
  · intro _
    exact .bind (careful_still (still_pay i _ _)) fun _ => careful_goToWork i id
  · intro _
    exact careful_goToWork i id

theorem careful_workContract (i : Nat) (s : Spark) (id : Nat) :
    Careful Unit (workContract i s id) := by
  apply MadeOf.bind (careful_still (still_of_asks (asks_scalarOr _ _)))
  intro payout
  apply MadeOf.bind (careful_still (still_of_asks (asks_scalarOr _ _)))
  intro risk
  apply MadeOf.bind (careful_still (still_draw 100))
  intro roll
  apply MadeOf.ite
  · intro _
    apply MadeOf.bind (.bind (careful_still (still_keepContract payout s.id)) fun _ => .pure _)
    intro item
    exact careful_settleContract i id _ _ item
  · intro _
    exact .bind (.pure _) fun item => careful_settleContract i id _ _ item

theorem careful_sparkTurn (i : Nat) : Careful Unit (sparkTurn i) := by
  apply MadeOf.bind (careful_still (still_choose i))
  intro id
  apply MadeOf.ite
  · intro _
    exact .pure _
  · intro _
    apply MadeOf.bind (.read _)
    intro here
    cases here with
    | none => exact .pure _
    | some s => exact careful_workContract i s _

theorem careful_cycleWrites : Careful Bool cycleWrites := by
  apply MadeOf.bind (careful_still still_commission)
  intro decided
  apply MadeOf.guard
  apply MadeOf.bind (careful_still still_postBoard)
  intro _
  apply MadeOf.bind (.read _)
  intro n
  apply MadeOf.bind (.forEach fun i _ => careful_sparkTurn i)
  intro _
  apply MadeOf.bind (careful_still still_debtClock)
  intro _
  apply MadeOf.bind (careful_still (still_of_asks (asks_built 5)))
  intro row
  apply MadeOf.bind (.read _)
  intro g
  exact .bind (careful_still (still_runWard _)) fun _ => .pure _

theorem careful_groupAbort : Careful Unit groupAbort := by
  apply MadeOf.bind (.read _)
  intro grp
  apply MadeOf.bind
  · apply MadeOf.forEach
    intro h _
    cases h with
    | ward => exact .move fun _ hold => hold
    | spark i => exact careful_setSpark fun _ bounds => bounds
  · intro _
    apply MadeOf.bind (.move fun _ hold => hold)
    intro _
    apply MadeOf.bind (.read _)
    intro p
    exact .ite (fun _ => .pure _) fun _ => .move fun _ hold => hold

theorem careful_groupCommit : Careful Unit groupCommit := by
  apply MadeOf.bind (.read _)
  intro grp
  apply MadeOf.bind
  · apply MadeOf.onFail _ careful_groupAbort
    exact .forEach fun h _ => careful_still (still_sqlCommit h)
  · intro _
    exact careful_still (still_weftTxnCommit _)

theorem careful_cycleBody : Careful Bool cycleBody := by
  apply MadeOf.bind (.move fun _ hold => hold)
  intro _
  apply MadeOf.bind (careful_still still_groupBegin)
  intro _
  apply MadeOf.bind (.onFail careful_cycleWrites careful_groupAbort)
  intro arriving
  exact .bind careful_groupCommit fun _ => .pure _

theorem careful_payAlone (i : Nat) (amount : Int) (item : Option (Text × Text)) :
    Careful Unit (payAlone i amount item) := by
  apply MadeOf.bind (careful_still still_groupBegin)
  intro _
  apply MadeOf.bind (.onFail (careful_still (still_pay i amount item)) careful_groupAbort)
  intro _
  exact .onFail careful_groupCommit (careful_still (still_paid i _))

end Careful

/-! ### Runs -/

section Runs

variable {g : Gyre}

/-- A Spark comes with a Frame that nothing has worn. -/
theorem Gyre.FramesHold.withSparks (hold : g.FramesHold) (ids : List Int) :
    (g.withSparks ids).FramesHold := by
  rw [withSparks_eq]
  intro s mem
  rcases List.mem_append.mp mem with old | new
  · exact hold s old
  · obtain ⟨id, _, made⟩ := List.mem_map.mp new
    rw [← made]
    exact ⟨Int.le_refl 0, Int.natCast_nonneg 90⟩

theorem framesHold_cycle {w : World} (hold : w.g.FramesHold) : KeepsWard Gyre.FramesHold cycle w := by
  unfold KeepsWard
  rw [cycle_eq, Action.wp_bind]
  apply Action.wp_mono (careful_cycleBody.keeps.wp hold) _ fun _ hold => hold
  intro arriving w₁ hold₁
  apply Action.wp_ite
  · intro _
    rw [Action.wp_bind, Action.wp_read]
    apply Action.wp_mono (wp_joinWard _ w₁)
    · intro _ w₂ joined
      rw [joined.2]
      exact hold₁.withSparks [_]
    · intro w₂ same
      rw [same]
      exact hold₁
  · intro _
    exact hold₁

theorem framesHold_nobody (nobody : g.sparks = []) : g.FramesHold := by
  intro s mem
  rw [nobody] at mem
  cases mem

theorem framesHold_foundWard (dbPrefix : Text) (n : Nat) (seed : UInt64) (base : Int) {w : World}
    (nobody : w.g.sparks = []) : KeepsWard Gyre.FramesHold (foundWard dbPrefix n seed base) w := by
  have opened : (w.g.foundedAs dbPrefix seed base).FramesHold := framesHold_nobody nobody
  apply Action.wp_mono (wp_foundWard dbPrefix n seed base w)
  · intro _ w' founded
    rw [founded]
    exact opened.withSparks _
  · intro w' stopped
    rcases stopped with unfounded | ⟨ids, founded, _⟩
    · exact framesHold_nobody (unfounded.sparks.trans nobody)
    · rw [founded]
      exact opened.withSparks ids

theorem frames : WardInvariant Gyre.FramesHold where
  cycle := framesHold_cycle
  build := fun i _ hold => (careful_still (still_buildVenue i)).keeps.wp hold
  pay := fun i amount _ hold => (careful_payAlone i amount none).keeps.wp hold
  found := by
    intro n seed w zeroed
    apply framesHold_foundWard
    rw [zeroed]
    rfl

theorem Reached.framesHold {w : World} (reached : Reached w) : w.g.FramesHold := frames.reached reached

end Runs

end GyreWard
