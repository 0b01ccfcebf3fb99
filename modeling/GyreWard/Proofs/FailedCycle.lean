/-
Module: GyreWard.Proofs.FailedCycle
Purpose: What a cycle that fails leaves behind.
Trusted boundary: none
Main exports: Unchanged, uncounted_cycleGroup, cycle_counts, failed_cycle_changes_the_ward
-/
import GyreWard.Proofs.Bracket

namespace GyreWard

open Lib
open Lib.Action (MadeOf Leaves)

/-- What is in memory of a Spark. -/
def Spark.memory (s : Spark) : Int × Int × Int × Place := (s.id, s.purse, s.wear, s.place)

/-- Two states of a ward agree: in memory, and in what the databases hold. -/
structure Unchanged (g g' : Gyre) : Prop where
  cycle : g'.cycle = g.cycle
  treasury : g'.treasury = g.treasury
  debt : g'.debt = g.debt
  issued : g'.issued = g.issued
  spent : g'.spent = g.spent
  retired : g'.retired = g.retired
  found : g'.found = g.found
  seq : g'.seq = g.seq
  rng : g'.rng = g.rng
  sparks : g'.sparks.map Spark.memory = g.sparks.map Spark.memory
  wardTables : g'.ward.now = g.ward.now
  sparkTables : g'.sparks.map (·.db.now) = g.sparks.map (·.db.now)

/-! ### The counter -/

def World.counter (w : World) : Int := w.g.cycle

theorem leaves_counter_fallible : Leaves World.counter fallible := by
  intro w
  rw [fallible_eq]
  split <;> rfl

theorem leaves_counter_update {f : Gyre → Option Gyre}
    (keeps : ∀ g g', f g = some g' → g'.cycle = g.cycle) : Leaves World.counter (update f) := by
  intro w
  unfold update
  cases changed : f w.g with
  | some g' => exact keeps w.g g' changed
  | none => rfl

theorem leaves_counter_onWard (f : Conn WardTables → Option (Conn WardTables)) :
    Leaves World.counter (update (Gyre.onWard f)) := by
  refine leaves_counter_update fun g g' changed => ?_
  obtain ⟨conn, -, rfl⟩ := Option.map_eq_some_iff.mp changed
  rfl

theorem leaves_counter_onSpark (i : Nat) (f : Conn SparkTables → Option (Conn SparkTables)) :
    Leaves World.counter (update (Gyre.onSpark i f)) := by
  refine leaves_counter_update fun g g' changed => ?_
  unfold Gyre.onSpark at changed
  cases here : g.sparks[i]? with
  | none => simp [here] at changed
  | some s =>
      rw [here] at changed
      obtain ⟨conn, -, rfl⟩ := Option.map_eq_some_iff.mp changed
      rfl

theorem ContractMove.leaves_counter {α : Type} {x : Action World α} (moves : ContractMove α x) :
    Leaves World.counter x := by
  cases moves with
  | fallible => exact leaves_counter_fallible
  | onWard _ => exact leaves_counter_onWard _
  | draw r => exact fun _ => rfl

theorem Bookkeeping.leaves_counter {f : Gyre → Gyre} (keeps : Bookkeeping f) :
    Leaves World.counter (remember f) := by
  intro w
  cases keeps <;> rfl

theorem JoinMove.leaves_counter {α : Type} {x : Action World α} (moves : JoinMove α x) :
    Leaves World.counter x := by
  cases moves with
  | fallible => exact leaves_counter_fallible
  | takePart h => exact fun _ => rfl
  | beginWard => exact leaves_counter_onWard _
  | beginSpark i => exact leaves_counter_onSpark i _
  | enlist h => exact fun _ => rfl

theorem Write.leaves_counter {α : Type} {x : Action World α} (writes : Write α x) :
    Leaves World.counter x := by
  cases writes with
  | fallible => exact leaves_counter_fallible
  | onWard _ => exact leaves_counter_onWard _
  | onSpark i _ => exact leaves_counter_onSpark i _
  | remember keeps => exact keeps.leaves_counter
  | contract i => exact (made_postContract i).leaves fun _ _ moves => moves.leaves_counter

/-- No move of a cycle counts. -/
theorem Move.leaves_counter {α : Type} {x : Action World α} (moves : Move α x) :
    Leaves World.counter x := by
  cases moves with
  | write writes => exact writes.leaves_counter
  | join h => exact (made_groupJoin h).leaves fun _ _ moves => moves.leaves_counter

theorem Arrival.leaves_counter {α : Type} {x : Action World α} (moves : Arrival α x) :
    Leaves World.counter x := by
  cases moves with
  | fallible => exact leaves_counter_fallible
  | seat s => exact fun _ => rfl

/-- Code put together from calls that do not count. -/
abbrev Uncounted (α : Type) (x : Action World α) : Prop :=
  MadeOf (fun _ y => Leaves World.counter y) α x

theorem Uncounted.leaves {α : Type} {x : Action World α} (made : Uncounted α x) :
    Leaves World.counter x :=
  MadeOf.leaves made fun _ _ steady => steady

theorem uncounted_setPlane (f : Plane → Plane) : Uncounted Unit (.modify (World.setPlane f)) :=
  .move fun _ => rfl

theorem uncounted_groupBegin : Uncounted Unit groupBegin := by
  have joined : Uncounted Unit (groupJoin .ward) :=
    (made_groupJoin .ward).mono fun _ _ moves => .move moves.leaves_counter
  have begun : Uncounted Nat weftTxnBegin := by
    have opened : Uncounted Nat (do
        fallible
        Action.modify <| World.setPlane fun p =>
          { p with
            locked := true, isOpen := true, txn := p.lastTxn + 1, parts := []
            lastTxn := p.lastTxn + 1 }
        let txn ← Action.read (·.plane.txn)
        observe (.began txn)
        pure txn) :=
      .bind (.move leaves_counter_fallible) fun _ => .bind (uncounted_setPlane _) fun _ =>
        .bind (.read _) fun _ => .bind (uncounted_setPlane _) fun _ => .pure _
    exact .bind (.read _) fun _ => .ite (fun _ => .bind .halt fun _ => opened) fun _ => opened
  exact .bind (.move fun _ => rfl) fun _ => .bind begun fun _ => .bind (.move fun _ => rfl) fun _ =>
    joined

theorem uncounted_groupAbort : Uncounted Unit groupAbort := by
  refine .bind (.read _) fun grp => .bind (.forEach fun h _ => ?_) fun _ => ?_
  · cases h with
    | ward => exact .move fun _ => rfl
    | spark i => exact .move fun _ => rfl
  · refine .bind (uncounted_setPlane _) fun _ => .bind (.read _) fun p => ?_
    exact .ite (fun _ => .pure _) fun _ => uncounted_setPlane _

theorem uncounted_groupCommit : Uncounted Unit groupCommit := by
  refine .bind (.read _) fun grp => .bind (.onFail ?_ uncounted_groupAbort) fun _ => ?_
  · refine .forEach fun h _ => ?_
    cases h with
    | ward => exact .bind (.move leaves_counter_fallible) fun _ => .move (leaves_counter_onWard _)
    | spark i =>
        exact .bind (.move leaves_counter_fallible) fun _ => .move (leaves_counter_onSpark i _)
  · refine .bind (uncounted_setPlane _) fun _ => .bind (.read _) fun p => ?_
    refine .ite (fun _ => .fail) fun _ => .bind (.attempt (.move leaves_counter_fallible)) ?_
    intro recorded
    refine .bind (uncounted_setPlane _) fun _ => ?_
    cases recorded with
    | some _ => exact .pure _
    | none => exact .fail

theorem uncounted_cycleGroup : Uncounted Unit cycleGroup := by
  have wrote : Uncounted Bool cycleWrites :=
    made_cycleWrites.mono fun _ _ moves => .move moves.leaves_counter
  refine .bind (.onFail wrote uncounted_groupAbort) fun arriving => ?_
  refine .bind uncounted_groupCommit fun _ => .ite (fun _ => ?_) fun _ => .pure _
  refine .bind (.read _) fun g => ?_
  exact (made_joinWard _).mono fun _ _ moves => .move moves.leaves_counter

/-- Every cycle counts, whether it lands or not. -/
theorem cycle_counts (w : World) : (cycle w).2.g.cycle = w.g.cycle + 1 := by
  have rest : Uncounted Unit (groupBegin >>= fun _ => cycleGroup) :=
    .bind uncounted_groupBegin fun _ => uncounted_cycleGroup
  exact rest.leaves (w.setGyre fun g => { g with cycle := g.cycle + 1 })

/-! ### A cycle that fails -/

/-- A cycle that fails never leaves the ward as it was: the counter is ahead of the databases,
whatever failed. -/
theorem failed_cycle_changes_the_ward (w w' : World) (failed : cycle w = (.fail, w')) :
    w'.g.cycle = w.g.cycle + 1 ∧ ¬ Unchanged w.g w'.g := by
  have counted : w'.g.cycle = w.g.cycle + 1 := by
    rw [← cycle_counts w, failed]
  refine ⟨counted, fun unchanged => ?_⟩
  rw [unchanged.cycle] at counted
  exact absurd counted (by omega)

/-- A founded ward whose plane fails the `weft_txn_begin` of its first cycle. -/
def refusedBegin : World := World.founded 0 1 fun k => k == 12

/-- A cycle that cannot begin its group has counted all the same. -/
theorem refused_begin_counts :
    ∃ w', cycle refusedBegin = (.fail, w') ∧
      w'.g.cycle = refusedBegin.g.cycle + 1 ∧ ¬ Unchanged refusedBegin.g w'.g := by
  have failed : (cycle refusedBegin).1 = .fail := by decide +kernel
  cases run : cycle refusedBegin with
  | mk result w' =>
      rw [run] at failed
      obtain rfl : result = .fail := failed
      exact ⟨w', rfl, failed_cycle_changes_the_ward refusedBegin w' run⟩

/-- A founded ward with one Spark, whose plane fails the last statement of its first cycle. -/
def lateFault : World := World.founded 1 1 fun k => k == 80

/-- The first cycle of that ward fails at the `UPDATE ward`.  The group is rolled back, the
treasury in memory is not, and the ward that was honest is not. -/
theorem late_fault_breaks_the_books :
    (foundWard liveName 1 1 0 (World.fresh fun k => k == 80)).1 = .ret () ∧
      (honest lateFault).1 = .ret true ∧ (cycle lateFault).1 = .fail ∧
      ¬ Unchanged lateFault.g (cycle lateFault).2.g ∧
      (honest (cycle lateFault).2).1 = .ret false := by
  have founded : (foundWard liveName 1 1 0 (World.fresh fun k => k == 80)).1 = .ret () := by
    decide +kernel
  have before : (honest lateFault).1 = .ret true := by decide +kernel
  have failed : (cycle lateFault).1 = .fail := by decide +kernel
  have after : (honest (cycle lateFault).2).1 = .ret false := by decide +kernel
  have treasury : (cycle lateFault).2.g.treasury ≠ lateFault.g.treasury := by decide +kernel
  exact ⟨founded, before, failed, fun same => treasury same.treasury, after⟩

end GyreWard
