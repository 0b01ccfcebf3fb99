/-
Module: GyreWard.Proofs.AllOrNothing
Purpose: When a payment by hand is all or nothing: whenever the two operations after the ward's own
  `COMMIT` do not fail.
Trusted boundary: none
Main exports: Account, Gyre.Honest, AllOrNothing, LateFault, payment_all_or_nothing_iff
-/
import GyreWard.Proofs.Bracket
import GyreWard.Proofs.Payment

namespace GyreWard

open Lib
open Lib.Action (Finishes wp)

/-! ### A payment comes back -/

theorem finishes_fallible : Finishes fallible := by
  intro w
  rw [fallible_eq]
  split <;> exact nofun

theorem finishes_update (f : Gyre → Option Gyre) : Finishes (update f) := by
  intro w
  unfold update
  split <;> exact nofun

theorem finishes_statement (f : Gyre → Option Gyre) :
    Finishes (fallible >>= fun _ => update f) :=
  finishes_fallible.bind fun _ => finishes_update f

theorem finishes_groupJoin (h : Handle) : Finishes (groupJoin h) := by
  have taken : ∀ txn, Finishes (weftTxnJoin h txn) := fun txn =>
    finishes_fallible.bind fun _ => (Finishes.read _).bind fun _ =>
      .ite .fail (.ite .fail (.ite (.pure _) (.modify _)))
  have begun : Finishes (sqlBegin h) := by
    cases h with
    | ward => exact finishes_statement _
    | spark i => exact finishes_statement _
  refine (Finishes.read _).bind fun grp => .ite (.pure _) (.ite .fail ?_)
  exact (taken _).bind fun _ => begun.bind fun _ => .modify _

theorem finishes_pay (i : Nat) (amount : Int) : Finishes (pay i amount none) := by
  refine (finishes_groupJoin _).bind fun _ => (Finishes.read _).bind fun id => ?_
  have booked : Finishes (book .wages (-amount) id) :=
    (Finishes.read _).bind fun _ => finishes_statement _
  refine booked.bind fun _ => (finishes_statement _).bind fun _ => ?_
  exact (Finishes.pure _).bind fun _ => .modify _

theorem finishes_groupAbort : Finishes groupAbort := by
  refine (Finishes.read _).bind fun grp => (Finishes.forEach (fun h => ?_) _).bind fun _ => ?_
  · cases h with
    | ward => exact .modify _
    | spark i => exact .modify _
  · exact (Finishes.modify _).bind fun _ => (Finishes.read _).bind fun _ => .ite (.pure _) (.modify _)

theorem finishes_groupCommit : Finishes groupCommit := by
  have committed : ∀ h, Finishes (sqlCommit h) := by
    intro h
    cases h with
    | ward => exact finishes_statement _
    | spark i => exact finishes_statement _
  have recorded : ∀ txn, Finishes (weftTxnCommit txn) := by
    refine fun txn => (Finishes.modify _).bind fun _ => (Finishes.read _).bind fun _ => ?_
    refine .ite .fail (finishes_fallible.attempt.bind fun record => (Finishes.modify _).bind ?_)
    intro _
    cases record with
    | some _ => exact .pure _
    | none => exact .fail
  refine (Finishes.read _).bind fun grp => ?_
  exact ((Finishes.forEach committed _).onFail finishes_groupAbort).bind fun _ => recorded _

/-- A payment only waits for ever when the group lock is held. -/
theorem payAlone_returns {w : World} (free : w.plane.locked = false) (i : Nat) (amount : Int) :
    (payAlone i amount none w).1 ≠ .halt := by
  have rest : Finishes (payGroup i amount none) :=
    ((finishes_pay i amount).onFail finishes_groupAbort).bind fun _ =>
      finishes_groupCommit.onFail (.modify _)
  have begins : (groupBegin w).1 ≠ .halt := by
    rw [groupBegin_eq, free]
    cases w.plane.faults w.plane.tick with
    | true => exact nofun
    | false => exact finishes_groupJoin .ward w.begun
  change ((groupBegin >>= fun _ => payGroup i amount none) w).1 ≠ .halt
  rw [Action.bind_apply]
  rcases run : groupBegin w with ⟨_ | _ | _, w'⟩
  · exact rest w'
  · exact nofun
  · exact absurd (congrArg Prod.fst run) begins

/-! ### What a payment must do -/

/-- The two sides of a payment to one Spark: the treasury and the purse in memory, and the ledger
and the Spark's rows as their connections read them. -/
structure Account where
  treasury : Int
  purse : Option Int
  ledger : List LedgerRow
  rows : Option (List SparkRow)
deriving DecidableEq

def Gyre.account (i : Nat) (g : Gyre) : Account :=
  { treasury := g.treasury
    purse := g.sparks[i]?.map (·.purse)
    ledger := g.ward.now.ledger
    rows := g.sparks[i]?.map (·.db.now.spark) }

/-- Both sides, once the payment `row` books is made. -/
def Account.paid (row : LedgerRow) (amount : Int) (a : Account) : Account :=
  { treasury := a.treasury - amount
    purse := a.purse.map (· + amount)
    ledger := a.ledger ++ [row]
    rows := a.rows.map fun rows => rows.map fun r => { r with purse := r.purse + amount } }

/-- The ledger row of a payment to the Spark at place `i`. -/
def Gyre.wages (g : Gyre) (i : Nat) (amount : Int) : LedgerRow :=
  wagesRow g amount ((g.sparks[i]?.map (·.id)).getD 0)

/-- `honest` returns 0 when none of its queries fails. -/
def Gyre.Honest (g : Gyre) : Prop :=
  (honest { g := g, plane := Plane.fresh fun _ => false }).1 = .ret true

/-- A payment that returns an error changed neither side, and did not make an honest ward
dishonest; a payment that returns 0 is held by both sides. -/
structure AllOrNothing (i : Nat) (amount : Int) (w : World) : Prop where
  refused : ∀ w', payAlone i amount none w = (.fail, w') →
    w'.g.account i = w.g.account i ∧ (w.g.Honest → w'.g.Honest)
  landed : ∀ w', payAlone i amount none w = (.ret (), w') →
    w'.g.account i = (w.g.account i).paid (w.g.wages i amount) amount

/-- Nothing fails before the `COMMIT` of the ward has returned, and then the `COMMIT` of the Spark
or the group record does. -/
structure LateFault (w : World) : Prop where
  free : w.plane.locked = false
  clean : ∀ j < 8, w.plane.faults (w.plane.tick + j) = false
  late : w.plane.faults (w.plane.tick + 8) = true ∨ w.plane.faults (w.plane.tick + 9) = true

/-! ### When it does -/

section Outcomes

variable {w : World} {i : Nat} {s : Spark} {r : SparkRow} {amount : Int}

theorem account_put (here : w.g.sparks[i]? = some s) (c : Conn WardTables) (s' : Spark) (t : Int) :
    (w.g.put i c s' t).account i =
      { treasury := t, purse := some s'.purse, ledger := c.now.ledger
        rows := some s'.db.now.spark } := by
  rw [Gyre.account, put_at (List.getElem?_eq_some_iff.mp here).1]
  rfl

/-- A payment that lands is held by both sides. -/
theorem account_withPayment (ready : PayReady w.g i s r) :
    (w.g.withPayment i s amount).account i =
      (w.g.account i).paid (w.g.wages i amount) amount := by
  have row : s.db.now.spark.map
        (fun r => if r.id = s.id then { r with purse := r.purse + amount } else r) =
      s.db.now.spark.map fun r => { r with purse := r.purse + amount } := by
    simp [ready.rows, ready.named]
  rw [Gyre.withPayment, account_put ready.here]
  simp only [Gyre.account, Account.paid, Gyre.wages, ready.here, Option.map_some,
    Option.getD_some, ← row]
  rfl

/-- Wages that were committed stand in the ledger. -/
theorem account_booked (here : w.g.sparks[i]? = some s) (s' : Spark) (t : Int) :
    (w.g.put i (w.g.booked s amount) s' t).account i ≠ w.g.account i := by
  intro same
  have ledger := congrArg Account.ledger same
  rw [account_put here] at ledger
  have longer : (w.g.ward.now.ledger ++ [wagesRow w.g amount s.id]).length =
      w.g.ward.now.ledger.length := congrArg List.length ledger
  simp at longer

/-- A payment that is refused early leaves the ward as it was; one that is refused late leaves its
wages in the ledger. -/
theorem LeftBy.early_or_late (here : w.g.sparks[i]? = some s) {g : Gyre}
    (left : LeftBy w i s amount g) :
    (FaultBefore 8 w ∧ g = w.g) ∨
      ((∀ j < 8, w.plane.faults (w.plane.tick + j) = false) ∧
        (w.plane.faults (w.plane.tick + 8) = true ∨ w.plane.faults (w.plane.tick + 9) = true) ∧
        g.account i ≠ w.g.account i) := by
  cases left with
  | untouched early => exact Or.inl ⟨early, rfl⟩
  | ledger clean fault => exact Or.inr ⟨clean, Or.inl fault, account_booked here _ _⟩
  | both clean fault => exact Or.inr ⟨clean, Or.inr fault, account_booked here _ _⟩

end Outcomes

/-- In every world the service comes through, a payment is all or nothing exactly when the plane
does not let the ward's `COMMIT` land and then fail the Spark's, or the group record. -/
theorem payment_all_or_nothing_iff (w : World) (reached : Reached w) (i : Nat)
    (here : i < w.g.sparks.length) (amount : Int) :
    AllOrNothing i amount w ↔ ¬ LateFault w := by
  obtain ⟨s, r, ready⟩ := reached.sound.payReady here
  have outcome := payAlone_outcome amount ready
  constructor
  · intro whole fault
    have returns := payAlone_returns fault.free i amount
    rcases run : payAlone i amount none w with ⟨_ | _ | _, w'⟩
    · -- a payment that returns 0 met no failure
      have clean := (Action.wp_ret outcome run).2
      rcases fault.late with spark | record
      · rw [clean 8 (by decide)] at spark
        cases spark
      · rw [clean 9 (by decide)] at record
        cases record
    · rcases (Action.wp_err outcome run).early_or_late ready.here with ⟨early, -⟩ | ⟨-, -, changed⟩
      · obtain ⟨j, before, word⟩ := early
        rw [fault.clean j before] at word
        cases word
      · exact changed (whole.refused w' run).1
    · rw [run] at returns
      exact returns rfl
  · intro unharmed
    constructor
    · intro w' run
      rcases (Action.wp_err outcome run).early_or_late ready.here with ⟨-, same⟩ | ⟨clean, late, -⟩
      · rw [same]
        exact ⟨rfl, fun honest => honest⟩
      · cases locked : w.plane.locked with
        | false => exact absurd ⟨locked, clean, late⟩ unharmed
        | true =>
            -- a held lock is waited for, and nothing fails
            have waits : (payAlone i amount none w).1 = .halt := by
              change ((groupBegin >>= fun _ => payGroup i amount none) w).1 = .halt
              rw [Action.bind_apply, groupBegin_eq, locked]
              rfl
            rw [run] at waits
            cases waits
    · intro w' run
      rw [(Action.wp_ret outcome run).1]
      exact account_withPayment ready

/-- A founded ward with one Spark, over a plane that fails the given operations. -/
def ofOneSpark (faults : Nat → Bool) : World := World.founded 1 1 faults

theorem reached_ofOneSpark {faults : Nat → Bool}
    (founded : (foundWard liveName 1 1 0 (World.fresh faults)).1 = .ret ()) :
    Reached (ofOneSpark faults) :=
  .founded (founds_fresh founded)

/-- A payment whose eighth operation fails is all or nothing: nothing of it is left. -/
theorem early_fault_all_or_nothing : AllOrNothing 0 10 (ofOneSpark fun k => k == 25) := by
  have reached : Reached (ofOneSpark fun k => k == 25) := reached_ofOneSpark (by decide +kernel)
  have here : 0 < (ofOneSpark fun k => k == 25).g.sparks.length := by decide +kernel
  refine (payment_all_or_nothing_iff _ reached 0 here 10).mpr fun fault => ?_
  have early : (ofOneSpark fun k => k == 25).plane.faults
      ((ofOneSpark fun k => k == 25).plane.tick + 7) = true := by
    decide +kernel
  rw [fault.clean 7 (by decide)] at early
  cases early

/-- A payment of 10 whose group record fails, the tenth of its operations, is refused; the
treasury and the purse in memory are put back, the ledger and the Spark's row keep the wages, and
the ward is no longer honest. -/
theorem late_fault_splits_a_payment :
    Reached (ofOneSpark fun k => k == 27) ∧ (ofOneSpark fun k => k == 27).g.Honest ∧
      (payAlone 0 10 none (ofOneSpark fun k => k == 27)).1 = .fail ∧
      (payAlone 0 10 none (ofOneSpark fun k => k == 27)).2.g.account 0 =
        { treasury := 300, purse := some 0
          ledger := [{ cycle := 0, what := .wages, amount := -10, spark := 0 }]
          rows := (ofOneSpark fun k => k == 27).g.sparks[0]?.map fun s =>
            s.db.now.spark.map fun r => { r with purse := 10 } } ∧
      ¬ (payAlone 0 10 none (ofOneSpark fun k => k == 27)).2.g.Honest ∧
      ¬ AllOrNothing 0 10 (ofOneSpark fun k => k == 27) := by
  have reached : Reached (ofOneSpark fun k => k == 27) := reached_ofOneSpark (by decide +kernel)
  have before : (honest
      { g := (ofOneSpark fun k => k == 27).g, plane := Plane.fresh fun _ => false }).1 =
        .ret true := by
    decide +kernel
  have failed : (payAlone 0 10 none (ofOneSpark fun k => k == 27)).1 = .fail := by decide +kernel
  have left : (payAlone 0 10 none (ofOneSpark fun k => k == 27)).2.g.account 0 =
      { treasury := 300, purse := some 0
        ledger := [{ cycle := 0, what := .wages, amount := -10, spark := 0 }]
        rows := (ofOneSpark fun k => k == 27).g.sparks[0]?.map fun s =>
          s.db.now.spark.map fun r => { r with purse := 10 } } := by
    decide +kernel
  have after : (honest
      { g := (payAlone 0 10 none (ofOneSpark fun k => k == 27)).2.g
        plane := Plane.fresh fun _ => false }).1 ≠ .ret true := by
    decide +kernel
  refine ⟨reached, before, failed, left, after, fun whole => ?_⟩
  cases run : payAlone 0 10 none (ofOneSpark fun k => k == 27) with
  | mk result w' =>
      rw [run] at failed after
      obtain rfl : result = .fail := failed
      exact after ((whole.refused w' run).2 before)

end GyreWard
