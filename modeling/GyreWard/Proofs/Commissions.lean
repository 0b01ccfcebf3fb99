/-
Module: GyreWard.Proofs.Commissions
Purpose: A commission one fallible operation at a time: what `build_venue` leaves of the books when it
  returns an error, and when that is nothing.
Trusted boundary: none
Main exports: Gyre.outlay, CostsNothingRefused, HalfBuilt, buildVenue_buys,
  commission_costs_nothing_iff
-/
import GyreWard.Model.Service
import GyreWard.Proofs.Building

namespace GyreWard

open Lib

/-! ### What a commission may touch -/

/-- The treasury and what the ward spent, venue `i`'s column, and the ledger. -/
structure Outlay where
  treasury : Int
  spent : Int
  built : Option Int
  ledger : List LedgerRow
deriving DecidableEq

def Gyre.outlay (i : Int) (g : Gyre) : Outlay :=
  { treasury := g.treasury
    spent := g.spent
    built := selectBuilt i g.ward.now
    ledger := g.ward.now.ledger }

/-- The ledger row of a commission. -/
def commissionRow (g : Gyre) (v : Venue) : LedgerRow :=
  { cycle := g.cycle, what := .commission, amount := -v.cost, spark := -1 }

/-- A commission that returns an error leaves the books and the column as they were; one that
returns 0 adds the one row of the venue's cost to the ledger, and moves that much scrip. -/
structure CostsNothingRefused (i : Int) (w : World) : Prop where
  refused : ∀ w', buildVenue i w = (.fail, w') → w'.g.outlay i = w.g.outlay i
  bought : ∀ w', buildVenue i w = (.ret (), w') →
    ∃ v, venues[i.toNat]? = some v ∧
      w'.g.ward.now.ledger = w.g.ward.now.ledger ++ [commissionRow w.g v] ∧
      w'.g.treasury = w.g.treasury - v.cost ∧ w'.g.spent = w.g.spent + v.cost

/-! ### What can happen to a commission -/

/-- `build_venue` has no reason to refuse venue `i`, and its query is answered. -/
structure Offered (i : Int) (v : Venue) (w : World) : Prop where
  can : Buildable w.g i v
  answered : w.plane.faults w.plane.tick = false

/-- The scrip is taken, and then the plane fails the `UPDATE` or the `INSERT`. -/
def HalfBuilt (i : Int) (w : World) : Prop :=
  (∃ v, Offered i v w) ∧
    (w.plane.faults (w.plane.tick + 1) = true ∨ w.plane.faults (w.plane.tick + 2) = true)

section Outcomes

variable {w : World} {i : Int} {v : Venue}

/-- What stands under a query that was answered with a row. -/
theorem asked_of_unbuilt (unbuilt : (w.g.askWard (selectBuilt i)).getD (-1) = 0) :
    w.g.ward.isOpen = true ∧ w.g.ward.now.created = true := by
  unfold Gyre.askWard at unbuilt
  split at unbuilt
  · rename_i housed
    exact Bool.and_eq_true_iff.mp housed
  · cases unbuilt

/-- What is refused before the scrip is taken changes nothing. -/
theorem buildVenue_declines (declined : ∀ v, ¬ Offered i v w) :
    ∃ n, buildVenue i w = (.fail, w.after n) := by
  unfold buildVenue
  by_cases range : i < 0 ∨ (nVenues : Int) ≤ i
  · exact ⟨0, by simp [range, Action.bind_apply, World.after_zero]⟩
  · simp only [range, ↓reduceIte]
    cases listed : venues[i.toNat]? with
    | none => exact ⟨0, rfl⟩
    | some v =>
        dsimp only
        rw [Action.bind_ret (Action.read_apply _ _)]
        by_cases short : w.g.treasury < v.cost
        · exact ⟨0, by simp [short, Action.bind_apply, World.after_zero]⟩
        · have stands : built i w = (.ret true, w.after 1) := by
            have taken : (w.plane.faults w.plane.tick ||
                decide ((w.g.askWard (selectBuilt i)).getD (-1) ≠ 0)) = true := by
              by_contra answer
              rw [Bool.or_eq_true, not_or] at answer
              apply declined v
              constructor
              · exact {
                  lower := by omega, upper := by omega, listed
                  affordable := Int.not_lt.mp short
                  unbuilt := by simpa using answer.2 }
              · exact Bool.eq_false_of_not_eq_true answer.1
            rw [built_word, taken]
          refine ⟨1, ?_⟩
          simp only [short, ↓reduceIte]
          rw [Action.bind_ret stands]
          rfl

/-- A venue that is offered is paid for first; then the column and the ledger are written, if the
plane lets them. -/
theorem buildVenue_buys (offered : Offered i v w) :
    buildVenue i w =
      if w.plane.faults (w.plane.tick + 1) then (.fail, (w.after 2).setGyre (Gyre.spend v.cost))
      else if w.plane.faults (w.plane.tick + 2) then
        (.fail, (w.after 3).setGyre fun g =>
          (g.spend v.cost).onTables (WardTables.withBuilt i g.cycle))
      else (.ret (), (w.after 3).setGyre (Gyre.withVenue i v)) := by
  have range : ¬ (i < 0 ∨ (nVenues : Int) ≤ i) := by
    have := offered.can.lower
    have := offered.can.upper
    omega
  have affordable : ¬ w.g.treasury < v.cost := Int.not_lt.mpr offered.can.affordable
  have unbuilt : built i w = (.ret false, w.after 1) := by
    rw [built_word, offered.answered, offered.can.unbuilt]
    rfl
  have ⟨isOpen, created⟩ := asked_of_unbuilt offered.can.unbuilt
  have column := runWard_word (w := (w.after 1).setGyre (Gyre.spend v.cost)) isOpen created
    (WardTables.withBuilt i w.g.cycle)
  unfold buildVenue
  simp only [range, ↓reduceIte, offered.can.listed]
  rw [Action.bind_ret (Action.read_apply _ _)]
  simp only [affordable, ↓reduceIte]
  rw [Action.bind_ret unbuilt]
  simp only [Bool.false_eq_true, ↓reduceIte, remember]
  rw [Action.bind_ret (Action.modify_apply _ _), Action.bind_ret (Action.read_apply _ _)]
  cases second : w.plane.faults (w.plane.tick + 1) with
  | true => exact Action.bind_fail (column.trans (if_pos second))
  | false =>
      have set := column.trans (if_neg (Bool.eq_false_iff.mp second))
      -- the ledger row, in the world where the column is set
      have row := runWard_word (w := (((w.after 1).setGyre (Gyre.spend v.cost)).after 1).setGyre
        (Gyre.onTables (WardTables.withBuilt i w.g.cycle))) isOpen created
        (WardTables.withRow (commissionRow w.g v))
      exact (Action.bind_ret set).trans row

/-- Scrip that was taken shows in the treasury. -/
theorem outlay_spent (listed : venues[i.toNat]? = some v) {g : Gyre} (f : WardTables → WardTables) :
    ((g.spend v.cost).onTables f).outlay i ≠ g.outlay i := by
  intro same
  have treasury : g.treasury - v.cost = g.treasury := congrArg Outlay.treasury same
  have := cost_pos listed
  omega

end Outcomes

/-- A commission costs nothing when it is refused, and its price when it is not, exactly when the
plane does not let `build_venue` take the scrip and then fail the `UPDATE` or the `INSERT`. -/
theorem commission_costs_nothing_iff (w : World) (i : Int) :
    CostsNothingRefused i w ↔ ¬ HalfBuilt i w := by
  by_cases offered : ∃ v, Offered i v w
  · obtain ⟨v, offered⟩ := offered
    have buys := buildVenue_buys offered
    have listed := offered.can.listed
    constructor
    · rintro whole ⟨-, fault⟩
      cases second : w.plane.faults (w.plane.tick + 1) with
      | true =>
          rw [if_pos second] at buys
          exact outlay_spent listed (fun t => t) (whole.refused _ buys)
      | false =>
          rw [second, Bool.false_eq_true, false_or] at fault
          rw [if_neg (Bool.eq_false_iff.mp second), if_pos fault] at buys
          exact outlay_spent listed (WardTables.withBuilt i w.g.cycle) (whole.refused _ buys)
    · intro unharmed
      have clean : ¬ w.plane.faults (w.plane.tick + 1) = true ∧
          ¬ w.plane.faults (w.plane.tick + 2) = true := by
        rw [← not_or]
        exact fun fault => unharmed ⟨⟨v, offered⟩, fault⟩
      rw [if_neg clean.1, if_neg clean.2] at buys
      constructor
      · intro w' run
        rw [buys] at run
        cases run
      · intro w' run
        rw [buys] at run
        obtain rfl := (Prod.mk.inj run).2
        exact ⟨v, listed, rfl, rfl, rfl⟩
  · have ⟨n, declines⟩ := buildVenue_declines fun v can => offered ⟨v, can⟩
    constructor
    · exact fun _ half => offered half.1
    · intro _
      constructor
      · intro w' run
        rw [declines] at run
        obtain rfl := (Prod.mk.inj run).2
        rfl
      · intro w' run
        rw [declines] at run
        cases run

/-- A founded ward whose plane fails the `UPDATE` of its first commission. -/
def unwrittenColumn : World := World.founded 0 1 fun k => k == 13

/-- The Tavern is refused there, as a player reads it, and its 120 scrip are gone. -/
theorem refused_commission_costs_scrip :
    Reached unwrittenColumn ∧
      (unwrittenColumn.answer (text "commission 0")).1 =
        some
          { ok := false
            say := text "no such venue, or it is already built, or the treasury will not reach" } ∧
      unwrittenColumn.g.outlay 0 =
        { treasury := 300, spent := 0, built := some 0, ledger := [] } ∧
      (buildVenue 0 unwrittenColumn).1 = .fail ∧
      (buildVenue 0 unwrittenColumn).2.g.outlay 0 =
        { treasury := 180, spent := 120, built := some 0, ledger := [] } ∧
      ¬ CostsNothingRefused 0 unwrittenColumn := by
  have reached : Reached unwrittenColumn := .founded (founds_fresh (by decide +kernel))
  have reply : (unwrittenColumn.answer (text "commission 0")).1 =
      some
        { ok := false
          say := text "no such venue, or it is already built, or the treasury will not reach" } := by
    decide +kernel
  have before : unwrittenColumn.g.outlay 0 =
      { treasury := 300, spent := 0, built := some 0, ledger := [] } := by
    decide +kernel
  have failed : (buildVenue 0 unwrittenColumn).1 = .fail := by decide +kernel
  have after : (buildVenue 0 unwrittenColumn).2.g.outlay 0 =
      { treasury := 180, spent := 120, built := some 0, ledger := [] } := by
    decide +kernel
  constructor
  · exact reached
  constructor
  · exact reply
  constructor
  · exact before
  constructor
  · exact failed
  constructor
  · exact after
  · intro whole
    have same := whole.refused _ (ran_to failed)
    rw [before, after] at same
    cases same

end GyreWard
