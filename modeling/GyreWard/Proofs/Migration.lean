/-
Module: GyreWard.Proofs.Migration
Purpose: Where a migration stops, and what it leaves there; and when one that fails has moved nothing.
Trusted boundary: none
Main exports: Gyre.Accepts, Spark.Accepts, Passage.carried, Comes, migrate_refused, migrate_comes,
  MovesNothing, Harmless, failed_migration_moves_nothing_iff
-/
import GyreWard.Proofs.AllOrNothing
import GyreWard.Proofs.Wards

namespace GyreWard

open Lib

/-! ### Statements of a migration -/

/-- A ward's database takes a row into its ledger, given the plane's word on the statement. -/
structure Gyre.Accepts (word : Bool) (g : Gyre) : Prop where
  word : word = false
  isOpen : g.ward.isOpen = true
  created : g.ward.now.created = true

/-- A Spark's database takes an update of their row. -/
structure Spark.Accepts (word : Bool) (s : Spark) : Prop where
  word : word = false
  isOpen : s.db.isOpen = true
  created : s.db.now.created = true

/-- A ward with one row more in its ledger. -/
def Gyre.entered (row : LedgerRow) (g : Gyre) : Gyre :=
  g.setWard fun c => { c with now := { c.now with ledger := c.now.ledger ++ [row] } }

/-- A Spark's tables, with another name on the wire. -/
def SparkTables.renamed (id : Int) (wire owner : Nat) (t : SparkTables) : SparkTables :=
  { t with spark := t.spark.map fun r => if r.id = id then { r with wire := wire, owner := owner } else r }

section Statements

variable {w : World}

theorem book_accepted (accepts : w.g.Accepts (w.plane.faults w.plane.tick)) (what : Entry)
    (amount spark : Int) :
    book what amount spark w =
      (.ret (), (w.after 1).setGyre
        (Gyre.entered { cycle := w.g.cycle, what, amount, spark })) := by
  unfold book
  rw [Action.bind_ret (Action.read_apply _ _)]
  unfold runWard
  rw [statement_eq, accepts.word]
  simp [Gyre.onWard, Conn.execute, accepts.isOpen, insertLedger, WardTables.existing,
    accepts.created, World.setGyre, Gyre.entered, Gyre.setWard]

theorem book_refused (refuses : ¬ w.g.Accepts (w.plane.faults w.plane.tick)) (what : Entry)
    (amount spark : Int) : book what amount spark w = (.fail, w.after 1) := by
  unfold book
  rw [Action.bind_ret (Action.read_apply _ _)]
  unfold runWard
  rw [statement_eq]
  cases word : w.plane.faults w.plane.tick with
  | true => rfl
  | false =>
      rw [if_neg Bool.false_ne_true]
      cases effect : Gyre.onWard (Conn.execute (insertLedger
        { cycle := w.g.cycle, what := what, amount := amount, spark := spark })) w.g with
      | none => rfl
      | some g =>
          obtain ⟨c, executed, -⟩ := onWard_eq_some.mp effect
          obtain ⟨isOpen, t, inserted, -⟩ := Conn.execute_eq_some.mp executed
          have created : w.g.ward.now.created = true := by
            unfold insertLedger WardTables.existing at inserted
            split at inserted
            · assumption
            · cases inserted
          exact absurd ⟨word, isOpen, created⟩ refuses

theorem rename_accepted {i : Nat} {s : Spark} (here : w.g.sparks[i]? = some s)
    (accepts : s.Accepts (w.plane.faults w.plane.tick)) (wire owner : Nat) :
    runSpark i (updateSparkWire s.id wire owner) w =
      (.ret (), (w.after 1).setGyre (Gyre.setSpark i fun s' =>
        { s' with db := { s.db with now := s.db.now.renamed s.id wire owner } })) := by
  unfold runSpark
  rw [statement_eq, accepts.word]
  simp [Gyre.onSpark, here, Conn.execute, accepts.isOpen, updateSparkWire, updateSparkRow,
    SparkTables.existing, accepts.created, World.setGyre, SparkTables.renamed]

theorem rename_refused {i : Nat} {s : Spark} (here : w.g.sparks[i]? = some s)
    (refuses : ¬ s.Accepts (w.plane.faults w.plane.tick)) (wire owner : Nat) :
    runSpark i (updateSparkWire s.id wire owner) w = (.fail, w.after 1) := by
  unfold runSpark
  rw [statement_eq]
  cases word : w.plane.faults w.plane.tick with
  | true => rfl
  | false =>
      rw [if_neg Bool.false_ne_true]
      cases effect : Gyre.onSpark i (Conn.execute (updateSparkWire s.id wire owner)) w.g with
      | none => rfl
      | some g =>
          obtain ⟨s', c, there, executed, -⟩ := onSpark_eq_some.mp effect
          obtain rfl : s = s' := Option.some.inj (here.symm.trans there)
          obtain ⟨isOpen, t, updated, -⟩ := Conn.execute_eq_some.mp executed
          have created : s.db.now.created = true := by
            unfold updateSparkWire updateSparkRow SparkTables.existing at updated
            split at updated
            · assumption
            · cases updated
          exact absurd ⟨word, isOpen, created⟩ refuses

end Statements

/-! ### Where it stops -/

namespace Passage

variable (p : Passage)

/-- The plane's word on the statement that is `n` operations away. -/
def word (n : Nat) : Bool := p.plane.faults (p.plane.tick + n)

/-- The passage some fallible operations later. -/
def later (n : Nat) : Passage := { p with plane := { p.plane with tick := p.plane.tick + n } }

/-- What `scalar` makes of the count of the items in a Spark's hands. -/
def carried (i : Nat) : Int := if p.word 0 then -1 else (p.leaving.askSpark i countHeld).getD (-1)

/-- The wards once what they account for has changed hands. -/
def settled (i : Nat) (s : Spark) : Passage :=
  { p with
    leaving := (p.leaving.issue (-s.purse)).hold (-(p.carried i))
    entering := (p.entering.issue s.purse).hold (p.carried i) }

/-- The Spark's departure is in the ledger of the ward they leave. -/
def departed (s : Spark) : Passage :=
  { p with
    leaving := p.leaving.entered
      { cycle := p.leaving.cycle, what := .departed, amount := -s.purse, spark := s.id } }

/-- Their arrival is in the ledger of the ward they go to. -/
def arrived (s : Spark) : Passage :=
  { p with
    entering := p.entering.entered
      { cycle := p.entering.cycle, what := .arrived, amount := s.purse, spark := s.id } }

/-- Their row has the wire name and the owner of that ward. -/
def renamed (i : Nat) (s : Spark) (wire : Nat) : Passage :=
  { p with
    leaving := p.leaving.setSpark i fun s' =>
      { s' with
        db := { s.db with
          now := s.db.now.renamed s.id wire (classOwner .spark p.entering.wardNo) } } }

end Passage

/-- Where a migration of the Spark `s` at place `i` stops, and with what. -/
inductive Comes (i : Nat) (s : Spark) (p : Passage) : Result Unit × Passage → Prop where
  | unbooked (refuses : ¬ p.leaving.Accepts (p.word 1)) :
      Comes i s p (.fail, (p.settled i s).later 2)
  | unwelcome (books : p.leaving.Accepts (p.word 1)) (refuses : ¬ p.entering.Accepts (p.word 2)) :
      Comes i s p (.fail, ((p.settled i s).departed s).later 3)
  | unnamed (books : p.leaving.Accepts (p.word 1)) (welcomes : p.entering.Accepts (p.word 2))
      (nameless : wireId p.entering.wardNo (sparkLocal s.id) = none) :
      Comes i s p (.halt, (((p.settled i s).departed s).arrived s).later 3)
  | unmoved {wire : Nat} (books : p.leaving.Accepts (p.word 1))
      (welcomes : p.entering.Accepts (p.word 2))
      (named : wireId p.entering.wardNo (sparkLocal s.id) = some wire)
      (refuses : ¬ s.Accepts (p.word 3)) :
      Comes i s p (.fail, (((p.settled i s).departed s).arrived s).later 4)
  | moved {wire : Nat} (books : p.leaving.Accepts (p.word 1))
      (welcomes : p.entering.Accepts (p.word 2))
      (named : wireId p.entering.wardNo (sparkLocal s.id) = some wire)
      (accepts : s.Accepts (p.word 3)) :
      Comes i s p
        (.ret (), (((((p.settled i s).departed s).arrived s).renamed i s wire).later 4).move i)

/-- The guards of `migrate`. -/
def Passage.Refuses (idx : Int) (p : Passage) : Prop :=
  idx < 0 ∨ p.leaving.nsparks ≤ idx ∨ maxSparks ≤ p.entering.sparks.length

/-- A migration that is refused by the guards has done nothing. -/
theorem migrate_refused {idx : Int} {p : Passage} (refuses : p.Refuses idx) :
    migrate idx p = (.fail, p) := by
  unfold migrate
  rw [Action.bind_ret (Action.read_apply _ _)]
  by_cases outside : idx < 0 ∨ p.leaving.nsparks ≤ idx
  · exact congrFun (if_pos outside) p
  · have full : maxSparks ≤ p.entering.sparks.length := by
      rcases refuses with low | high | full
      · exact absurd (Or.inl low) outside
      · exact absurd (Or.inr high) outside
      · exact full
    rw [if_neg (show ¬ (idx < 0 ∨ (id p).leaving.nsparks ≤ idx) from outside)]
    exact congrFun (if_pos full) p

theorem onLeaving_run {α : Type} {x : Action World α} {p : Passage} {result : Result α} {w : World}
    (run : x { g := p.leaving, plane := p.plane } = (result, w)) :
    onLeaving x p = (result, { p with leaving := w.g, plane := w.plane }) := by
  unfold onLeaving
  rw [run]

theorem onEntering_run {α : Type} {x : Action World α} {p : Passage} {result : Result α} {w : World}
    (run : x { g := p.entering, plane := p.plane } = (result, w)) :
    onEntering x p = (result, { p with entering := w.g, plane := w.plane }) := by
  unfold onEntering
  rw [run]

/-- What `migrate` does once what the wards account for has changed hands. -/
def carryOver (i : Nat) (s : Spark) (ward : Int) : Action Passage Unit := do
  onLeaving (book .departed (-s.purse) s.id)
  onEntering (book .arrived s.purse s.id)
  let wire ← onEntering (wireIdOrExit ward (sparkLocal s.id))
  onLeaving (runSpark i (updateSparkWire s.id wire (classOwner .spark ward)))
  Action.modify (Passage.move i)

theorem migrate_eq {idx : Int} {s : Spark} {p : Passage} (admitted : ¬ p.Refuses idx)
    (here : p.leaving.sparks[idx.toNat]? = some s) :
    migrate idx p =
      carryOver idx.toNat s p.entering.wardNo ((p.settled idx.toNat s).later 1) := by
  have inside : ¬ (idx < 0 ∨ (id p).leaving.nsparks ≤ idx) := fun outside =>
    admitted (outside.imp_right Or.inl)
  have room : ¬ maxSparks ≤ (id p).entering.sparks.length := fun full =>
    admitted (Or.inr (Or.inr full))
  unfold migrate
  rw [Action.bind_ret (Action.read_apply _ _), if_neg inside, if_neg room]
  have there : (id p).leaving.sparks[idx.toNat]? = some s := here
  rw [there]
  have counted : onLeaving (scalarSpark idx.toNat countHeld)
      { p with leaving := p.leaving.issue (-s.purse), entering := p.entering.issue s.purse } =
        (.ret (p.carried idx.toNat), _) :=
    onLeaving_run (scalarOr_word _ _)
  change (onLeaving (scalarSpark idx.toNat countHeld) >>= _)
    { p with leaving := p.leaving.issue (-s.purse), entering := p.entering.issue s.purse } = _
  rw [Action.bind_ret counted]
  rfl

theorem onLeaving_book {p : Passage} (accepts : p.leaving.Accepts (p.word 0)) (what : Entry)
    (amount spark : Int) :
    onLeaving (book what amount spark) p =
      (.ret (), Passage.later
        { p with leaving := p.leaving.entered { cycle := p.leaving.cycle, what, amount, spark } } 1) :=
  onLeaving_run (book_accepted (w := { g := p.leaving, plane := p.plane }) accepts what amount spark)

theorem onLeaving_no_book {p : Passage} (refuses : ¬ p.leaving.Accepts (p.word 0)) (what : Entry)
    (amount spark : Int) : onLeaving (book what amount spark) p = (.fail, p.later 1) :=
  onLeaving_run (book_refused (w := { g := p.leaving, plane := p.plane }) refuses what amount spark)

theorem onEntering_book {p : Passage} (accepts : p.entering.Accepts (p.word 0)) (what : Entry)
    (amount spark : Int) :
    onEntering (book what amount spark) p =
      (.ret (), Passage.later
        { p with entering := p.entering.entered { cycle := p.entering.cycle, what, amount, spark } } 1) :=
  onEntering_run (book_accepted (w := { g := p.entering, plane := p.plane }) accepts what amount spark)

theorem onEntering_no_book {p : Passage} (refuses : ¬ p.entering.Accepts (p.word 0)) (what : Entry)
    (amount spark : Int) : onEntering (book what amount spark) p = (.fail, p.later 1) :=
  onEntering_run (book_refused (w := { g := p.entering, plane := p.plane }) refuses what amount spark)

/-- A migration that the guards let through comes to one of these ends. -/
theorem migrate_comes {idx : Int} {s : Spark} {p : Passage} (admitted : ¬ p.Refuses idx)
    (here : p.leaving.sparks[idx.toNat]? = some s) : Comes idx.toNat s p (migrate idx p) := by
  rw [migrate_eq admitted here]
  unfold carryOver
  generalize place : idx.toNat = i at here ⊢
  by_cases books : p.leaving.Accepts (p.word 1)
  swap
  · have refused := onLeaving_no_book (p := (p.settled i s).later 1)
      (fun accepts => books ⟨accepts.word, accepts.isOpen, accepts.created⟩) .departed (-s.purse) s.id
    rw [Action.bind_fail refused]
    exact .unbooked books
  have left : onLeaving (book .departed (-s.purse) s.id) ((p.settled i s).later 1) =
      (.ret (), ((p.settled i s).departed s).later 2) :=
    onLeaving_book (p := (p.settled i s).later 1) ⟨books.word, books.isOpen, books.created⟩ _ _ _
  rw [Action.bind_ret left]
  by_cases welcomes : p.entering.Accepts (p.word 2)
  swap
  · have refused := onEntering_no_book (p := ((p.settled i s).departed s).later 2)
      (fun accepts => welcomes ⟨accepts.word, accepts.isOpen, accepts.created⟩) .arrived s.purse s.id
    rw [Action.bind_fail refused]
    exact .unwelcome books welcomes
  have came : onEntering (book .arrived s.purse s.id) (((p.settled i s).departed s).later 2) =
      (.ret (), (((p.settled i s).departed s).arrived s).later 3) :=
    onEntering_book (p := ((p.settled i s).departed s).later 2)
      ⟨welcomes.word, welcomes.isOpen, welcomes.created⟩ _ _ _
  rw [Action.bind_ret came]
  cases named : wireId p.entering.wardNo (sparkLocal s.id) with
  | none =>
      have exits : onEntering (wireIdOrExit p.entering.wardNo (sparkLocal s.id))
          ((((p.settled i s).departed s).arrived s).later 3) =
            (.halt, (((p.settled i s).departed s).arrived s).later 3) := by
        unfold wireIdOrExit
        rw [named]
        rfl
      rw [Action.bind_apply, exits]
      exact .unnamed books welcomes named
  | some wire =>
      have goes : onEntering (wireIdOrExit p.entering.wardNo (sparkLocal s.id))
          ((((p.settled i s).departed s).arrived s).later 3) =
            (.ret wire, (((p.settled i s).departed s).arrived s).later 3) := by
        unfold wireIdOrExit
        rw [named]
        rfl
      rw [Action.bind_ret goes]
      have there : ((((p.settled i s).departed s).arrived s).later 3).leaving.sparks[i]? = some s :=
        here
      by_cases accepts : s.Accepts (p.word 3)
      · have renamed := onLeaving_run (rename_accepted (w :=
          { g := ((((p.settled i s).departed s).arrived s).later 3).leaving
            plane := ((((p.settled i s).departed s).arrived s).later 3).plane }) there
          ⟨accepts.word, accepts.isOpen, accepts.created⟩ wire (classOwner .spark p.entering.wardNo))
        rw [Action.bind_ret renamed]
        exact .moved books welcomes named accepts
      · have refused := onLeaving_run (rename_refused (w :=
          { g := ((((p.settled i s).departed s).arrived s).later 3).leaving
            plane := ((((p.settled i s).departed s).arrived s).later 3).plane }) there
          (fun holds => accepts ⟨holds.word, holds.isOpen, holds.created⟩) wire
          (classOwner .spark p.entering.wardNo))
        rw [Action.bind_fail refused]
        exact .unmoved books welcomes named accepts

/-! ### A migration that fails -/

/-- A migration that returns an error leaves both wards as they were. -/
def MovesNothing (idx : Int) (p : Passage) : Prop :=
  ∀ p', migrate idx p = (.fail, p') → p'.leaving = p.leaving ∧ p'.entering = p.entering

theorem MovesNothing.left {idx : Int} {p : Passage} (nothing : MovesNothing idx p)
    (failed : (migrate idx p).1 = .fail) : (migrate idx p).2.leaving = p.leaving := by
  cases run : migrate idx p with
  | mk result p' =>
      rw [run] at failed
      obtain rfl : result = .fail := failed
      exact (nothing p' run).1

/-- A migration stops before anything is moved, or comes through, or ends the process. -/
inductive Harmless (idx : Int) (p : Passage) : Prop where
  | refused (refuses : p.Refuses idx)
  | accepted {s : Spark} (here : p.leaving.sparks[idx.toNat]? = some s)
      (books : p.leaving.Accepts (p.word 1)) (welcomes : p.entering.Accepts (p.word 2))
      (accepts : wireId p.entering.wardNo (sparkLocal s.id) = none ∨ s.Accepts (p.word 3))
  | emptyHanded {s : Spark} (here : p.leaving.sparks[idx.toNat]? = some s)
      (refuses : ¬ p.leaving.Accepts (p.word 1)) (purse : s.purse = 0)
      (items : p.carried idx.toNat = 0)

/-- A ledger with one row more is not what it was. -/
theorem entered_ne {g g' : Gyre} {row : LedgerRow} (same : g'.ward = g.ward) :
    g'.entered row ≠ g := by
  intro eq
  have ledgers : g'.ward.now.ledger ++ [row] = g.ward.now.ledger :=
    congrArg (fun g => g.ward.now.ledger) eq
  rw [same] at ledgers
  have lengths := congrArg List.length ledgers
  rw [List.length_append, List.length_singleton] at lengths
  omega

/-- A migration that fails has moved nothing exactly when the guards refuse it, or every statement
is accepted so that it does not fail, or the first of them is not and there was nothing to move. -/
theorem failed_migration_moves_nothing_iff (idx : Int) (p : Passage) :
    MovesNothing idx p ↔ Harmless idx p := by
  by_cases refuses : p.Refuses idx
  · constructor
    · exact fun _ => .refused refuses
    · intro _ p' run
      rw [migrate_refused refuses] at run
      obtain rfl : p = p' := (Prod.mk.inj run).2
      exact ⟨rfl, rfl⟩
  have inside : idx.toNat < p.leaving.sparks.length := by
    unfold Passage.Refuses Gyre.nsparks at refuses
    omega
  have here := List.getElem?_eq_getElem inside
  generalize p.leaving.sparks[idx.toNat] = s at here
  have comes := migrate_comes refuses here
  unfold MovesNothing
  generalize migrate idx p = ending at comes ⊢
  cases comes with
  | unbooked none =>
      constructor
      · intro nothing
        have same := (nothing _ rfl).1
        have issued := congrArg Gyre.issued same
        have found := congrArg Gyre.found same
        simp only [Passage.later, Passage.settled, Gyre.hold, Gyre.issue] at issued found
        exact .emptyHanded here none (by omega) (by omega)
      · intro harmless p' run
        obtain ⟨purse, items⟩ : s.purse = 0 ∧ p.carried idx.toNat = 0 := by
          cases harmless with
          | refused refused => exact absurd refused refuses
          | accepted _ books => exact absurd books none
          | emptyHanded there _ purse items =>
              obtain rfl := Option.some.inj (here.symm.trans there)
              exact ⟨purse, items⟩
        obtain rfl := (Prod.mk.inj run).2
        simp [Passage.later, Passage.settled, Gyre.hold, Gyre.issue, purse, items]
  | unwelcome books none =>
      constructor
      · intro nothing
        exact absurd (nothing _ rfl).1 (entered_ne rfl)
      · intro harmless
        cases harmless with
        | refused refused => exact absurd refused refuses
        | accepted _ _ welcomes => exact absurd welcomes none
        | emptyHanded _ unbooked => exact absurd books unbooked
  | unnamed books welcomes nameless =>
      constructor
      · exact fun _ => .accepted here books welcomes (Or.inl nameless)
      · intro _ p' run
        cases run
  | unmoved books welcomes named none =>
      constructor
      · intro nothing
        exact absurd (nothing _ rfl).1 (entered_ne rfl)
      · intro harmless
        cases harmless with
        | refused refused => exact absurd refused refuses
        | accepted there _ _ accepts =>
            obtain rfl := Option.some.inj (here.symm.trans there)
            rcases accepts with nameless | accepts
            · rw [nameless] at named
              cases named
            · exact absurd accepts none
        | emptyHanded _ unbooked => exact absurd books unbooked
  | moved books welcomes named accepts =>
      constructor
      · exact fun _ => .accepted here books welcomes (Or.inr accepts)
      · intro _ p' run
        cases run

/-- Two wards of a game, the first of which has paid its first Spark ten. -/
def crossing (faults : Nat → Bool) : Passage :=
  { leaving :=
      (payAlone 0 10 none { g := shardWard 0 2 7, plane := Plane.fresh fun _ => false }).2.g
    entering := shardWard 1 1 8
    plane := Plane.fresh faults }

/-- The second ward does not take the arrival into its ledger.  The Spark stays where they were with
their ten, but they are gone in the ledger, and what the wards issued has moved: neither is honest. -/
theorem refused_arrival_moves_the_books :
    (crossing fun k => k == 2).leaving.Honest ∧ (crossing fun k => k == 2).entering.Honest ∧
      (migrate 0 (crossing fun k => k == 2)).1 = .fail ∧
      ¬ (migrate 0 (crossing fun k => k == 2)).2.leaving.Honest ∧
      ¬ (migrate 0 (crossing fun k => k == 2)).2.entering.Honest ∧
      ¬ MovesNothing 0 (crossing fun k => k == 2) := by
  have before : (honest { g := (crossing fun k => k == 2).leaving
                          plane := Plane.fresh fun _ => false }).1 = .ret true := by
    decide +kernel
  have before' : (honest { g := (crossing fun k => k == 2).entering
                           plane := Plane.fresh fun _ => false }).1 = .ret true := by
    decide +kernel
  have failed : (migrate 0 (crossing fun k => k == 2)).1 = .fail := by decide +kernel
  have after : (honest { g := (migrate 0 (crossing fun k => k == 2)).2.leaving
                         plane := Plane.fresh fun _ => false }).1 = .ret false := by
    decide +kernel
  have after' : (honest { g := (migrate 0 (crossing fun k => k == 2)).2.entering
                          plane := Plane.fresh fun _ => false }).1 = .ret false := by
    decide +kernel
  have broken : ¬ (migrate 0 (crossing fun k => k == 2)).2.leaving.Honest := by
    intro honest
    have both := after.symm.trans honest
    cases both
  constructor
  · exact before
  constructor
  · exact before'
  constructor
  · exact failed
  constructor
  · exact broken
  constructor
  · intro honest
    have both := after'.symm.trans honest
    cases both
  · intro nothing
    rw [nothing.left failed] at broken
    exact broken before

end GyreWard
