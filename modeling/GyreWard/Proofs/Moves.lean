/-
Module: GyreWard.Proofs.Moves
Purpose: What a cycle and a payment are made of: the statements they run, what they change in
  memory, and how their databases join the group.
Trusted boundary: none
Main exports: WardStatement, SparkStatement, Bookkeeping, Write, Entered, Jotted, EntryOf, Move, TurnMove,
  GroupMove, made_cycleWrites, made_pay, payEntries, pay_eq, workEntries, goThere, goToWork_eq, BoardStatement,
  ContractMove, JoinMove, made_postContract, Inside, Move.inside, Arrival, made_joinWard
-/
import GyreWard.Model.Ward

namespace GyreWard

open Lib
open Lib.Action (MadeOf)

/-! ### The moves

Every invariant about a cycle is a fact about these, one at a time.
-/

/-- The statements a cycle or a payment runs on the ward. -/
inductive WardStatement : (WardTables → Option WardTables) → Prop where
  | built (venue cycle : Int) : WardStatement (updateBuilt venue cycle)
  | ledger (row : LedgerRow) : WardStatement (insertLedger row)
  | clear : WardStatement deleteBoard
  | taken (id : Nat) (spark : Int) : WardStatement (updateTaken id spark)
  | outcome (id : Nat) (won : Bool) :
      WardStatement (updateOutcome id (text (if won then "kept" else "lost")))
  | books (cycle treasury debt issued retired : Int) :
      WardStatement (updateWard cycle treasury debt issued retired)

/-- The statements a cycle or a payment runs on a Spark. -/
inductive SparkStatement : (SparkTables → Option SparkTables) → Prop where
  | purse (id amount : Int) : SparkStatement (updatePurse id amount)
  | held (row : HeldRow) : SparkStatement (insertHeld row)
  | work (id wear cycles : Int) (place : Place) :
      SparkStatement (updateWork id wear cycles place)

/-- What a cycle or a payment changes in memory. -/
inductive Bookkeeping : (Gyre → Gyre) → Prop where
  | spend (cost : Int) : Bookkeeping (Gyre.spend cost)
  | draw (r : Rng) : Bookkeeping fun g => { g with rng := r }
  | earn (amount : Int) : Bookkeeping (Gyre.earn amount)
  | paid (i : Nat) (amount : Int) : Bookkeeping (Gyre.paid i amount)
  | setWear (i : Nat) (f : Int → Int) : Bookkeeping (Gyre.setWear i f)
  | movePlace (i : Nat) (f : Place → Place) : Bookkeeping (Gyre.movePlace i f)
  | compound : Bookkeeping Gyre.compound
  | retire (amount : Int) : Bookkeeping (Gyre.retire amount)

/-- The statements that write one contract of the board. -/
inductive BoardStatement : (WardTables → Option WardTables) → Prop where
  | post (cycle : Int) (kind : Text) (payout risk : Int) (place : Place) :
      BoardStatement (insertBoard cycle kind payout risk place)
  | name (id wire owner : Nat) : BoardStatement (updateContractWire id wire owner)

/-- The moves of one contract of the board. -/
inductive ContractMove : (α : Type) → Action World α → Prop where
  | fallible : ContractMove Unit fallible
  | onWard {stmt : WardTables → Option WardTables} (runs : BoardStatement stmt) :
      ContractMove Unit (update (Gyre.onWard (Conn.execute stmt)))
  | draw (r : Rng) : ContractMove Unit (remember fun g => { g with rng := r })

/-- The moves of a participant joining the group. -/
inductive JoinMove : (α : Type) → Action World α → Prop where
  | fallible : JoinMove Unit fallible
  | takePart (h : Handle) :
      JoinMove Unit (Action.modify (World.setPlane fun p => { p with parts := p.parts ++ [h] }))
  | beginWard : JoinMove Unit (update (Gyre.onWard Conn.begin))
  | beginSpark (i : Nat) : JoinMove Unit (update (Gyre.onSpark i Conn.begin))
  | enlist (h : Handle) :
      JoinMove Unit (Action.modify (World.setGroup fun grp => { grp with dbs := grp.dbs ++ [h] }))

/-- What is written outside a join.  One contract of the board is one write, because the name it
gives the row depends on the row it has just written. -/
inductive Write : (α : Type) → Action World α → Prop where
  | fallible : Write Unit fallible
  | onWard {stmt : WardTables → Option WardTables} (runs : WardStatement stmt) :
      Write Unit (update (Gyre.onWard (Conn.execute stmt)))
  | onSpark (i : Nat) {stmt : SparkTables → Option SparkTables} (runs : SparkStatement stmt) :
      Write Unit (update (Gyre.onSpark i (Conn.execute stmt)))
  | remember {f : Gyre → Gyre} (keeps : Bookkeeping f) : Write Unit (remember f)
  | contract (i : Nat) : Write Unit (postContract i)

/-- What is written outside a join, apart from the contracts that are posted on the board. -/
inductive Entered : (α : Type) → Action World α → Prop where
  | fallible : Entered Unit fallible
  | onWard {stmt : WardTables → Option WardTables} (runs : WardStatement stmt) :
      Entered Unit (update (Gyre.onWard (Conn.execute stmt)))
  | onSpark (i : Nat) {stmt : SparkTables → Option SparkTables} (runs : SparkStatement stmt) :
      Entered Unit (update (Gyre.onSpark i (Conn.execute stmt)))
  | remember {f : Gyre → Gyre} (keeps : Bookkeeping f) : Entered Unit (remember f)

theorem Entered.write {α : Type} {x : Action World α} (enters : Entered α x) : Write α x := by
  cases enters with
  | fallible => exact .fallible
  | onWard runs => exact .onWard runs
  | onSpark i runs => exact .onSpark i runs
  | remember keeps => exact .remember keeps

/-- The statements on the ward that take no contract. -/
inductive Jotting : (WardTables → Option WardTables) → Prop where
  | built (venue cycle : Int) : Jotting (updateBuilt venue cycle)
  | ledger (row : LedgerRow) : Jotting (insertLedger row)
  | clear : Jotting deleteBoard
  | outcome (id : Nat) (won : Bool) :
      Jotting (updateOutcome id (text (if won then "kept" else "lost")))
  | books (cycle treasury debt issued retired : Int) :
      Jotting (updateWard cycle treasury debt issued retired)

theorem Jotting.statement {stmt : WardTables → Option WardTables} (jots : Jotting stmt) :
    WardStatement stmt := by
  cases jots with
  | built venue cycle => exact .built venue cycle
  | ledger row => exact .ledger row
  | clear => exact .clear
  | outcome id won => exact .outcome id won
  | books cycle treasury debt issued retired => exact .books cycle treasury debt issued retired

/-- What is entered without writing to a Spark and without taking a contract. -/
inductive Jotted : (α : Type) → Action World α → Prop where
  | fallible : Jotted Unit fallible
  | onWard {stmt : WardTables → Option WardTables} (jots : Jotting stmt) :
      Jotted Unit (update (Gyre.onWard (Conn.execute stmt)))
  | remember {f : Gyre → Gyre} (keeps : Bookkeeping f) : Jotted Unit (remember f)

theorem Jotted.entered {α : Type} {x : Action World α} (jots : Jotted α x) : Entered α x := by
  cases jots with
  | fallible => exact .fallible
  | onWard jots => exact .onWard jots.statement
  | remember keeps => exact .remember keeps

/-- What is entered in the turn of the Spark at place `i`, once they are in the group. -/
inductive EntryOf (i : Nat) : (α : Type) → Action World α → Prop where
  | jot {α : Type} {x : Action World α} (jots : Jotted α x) : EntryOf i α x
  | onSpark {stmt : SparkTables → Option SparkTables} (runs : SparkStatement stmt) :
      EntryOf i Unit (update (Gyre.onSpark i (Conn.execute stmt)))

theorem EntryOf.entered {i : Nat} {α : Type} {x : Action World α} (entry : EntryOf i α x) :
    Entered α x := by
  cases entry with
  | jot jots => exact jots.entered
  | onSpark runs => exact .onSpark i runs

/-- The moves of a Spark's turn. -/
inductive TurnMove : (α : Type) → Action World α → Prop where
  | enter {α : Type} {x : Action World α} (enters : Entered α x) : TurnMove α x
  | join (h : Handle) : TurnMove Unit (groupJoin h)

/-- The moves of a cycle between `group_begin` and `group_commit`. -/
inductive Move : (α : Type) → Action World α → Prop where
  | write {α : Type} {x : Action World α} (writes : Write α x) : Move α x
  | join (h : Handle) : Move Unit (groupJoin h)

/-- What stands outside a ward and its plane: what fails, when the clock is late, and what the store
holds under a name. -/
structure Outside where
  faults : Nat → Bool
  late : Nat → Bool
  wardDisk : Nat → Text → WardTables
  sparkDisk : Nat → Text → SparkTables

def Plane.outside (p : Plane) : Outside :=
  { faults := p.faults, late := p.late, wardDisk := p.wardDisk, sparkDisk := p.sparkDisk }

/-- The moves of a group: it begins, databases join it, and it ends. -/
inductive GroupMove : (α : Type) → Action World α → Prop where
  | fallible : GroupMove Unit fallible
  | plane {f : Plane → Plane} (inside : ∀ p, (f p).outside = p.outside) :
      GroupMove Unit (Action.modify (World.setPlane f))
  | group (f : Group → Group) : GroupMove Unit (Action.modify (World.setGroup f))
  | beginWard : GroupMove Unit (update (Gyre.onWard Conn.begin))
  | beginSpark (i : Nat) : GroupMove Unit (update (Gyre.onSpark i Conn.begin))
  | commitWard : GroupMove Unit (update (Gyre.onWard Conn.commit))
  | commitSpark (i : Nat) : GroupMove Unit (update (Gyre.onSpark i Conn.commit))
  | rollbackWard : GroupMove Unit (remember (Gyre.setWard Conn.rollback))
  | rollbackSpark (i : Nat) :
      GroupMove Unit (remember (Gyre.setSpark i fun s => { s with db := s.db.rollback }))

/-- Anything that stays inside the group: it begins no group and ends none. -/
inductive Inside : (α : Type) → Action World α → Prop where
  | fallible : Inside Unit fallible
  | update (f : Gyre → Option Gyre) : Inside Unit (update f)
  | remember (f : Gyre → Gyre) : Inside Unit (remember f)
  | takePart (h : Handle) :
      Inside Unit (Action.modify (World.setPlane fun p => { p with parts := p.parts ++ [h] }))
  | enlist (h : Handle) :
      Inside Unit (Action.modify (World.setGroup fun grp => { grp with dbs := grp.dbs ++ [h] }))

/-! ### What writes -/

theorem jotted_runWard {stmt : WardTables → Option WardTables} (jots : Jotting stmt) :
    MadeOf Jotted Unit (runWard stmt) :=
  .bind (.move .fallible) fun _ => .move (.onWard jots)

theorem jotted_remember {f : Gyre → Gyre} (keeps : Bookkeeping f) :
    MadeOf Jotted Unit (remember f) :=
  .move (.remember keeps)

theorem jotted_scalarOr (missing : Int) (query : Gyre → Option Int) :
    MadeOf Jotted Int (scalarOr missing query) := by
  refine .bind (.attempt (.move .fallible)) fun answered => ?_
  cases answered with
  | some _ => exact .read _
  | none => exact .pure _

theorem jotted_built (venue : Int) : MadeOf Jotted Bool (built venue) :=
  .bind (jotted_scalarOr _ _) fun _ => .pure _

theorem jotted_book (what : Entry) (amount spark : Int) :
    MadeOf Jotted Unit (book what amount spark) :=
  .bind (.read _) fun _ => jotted_runWard (.ledger _)

theorem jotted_draw (n : UInt32) : MadeOf Jotted Int (draw n) := by
  refine .bind (.read _) fun r => ?_
  cases rngBelow r n with
  | some drawn => exact .bind (jotted_remember (.draw _)) fun _ => .pure _
  | none => exact .halt

theorem jotted_buildVenue (i : Int) : MadeOf Jotted Unit (buildVenue i) := by
  unfold buildVenue
  refine .guard ?_
  cases venues[i.toNat]? with
  | none => exact .fail
  | some v =>
      refine .bind (.read _) fun treasury => .guard ?_
      refine .bind (jotted_built i) fun stands => .guard ?_
      refine .bind (jotted_remember (.spend _)) fun _ => .bind (.read _) fun now => ?_
      exact .bind (jotted_runWard (.built _ _)) fun _ => jotted_book _ _ _

theorem jotted_viewBuilt : ∀ places : List Nat, MadeOf Jotted (List Int) (viewBuilt places)
  | [] => .pure _
  | _ :: rest =>
      .bind (jotted_scalarOr _ _) fun _ => .bind (jotted_viewBuilt rest) fun _ => .pure _

theorem jotted_commission : MadeOf Jotted Int commission := by
  refine .bind (.bind (.read _) fun _ => .bind (jotted_viewBuilt _) fun _ => .pure _) fun view => ?_
  refine .bind (.attempt (.move .fallible)) fun asked => ?_
  cases asked with
  | none => exact .pure _
  | some _ =>
      refine .bind (.read _) fun late => ?_
      cases queenPlan late view with
      | none => exact .pure _
      | some i =>
          refine .ite (fun _ => .pure _) fun _ => ?_
          refine .bind (.attempt (jotted_buildVenue i)) fun landed => ?_
          cases landed <;> exact .pure _

theorem jotted_keepContract (payout spark : Int) :
    MadeOf Jotted Text (keepContract payout spark) :=
  .bind (.read _) fun _ => .bind (jotted_remember (.earn payout)) fun _ =>
    .bind (jotted_book _ _ _) fun _ => .pure _

theorem jotted_debtClock : MadeOf Jotted Unit debtClock := by
  refine .bind (jotted_remember .compound) fun _ => .bind (.read _) fun paid => ?_
  refine .ite (fun _ => ?_) fun _ => .pure _
  exact .bind (jotted_remember (.retire _)) fun _ => jotted_book _ _ _

/-- What is only jotted down is entered. -/
theorem entered_of_jotted {α : Type} {x : Action World α} (made : MadeOf Jotted α x) :
    MadeOf Entered α x :=
  made.mono fun _ _ jots => .move jots.entered

theorem made_scalarOr (missing : Int) (query : Gyre → Option Int) :
    MadeOf Entered Int (scalarOr missing query) :=
  entered_of_jotted (jotted_scalarOr missing query)

theorem made_built (venue : Int) : MadeOf Entered Bool (built venue) :=
  entered_of_jotted (jotted_built venue)

theorem made_remember {f : Gyre → Gyre} (keeps : Bookkeeping f) :
    MadeOf Entered Unit (remember f) :=
  .move (.remember keeps)

theorem made_runWard {stmt : WardTables → Option WardTables} (runs : WardStatement stmt) :
    MadeOf Entered Unit (runWard stmt) :=
  .bind (.move .fallible) fun _ => .move (.onWard runs)

theorem entered_buildVenue (i : Int) : MadeOf Entered Unit (buildVenue i) :=
  entered_of_jotted (jotted_buildVenue i)

theorem made_commission : MadeOf Entered Int commission := entered_of_jotted jotted_commission

theorem made_debtClock : MadeOf Entered Unit debtClock := entered_of_jotted jotted_debtClock

/-- Taking a contract is the one thing on the ward that is not jotted down. -/
theorem made_choose (i : Nat) : MadeOf Entered Int (choose i) := by
  refine .bind (.attempt (.move .fallible)) fun asked => ?_
  cases asked with
  | none => exact .pure _
  | some _ =>
      refine .bind (.read _) fun found => ?_
      rcases found with ⟨_ | rows, _ | s⟩
      · exact .pure _
      · exact .pure _
      · exact .pure _
      · refine .bind (made_built 0) fun rested => .bind (made_built 4) fun backed => ?_
        refine .ite (fun _ => .pure _) fun _ => ?_
        refine .bind (.attempt (made_runWard (.taken _ _))) fun took => ?_
        cases took <;> exact .pure _

theorem made_of_entered {α : Type} {x : Action World α} (made : MadeOf Entered α x) :
    MadeOf Write α x :=
  made.mono fun _ _ enters => .move enters.write

theorem made_buildVenue (i : Int) : MadeOf Write Unit (buildVenue i) :=
  made_of_entered (entered_buildVenue i)

theorem made_postBoard : MadeOf Write Unit postBoard :=
  .bind (made_of_entered (made_built 2)) fun _ =>
    .bind (made_of_entered (made_runWard .clear)) fun _ => .forEach fun i _ => .move (.contract i)

/-! ### Joining -/

theorem made_sqlBegin (h : Handle) : MadeOf JoinMove Unit (sqlBegin h) := by
  cases h with
  | ward => exact .bind (.move .fallible) fun _ => .move .beginWard
  | spark i => exact .bind (.move .fallible) fun _ => .move (.beginSpark i)

theorem made_weftTxnJoin (h : Handle) (txn : Nat) :
    MadeOf JoinMove Unit (weftTxnJoin h txn) := by
  refine .bind (.move .fallible) fun _ => .bind (.read _) fun w => ?_
  refine .ite (fun _ => .fail) fun _ => .ite (fun _ => .fail) fun _ => ?_
  exact .ite (fun _ => .pure _) fun _ => .move (.takePart h)

theorem made_groupJoin (h : Handle) : MadeOf JoinMove Unit (groupJoin h) := by
  refine .bind (.read _) fun grp => ?_
  refine .ite (fun _ => .pure _) fun _ => .ite (fun _ => .fail) fun _ => ?_
  exact .bind (made_weftTxnJoin h _) fun _ => .bind (made_sqlBegin h) fun _ => .move (.enlist h)

theorem JoinMove.inside {α : Type} {x : Action World α} (moves : JoinMove α x) :
    MadeOf Inside α x := by
  cases moves with
  | fallible => exact .move .fallible
  | takePart h => exact .move (.takePart h)
  | beginWard => exact .move (.update _)
  | beginSpark _ => exact .move (.update _)
  | enlist h => exact .move (.enlist h)

/-! ### What moves -/

/-- What only writes moves. -/
theorem made_of_writes {α : Type} {x : Action World α} (made : MadeOf Write α x) :
    MadeOf Move α x :=
  made.mono fun _ _ writes => .move (.write writes)

/-- What only enters something is a move of a turn. -/
theorem turn_of_entered {α : Type} {x : Action World α} (made : MadeOf Entered α x) :
    MadeOf TurnMove α x :=
  made.mono fun _ _ enters => .move (.enter enters)

theorem moves_of_turn {α : Type} {x : Action World α} (made : MadeOf TurnMove α x) :
    MadeOf Move α x := by
  apply made.mono
  intro _ _ moves
  cases moves with
  | enter enters => exact .move (.write enters.write)
  | join h => exact .move (.join h)

theorem entry_of_jotted {i : Nat} {α : Type} {x : Action World α} (made : MadeOf Jotted α x) :
    MadeOf (EntryOf i) α x :=
  made.mono fun _ _ jots => .move (.jot jots)

theorem turn_of_entry {i : Nat} {α : Type} {x : Action World α} (made : MadeOf (EntryOf i) α x) :
    MadeOf TurnMove α x :=
  turn_of_entered (made.mono fun _ _ entry => .move entry.entered)

theorem entry_runSpark {i : Nat} {stmt : SparkTables → Option SparkTables}
    (runs : SparkStatement stmt) : MadeOf (EntryOf i) Unit (runSpark i stmt) :=
  .bind (entry_of_jotted (.move .fallible)) fun _ => .move (.onSpark runs)

/-- What `pay` writes once the Spark is in the group. -/
def payEntries (i : Nat) (amount : Int) (item : Option (Text × Text)) : Action World Unit := do
  let id ← Action.read fun w => (w.g.sparks[i]?.map (·.id)).getD 0
  book .wages (-amount) id
  runSpark i (updatePurse id amount)
  match item with
  | some (name, kind) =>
      let cycle ← Action.read (·.g.cycle)
      runSpark i (insertHeld { item := name, kind, cycle })
  | none => pure ()
  remember (Gyre.paid i amount)

theorem pay_eq (i : Nat) (amount : Int) (item : Option (Text × Text)) :
    pay i amount item = groupJoin (.spark i) >>= fun _ => payEntries i amount item := rfl

theorem made_payEntries (i : Nat) (amount : Int) (item : Option (Text × Text)) :
    MadeOf (EntryOf i) Unit (payEntries i amount item) := by
  refine .bind (.read _) fun id => .bind (entry_of_jotted (jotted_book _ _ _)) fun _ => ?_
  refine .bind (entry_runSpark (.purse _ _)) fun _ => ?_
  cases item with
  | none => exact entry_of_jotted (jotted_remember (.paid i amount))
  | some named =>
      refine .bind (.read _) fun _ => .bind (entry_runSpark (.held _)) fun _ => ?_
      exact entry_of_jotted (jotted_remember (.paid i amount))

/-- A payment is made of the moves of a turn. -/
theorem turn_pay (i : Nat) (amount : Int) (item : Option (Text × Text)) :
    MadeOf TurnMove Unit (pay i amount item) :=
  .bind (.move (.join _)) fun _ => turn_of_entry (made_payEntries i amount item)

/-- What a Spark who went to a contract writes down, once they are in the group. -/
def workEntries (i : Nat) : Action World Unit := do
  let g ← Action.read (·.g)
  match g.sparks[i]? with
  | some s => runSpark i (updateWork s.id s.wear g.cycle s.place)
  | none => pure ()

theorem made_workEntries (i : Nat) : MadeOf (EntryOf i) Unit (workEntries i) := by
  refine .bind (.read _) fun g => ?_
  cases g.sparks[i]? with
  | some s => exact entry_runSpark (.work _ _ _ _)
  | none => exact .pure _

/-- The way to a contract, coordinate by coordinate. -/
def goThere (i id : Nat) : Action World Unit := do
  let x ← scalar64Ward (selectContract id (·.place.x))
  remember (Gyre.movePlace i fun p => { p with x := x })
  let y ← scalar64Ward (selectContract id (·.place.y))
  remember (Gyre.movePlace i fun p => { p with y := y })
  let z ← scalar64Ward (selectContract id (·.place.z))
  remember (Gyre.movePlace i fun p => { p with z := z })

theorem goToWork_eq (i id : Nat) :
    goToWork i id = goThere i id >>= fun _ => groupJoin (.spark i) >>= fun _ => workEntries i := by
  unfold goToWork goThere
  simp only [bind_assoc]
  rfl

theorem jotted_goThere (i id : Nat) : MadeOf Jotted Unit (goThere i id) := by
  have moved : ∀ f, MadeOf Jotted Unit (remember (Gyre.movePlace i f)) := fun f =>
    jotted_remember (.movePlace i f)
  refine .bind (jotted_scalarOr _ _) fun x => .bind (moved _) fun _ => ?_
  refine .bind (jotted_scalarOr _ _) fun y => .bind (moved _) fun _ => ?_
  exact .bind (jotted_scalarOr _ _) fun z => moved _

theorem made_goToWork (i id : Nat) : MadeOf TurnMove Unit (goToWork i id) := by
  rw [goToWork_eq]
  exact .bind (turn_of_entered (entered_of_jotted (jotted_goThere i id))) fun _ =>
    .bind (.move (.join _)) fun _ => turn_of_entry (made_workEntries i)

theorem made_settleContract (i id : Nat) (won : Bool) (earned : Int) (item : Option Text) :
    MadeOf TurnMove Unit (settleContract i id won earned item) := by
  refine .bind (turn_of_entered (made_built 1)) fun repaired => ?_
  refine .bind (turn_of_entered (made_remember (.setWear _ _))) fun _ => ?_
  refine .bind (turn_of_entered (made_runWard (.outcome _ _))) fun _ => .bind (.read _) fun _ => ?_
  refine .ite (fun _ => ?_) fun _ => made_goToWork i id
  exact .bind (turn_pay _ _ _) fun _ => made_goToWork i id

theorem made_workContract (i : Nat) (s : Spark) (id : Nat) :
    MadeOf TurnMove Unit (workContract i s id) := by
  refine .bind (turn_of_entered (made_scalarOr _ _)) fun payout => ?_
  refine .bind (turn_of_entered (made_scalarOr _ _)) fun risk => ?_
  refine .bind (turn_of_entered (entered_of_jotted (jotted_draw 100))) fun roll => .ite (fun _ => ?_) fun _ => ?_
  · refine .bind (turn_of_entered (entered_of_jotted (.bind (jotted_keepContract _ _) fun _ => .pure _)))
      fun item => ?_
    exact made_settleContract _ _ _ _ _
  · exact .bind (.pure _) fun item => made_settleContract _ _ _ _ _

theorem made_sparkTurn (i : Nat) : MadeOf TurnMove Unit (sparkTurn i) := by
  refine .bind (turn_of_entered (made_choose i)) fun id => .ite (fun _ => .pure _) fun _ => ?_
  refine .bind (.read _) fun s => ?_
  cases s with
  | some s => exact made_workContract _ _ _
  | none => exact .pure _

/-- A payment is made of moves. -/
theorem made_pay (i : Nat) (amount : Int) (item : Option (Text × Text)) :
    MadeOf Move Unit (pay i amount item) :=
  moves_of_turn (turn_pay i amount item)

/-- A cycle's writes are made of moves. -/
theorem made_cycleWrites : MadeOf Move Bool cycleWrites := by
  refine .bind (made_of_writes (made_of_entered made_commission)) fun decided => .guard ?_
  refine .bind (made_of_writes made_postBoard) fun _ => .bind (.read _) fun n => ?_
  refine .bind (.forEach fun i _ => moves_of_turn (made_sparkTurn i)) fun _ => ?_
  refine made_of_writes (made_of_entered (.bind made_debtClock fun _ =>
    .bind (made_built 5) fun row => ?_))
  exact .bind (.read _) fun g => .bind (made_runWard (.books _ _ _ _ _)) fun _ => .pure _

/-! ### A contract of the board -/

theorem made_wireIdOrExit {move : (α : Type) → Action World α → Prop} (ward : Int) (loc : Nat) :
    MadeOf move Nat (wireIdOrExit ward loc) := by
  unfold wireIdOrExit
  cases wireId ward loc with
  | some wire => exact .pure _
  | none => exact .halt

theorem made_postContract (i : Nat) : MadeOf ContractMove Unit (postContract i) := by
  have drawn : ∀ n, MadeOf ContractMove Int (draw n) := by
    intro n
    refine .bind (.read _) fun r => ?_
    cases rngBelow r n with
    | some drawn => exact .bind (.move (.draw _)) fun _ => .pure _
    | none => exact .halt
  have asked : ∀ venue, MadeOf ContractMove Bool (built venue) := by
    intro venue
    refine .bind (.bind (.attempt (.move .fallible)) fun answered => ?_) fun _ => .pure _
    cases answered with
    | some _ => exact .read _
    | none => exact .pure _
  have ran : ∀ {stmt}, BoardStatement stmt → MadeOf ContractMove Unit (runWard stmt) := fun runs =>
    .bind (.move .fallible) fun _ => .move (.onWard runs)
  refine .bind (drawn 9) fun _ => .bind (drawn 55) fun _ => .bind (drawn 20) fun _ => ?_
  refine .bind (asked 3) fun plaza => .bind (.read _) fun g => ?_
  refine .bind (ran (.post _ _ _ _ _)) fun _ => .bind (made_wireIdOrExit _ _) fun wire => ?_
  exact ran (.name _ _ _)

theorem Write.inside {α : Type} {x : Action World α} (writes : Write α x) :
    MadeOf Inside α x := by
  cases writes with
  | fallible => exact .move .fallible
  | onWard _ => exact .move (.update _)
  | onSpark _ _ => exact .move (.update _)
  | remember _ => exact .move (.remember _)
  | contract i =>
      refine (made_postContract i).mono fun β y isMove => ?_
      cases isMove with
      | fallible => exact .move .fallible
      | onWard _ => exact .move (.update _)
      | draw r => exact .move (.remember _)

/-- Every move of a cycle stays inside the group. -/
theorem Move.inside {α : Type} {x : Action World α} (moves : Move α x) : MadeOf Inside α x := by
  cases moves with
  | write writes => exact writes.inside
  | join h => exact (made_groupJoin h).mono fun _ _ moves => moves.inside

/-! ### Arriving -/

/-- The moves of `join_ward`. -/
inductive Arrival : (α : Type) → Action World α → Prop where
  | fallible : Arrival Unit fallible
  | seat (s : Spark) : Arrival Unit (remember fun g => { g with sparks := g.sparks ++ [s] })

theorem made_joinWard (id : Int) : MadeOf Arrival Unit (joinWard id) := by
  refine .bind (.read _) fun g => .guard (.bind (.read _) fun tick => ?_)
  refine .bind (.move .fallible) fun _ => .bind (.move .fallible) fun _ => ?_
  refine .bind (.move .fallible) fun _ => .bind (.move .fallible) fun _ => ?_
  refine .bind (.move .fallible) fun _ => .bind (made_wireIdOrExit _ _) fun wire => ?_
  refine .bind (.move .fallible) fun _ => .bind (.read _) fun disk => ?_
  split
  · exact .move (.seat _)
  · exact .fail

theorem Arrival.inside {α : Type} {x : Action World α} (moves : Arrival α x) :
    MadeOf Inside α x := by
  cases moves with
  | fallible => exact .move .fallible
  | seat s => exact .move (.remember _)

/-! ### Groups -/

theorem JoinMove.grouped {α : Type} {x : Action World α} (moves : JoinMove α x) : GroupMove α x := by
  cases moves with
  | fallible => exact .fallible
  | takePart h => exact .plane fun _ => rfl
  | beginWard => exact .beginWard
  | beginSpark i => exact .beginSpark i
  | enlist h => exact .group _

theorem grouped_groupJoin (h : Handle) : MadeOf GroupMove Unit (groupJoin h) :=
  (made_groupJoin h).mono fun _ _ moves => .move moves.grouped

theorem grouped_observe (call : TxnCall) : MadeOf GroupMove Unit (observe call) :=
  .move (.plane fun _ => rfl)

theorem grouped_groupBegin : MadeOf GroupMove Unit groupBegin := by
  apply MadeOf.bind (.move (.group _))
  intro _
  have began : MadeOf GroupMove Nat weftTxnBegin := by
    apply MadeOf.bind (.read _)
    intro locked
    apply MadeOf.ite
    · intro _
      exact .bind .halt fun _ => .bind (.move .fallible) fun _ =>
        .bind (.move (.plane fun _ => rfl)) fun _ => .bind (.read _) fun _ =>
          .bind (grouped_observe _) fun _ => .pure _
    · intro _
      exact .bind (.move .fallible) fun _ => .bind (.move (.plane fun _ => rfl)) fun _ =>
        .bind (.read _) fun _ => .bind (grouped_observe _) fun _ => .pure _
  exact .bind began fun _ => .bind (.move (.group _)) fun _ => grouped_groupJoin .ward

theorem grouped_groupAbort : MadeOf GroupMove Unit groupAbort := by
  apply MadeOf.bind (.read _)
  intro grp
  apply MadeOf.bind
  · apply MadeOf.forEach
    intro h _
    cases h with
    | ward => exact .move .rollbackWard
    | spark i => exact .move (.rollbackSpark i)
  · intro _
    apply MadeOf.bind (grouped_observe _)
    intro _
    apply MadeOf.bind (.read _)
    intro p
    exact .ite (fun _ => .pure _) fun _ => .move (.plane fun _ => rfl)

theorem grouped_groupCommit : MadeOf GroupMove Unit groupCommit := by
  apply MadeOf.bind (.read _)
  intro grp
  apply MadeOf.bind
  · apply MadeOf.onFail _ grouped_groupAbort
    apply MadeOf.forEach
    intro h _
    cases h with
    | ward => exact .bind (.move .fallible) fun _ => .move .commitWard
    | spark i => exact .bind (.move .fallible) fun _ => .move (.commitSpark i)
  · intro _
    apply MadeOf.bind (grouped_observe _)
    intro _
    apply MadeOf.bind (.read _)
    intro p
    apply MadeOf.ite
    · intro _
      exact .fail
    · intro _
      apply MadeOf.bind (.attempt (.move .fallible))
      intro recorded
      apply MadeOf.bind (.move (.plane fun _ => rfl))
      intro _
      cases recorded with
      | some _ => exact .pure _
      | none => exact .fail

/-! ### Ending a group -/

theorem made_sqlCommit (h : Handle) : MadeOf Inside Unit (sqlCommit h) := by
  cases h with
  | ward => exact .bind (.move .fallible) fun _ => .move (.update _)
  | spark i => exact .bind (.move .fallible) fun _ => .move (.update _)

end GyreWard
