/-
Module: GyreWard.Model.Store
Purpose: The databases of a ward and of its Sparks, the statements on them, and the store
  plane's transaction group (`fdb_vfs.c`, `weft_txn_*`).
Trusted boundary: human-reviewed translation of the source; SQLite's own behaviour as documented
Main exports: WardTables, SparkTables, Conn, Spark, Gyre, Plane, Group, World,
  runWard, runSpark, scalarWard, scalarSpark, weftTxnBegin, weftTxnJoin, weftTxnAbort, weftTxnCommit
-/
import GyreWard.Lib.Action
import GyreWard.Model.Rng
import GyreWard.Model.Wire

namespace GyreWard

open Lib

/-! ### Tables

A table is its rows in the order of their keys, which is the order every `SELECT` of the source
asks for.  `created` says whether `CREATE TABLE` has run; a statement on a table that does not
exist fails.
-/

/-- The one row of `ward`. -/
structure WardRow where
  cycle : Int
  treasury : Int
  debt : Int
  issued : Int
  retired : Int
  place : Place
  wire : Nat
  owner : Nat
deriving DecidableEq, Repr

/-- A row of `venue`. -/
structure VenueRow where
  id : Int
  name : Text
  cost : Int
  built : Int
  place : Place
  wire : Nat
  owner : Nat
deriving DecidableEq, Repr

/-- A row of `board`.  `outcome`, `wire` and `owner` start as `NULL`. -/
structure BoardRow where
  id : Nat
  cycle : Int
  kind : Text
  payout : Int
  risk : Int
  taken : Int
  outcome : Option Text
  place : Place
  wire : Option Nat
  owner : Option Nat
deriving DecidableEq, Repr

/-- What a ledger row records. -/
inductive Entry where
  | commission
  | wages
  | salvage
  | debt
  | departed
  | arrived
deriving DecidableEq, Repr

/-- A row of `ledger`. -/
structure LedgerRow where
  cycle : Int
  what : Entry
  amount : Int
  spark : Int
deriving DecidableEq, Repr

/-- The ward's database. -/
structure WardTables where
  created : Bool := false
  ward : List WardRow := []
  venue : List VenueRow := []
  board : List BoardRow := []
  ledger : List LedgerRow := []
deriving DecidableEq, Repr

/-- A row of `spark`. -/
structure SparkRow where
  id : Int
  purse : Int
  wear : Int
  cycles : Int
  place : Place
  wire : Nat
  owner : Nat
deriving DecidableEq, Repr

/-- A row of `held`. -/
structure HeldRow where
  item : Text
  kind : Text
  cycle : Int
deriving DecidableEq, Repr

/-- A Spark's database. -/
structure SparkTables where
  created : Bool := false
  spark : List SparkRow := []
  held : List HeldRow := []
deriving DecidableEq, Repr

/-! ### Connections -/

/-- An open database as its connection reads it.  `saved` is what it read at `BEGIN`, while a
transaction is open. -/
structure Conn (T : Type) where
  name : Text
  isOpen : Bool
  now : T
  saved : Option T
deriving DecidableEq, Repr

/-- `NULL`. -/
def Conn.null {T : Type} (empty : T) : Conn T :=
  { name := [], isOpen := false, now := empty, saved := none }

namespace Conn

variable {T : Type}

/-- `BEGIN`: there is no transaction inside a transaction. -/
def begin (c : Conn T) : Option (Conn T) :=
  if c.isOpen ∧ c.saved.isNone then some { c with saved := some c.now } else none

/-- `COMMIT`. -/
def commit (c : Conn T) : Option (Conn T) :=
  if c.saved.isSome then some { c with saved := none } else none

/-- `ROLLBACK`, whose result nobody reads: without a transaction it does nothing. -/
def rollback (c : Conn T) : Conn T :=
  match c.saved with
  | some before => { c with now := before, saved := none }
  | none => c

end Conn

/-- `spark_t`. -/
structure Spark where
  db : Conn SparkTables
  id : Int
  purse : Int
  wear : Int
  place : Place
deriving DecidableEq, Repr

/-- `gyre_t`.  `nsparks` is the length of `sparks`. -/
structure Gyre where
  ward : Conn WardTables
  sparks : List Spark
  rng : Rng
  cycle : Int
  treasury : Int
  debt : Int
  issued : Int
  found : Int
  retired : Int
  spent : Int
  wardNo : Int
  dbPrefix : Text
  seed : UInt64
  seq : UInt64
deriving DecidableEq, Repr

/-- `memset` to zero. -/
def Gyre.zero : Gyre :=
  { ward := Conn.null {}
    sparks := []
    rng := Rng.zero
    cycle := 0, treasury := 0, debt := 0, issued := 0, found := 0, retired := 0, spent := 0
    wardNo := 0, dbPrefix := [], seed := 0, seq := 0 }

def Gyre.nsparks (g : Gyre) : Int := g.sparks.length

/-- Which of a ward's connections a call is about. -/
inductive Handle where
  | ward
  | spark (index : Nat)
deriving DecidableEq, Repr

/-! ### The store plane -/

/-- The `weft_txn_*` calls in the order they are made: a `weft_txn_begin` that returned
`SQLITE_OK`, and every `weft_txn_commit` and `weft_txn_abort`. -/
inductive TxnCall where
  | began (txn : Nat)
  | committed (txn : Nat)
  | aborted (txn : Nat)
deriving DecidableEq, Repr

/-- The process-wide state of the store plane.  `faults k` says whether the `k`-th fallible
operation fails, and `tick` counts them; `wardDisk` and `sparkDisk` are what the store holds
under a name when it is opened at a tick.  `late k` says whether the `k`-th look of a search at
the steady clock is past its deadline.  `locked` is `g_group_lock`; `isOpen`, `txn` and
`parts` are `g_group`; `lastTxn` is the counter at `weft/txn/NEXT`. -/
structure Plane where
  faults : Nat → Bool
  late : Nat → Bool
  wardDisk : Nat → Text → WardTables
  sparkDisk : Nat → Text → SparkTables
  tick : Nat
  locked : Bool
  isOpen : Bool
  txn : Nat
  parts : List Handle
  lastTxn : Nat
  calls : List TxnCall

/-- A plane nobody has used, with the given faults, over an empty store. -/
def Plane.fresh (faults : Nat → Bool) : Plane :=
  { faults := faults
    late := fun _ => false
    wardDisk := fun _ _ => {}
    sparkDisk := fun _ _ => {}
    tick := 0, locked := false, isOpen := false, txn := 0, parts := [], lastTxn := 0, calls := [] }

/-- `group_t`: the participants that have an open SQLite transaction. -/
structure Group where
  txn : Nat := 0
  dbs : List Handle := []
deriving DecidableEq, Repr

/-- What a call of `queen.c` runs over: the ward, the plane under it, the `group_t` on the stack
of the call, and the service's stop flag. -/
structure World where
  g : Gyre
  plane : Plane
  grp : Group := {}
  stop : Bool := false

/-! ### Statements -/

def World.setGyre (f : Gyre → Gyre) (w : World) : World := { w with g := f w.g }

def World.setPlane (f : Plane → Plane) (w : World) : World := { w with plane := f w.plane }

def World.setGroup (f : Group → Group) (w : World) : World := { w with grp := f w.grp }

def Gyre.setWard (f : Conn WardTables → Conn WardTables) (g : Gyre) : Gyre :=
  { g with ward := f g.ward }

def Gyre.setSpark (i : Nat) (f : Spark → Spark) (g : Gyre) : Gyre :=
  { g with sparks := g.sparks.modify i f }

/-- Change the ward in memory. -/
def remember (f : Gyre → Gyre) : Action World Unit := .modify (World.setGyre f)

/-- One operation that the plane may fail. -/
def fallible : Action World Unit := fun w =>
  let w' := w.setPlane fun p => { p with tick := p.tick + 1 }
  if w.plane.faults w.plane.tick then (.fail, w') else (.ret (), w')

/-- Replace a part of the ward by what `f` makes of it, or fail with the ward as it was. -/
def update (f : Gyre → Option Gyre) : Action World Unit := fun w =>
  match f w.g with
  | some g => (.ret (), { w with g := g })
  | none => (.fail, w)

/-- A statement on an open connection: it takes effect, or it fails without one. -/
def Conn.execute {T : Type} (stmt : T → Option T) (c : Conn T) : Option (Conn T) :=
  if c.isOpen then (stmt c.now).map fun after => { c with now := after } else none

def Gyre.onWard (f : Conn WardTables → Option (Conn WardTables)) (g : Gyre) : Option Gyre :=
  (f g.ward).map fun after => { g with ward := after }

def Gyre.onSpark (i : Nat) (f : Conn SparkTables → Option (Conn SparkTables)) (g : Gyre) :
    Option Gyre :=
  match g.sparks[i]? with
  | some s => (f s.db).map fun after => g.setSpark i fun s => { s with db := after }
  | none => none

/-- `run(g->ward, sql)`. -/
def runWard (stmt : WardTables → Option WardTables) : Action World Unit := do
  fallible
  update (Gyre.onWard (Conn.execute stmt))

/-- `run(s->db, sql)`. -/
def runSpark (i : Nat) (stmt : SparkTables → Option SparkTables) : Action World Unit := do
  fallible
  update (Gyre.onSpark i (Conn.execute stmt))

/-- A query on a connection: no rows when the connection or the table is not there. -/
def Gyre.askWard (g : Gyre) (query : WardTables → Option Int) : Option Int :=
  if g.ward.isOpen && g.ward.now.created then query g.ward.now else none

def Gyre.askSpark (g : Gyre) (i : Nat) (query : SparkTables → Option Int) : Option Int :=
  match g.sparks[i]? with
  | some s => if s.db.isOpen && s.db.now.created then query s.db.now else none
  | none => none

/-- `scalar` and `scalar64`: a query that fails or has no row reads as `missing`. -/
def scalarOr (missing : Int) (query : Gyre → Option Int) : Action World Int := do
  match ← Action.attempt fallible with
  | some () => Action.read fun w => (query w.g).getD missing
  | none => pure missing

def scalarWard (query : WardTables → Option Int) : Action World Int :=
  scalarOr (-1) (·.askWard query)

def scalar64Ward (query : WardTables → Option Int) : Action World Int :=
  scalarOr 0 (·.askWard query)

def scalarSpark (i : Nat) (query : SparkTables → Option Int) : Action World Int :=
  scalarOr (-1) (·.askSpark i query)

/-- Statements on the tables of a database that has been created. -/
def WardTables.existing (f : WardTables → Option WardTables) (t : WardTables) :
    Option WardTables :=
  if t.created then f t else none

def SparkTables.existing (f : SparkTables → Option SparkTables) (t : SparkTables) :
    Option SparkTables :=
  if t.created then f t else none

/-- `DROP TABLE IF EXISTS` for each of the ward's tables. -/
def dropWard (_ : WardTables) : Option WardTables := some {}

def createWard (t : WardTables) : Option WardTables :=
  if t.created then none else some { created := true }

def dropSpark (_ : SparkTables) : Option SparkTables := some {}

def createSpark (t : SparkTables) : Option SparkTables :=
  if t.created then none else some { created := true }

/-- `INSERT INTO ledger(cycle, what, amount, spark)`. -/
def insertLedger (row : LedgerRow) : WardTables → Option WardTables :=
  WardTables.existing fun t => some { t with ledger := t.ledger ++ [row] }

/-- `INSERT INTO venue`: the id is the primary key and the wire is unique. -/
def insertVenue (row : VenueRow) : WardTables → Option WardTables :=
  WardTables.existing fun t =>
    if t.venue.any fun v => v.id == row.id || v.wire == row.wire then none
    else some { t with venue := t.venue ++ [row] }

/-- `INSERT INTO ward`: the wire is unique. -/
def insertWard (row : WardRow) : WardTables → Option WardTables :=
  WardTables.existing fun t =>
    if t.ward.any fun r => r.wire == row.wire then none else some { t with ward := t.ward ++ [row] }

/-- `UPDATE ward SET cycle=…, treasury=…, debt=…, issued=…, retired=…`. -/
def updateWard (cycle treasury debt issued retired : Int) : WardTables → Option WardTables :=
  WardTables.existing fun t =>
    some
      { t with
        ward := t.ward.map fun r =>
          { r with cycle, treasury, debt, issued, retired } }

/-- `UPDATE venue SET built = … WHERE id = …`. -/
def updateBuilt (id cycle : Int) : WardTables → Option WardTables :=
  WardTables.existing fun t =>
    some { t with venue := t.venue.map fun v => if v.id = id then { v with built := cycle } else v }

/-- `SELECT built FROM venue WHERE id = …`. -/
def selectBuilt (id : Int) (t : WardTables) : Option Int :=
  (t.venue.find? fun v => v.id == id).map (·.built)

/-- `DELETE FROM board`. -/
def deleteBoard : WardTables → Option WardTables :=
  WardTables.existing fun t => some { t with board := [] }

/-- The rowid SQLite gives the next row: one more than the largest in use. -/
def nextRowid (rows : List BoardRow) : Nat := rows.foldl (fun top r => max top r.id) 0 + 1

/-- `INSERT INTO board(cycle, kind, payout, risk, taken, outcome, x, y, z)`. -/
def insertBoard (cycle : Int) (kind : Text) (payout risk : Int) (place : Place) :
    WardTables → Option WardTables :=
  WardTables.existing fun t =>
    some
      { t with
        board := t.board ++
          [{ id := nextRowid t.board, cycle, kind, payout, risk, taken := -1, outcome := none,
             place, wire := none, owner := none }] }

def updateContract (id : Nat) (f : BoardRow → BoardRow) (rows : List BoardRow) : List BoardRow :=
  rows.map fun r => if r.id = id then f r else r

/-- `UPDATE board SET wire = …, owner = … WHERE id = …`: the wire is unique. -/
def updateContractWire (id wire owner : Nat) : WardTables → Option WardTables :=
  WardTables.existing fun t =>
    if t.board.any fun r => r.id != id && r.wire == some wire then none
    else some
      { t with
        board := updateContract id (fun r => { r with wire := some wire, owner := some owner })
          t.board }

/-- `UPDATE board SET taken = … WHERE id = …`. -/
def updateTaken (id : Nat) (spark : Int) : WardTables → Option WardTables :=
  WardTables.existing fun t =>
    some { t with board := updateContract id (fun r => { r with taken := spark }) t.board }

/-- `UPDATE board SET outcome = … WHERE id = …`. -/
def updateOutcome (id : Nat) (outcome : Text) : WardTables → Option WardTables :=
  WardTables.existing fun t =>
    some { t with board := updateContract id (fun r => { r with outcome := some outcome }) t.board }

/-- `SELECT … FROM board WHERE id = …`. -/
def selectContract (id : Nat) (column : BoardRow → Int) (t : WardTables) : Option Int :=
  (t.board.find? fun r => r.id == id).map column

/-- `INSERT INTO spark`: the id is the primary key. -/
def insertSpark (row : SparkRow) : SparkTables → Option SparkTables :=
  SparkTables.existing fun t =>
    if t.spark.any fun r => r.id == row.id then none else some { t with spark := t.spark ++ [row] }

def updateSparkRow (id : Int) (f : SparkRow → SparkRow) : SparkTables → Option SparkTables :=
  SparkTables.existing fun t =>
    some { t with spark := t.spark.map fun r => if r.id = id then f r else r }

/-- `UPDATE spark SET purse = purse + … WHERE id = …`. -/
def updatePurse (id amount : Int) : SparkTables → Option SparkTables :=
  updateSparkRow id fun r => { r with purse := r.purse + amount }

/-- `UPDATE spark SET wear = …, cycles = …, x = …, y = …, z = … WHERE id = …`. -/
def updateWork (id wear cycles : Int) (place : Place) : SparkTables → Option SparkTables :=
  updateSparkRow id fun r => { r with wear := wear, cycles := cycles, place := place }

/-- `UPDATE spark SET wire = …, owner = … WHERE id = …`. -/
def updateSparkWire (id : Int) (wire owner : Nat) : SparkTables → Option SparkTables :=
  updateSparkRow id fun r => { r with wire := wire, owner := owner }

/-- `INSERT INTO held`: the item is the primary key. -/
def insertHeld (row : HeldRow) : SparkTables → Option SparkTables :=
  SparkTables.existing fun t =>
    if t.held.any fun r => r.item == row.item then none else some { t with held := t.held ++ [row] }

/-- `SELECT purse FROM spark`, and the other columns: the first row. -/
def selectSpark (column : SparkRow → Int) (t : SparkTables) : Option Int :=
  t.spark.head?.map column

/-- `SELECT count(*) FROM held`. -/
def countHeld (t : SparkTables) : Option Int := some t.held.length

/-! ### Transaction groups -/

/-- Is there a file of this VFS behind the connection? -/
def Gyre.isConnected (g : Gyre) : Handle → Bool
  | .ward => g.ward.isOpen
  | .spark i => (g.sparks[i]?).any fun s => s.db.isOpen

/-- Note a `weft_txn_*` call. -/
def observe (call : TxnCall) : Action World Unit :=
  .modify <| World.setPlane fun p => { p with calls := p.calls ++ [call] }

/-- `weft_txn_begin`.  A lock that is held is waited for, and its holder is this process. -/
def weftTxnBegin : Action World Nat := do
  if ← Action.read (·.plane.locked) then Action.halt
  fallible
  Action.modify <| World.setPlane fun p =>
    { p with
      locked := true, isOpen := true, txn := p.lastTxn + 1, parts := [], lastTxn := p.lastTxn + 1 }
  let txn ← Action.read (·.plane.txn)
  observe (.began txn)
  pure txn

/-- `weft_txn_join`. -/
def weftTxnJoin (h : Handle) (txn : Nat) : Action World Unit := do
  fallible
  let w ← Action.read id
  if ¬ w.g.isConnected h ∨ ¬ w.plane.isOpen ∨ w.plane.txn ≠ txn then Action.fail
  else if txnMaxParts ≤ w.plane.parts.length then Action.fail
  else if h ∈ w.plane.parts then pure ()
  else Action.modify <| World.setPlane fun p => { p with parts := p.parts ++ [h] }

/-- `weft_txn_abort`.  Its callers ignore what it returns. -/
def weftTxnAbort (txn : Nat) : Action World Unit := do
  observe (.aborted txn)
  let p ← Action.read (·.plane)
  if ¬ p.isOpen ∨ p.txn ≠ txn then pure ()
  else Action.modify <| World.setPlane fun p =>
    { p with isOpen := false, parts := [], locked := false }

/-- `weft_txn_commit`.  Once the record is written, resolving cannot fail the commit; when it is
not written the group is closed all the same. -/
def weftTxnCommit (txn : Nat) : Action World Unit := do
  observe (.committed txn)
  let p ← Action.read (·.plane)
  if ¬ p.isOpen ∨ p.txn ≠ txn then Action.fail
  else
    let recorded ← Action.attempt fallible
    Action.modify <| World.setPlane fun p => { p with isOpen := false, locked := false }
    match recorded with
    | some () => pure ()
    | none => Action.fail

end GyreWard
