/-
Module: GyreWard.Model.FdbFile
Purpose: The store plane's rows, its transactions and its open files (`fdb_vfs.c`): the transaction runner, the
  buffer of pages that were written, and the pages of the store with read-ahead.
Trusted boundary: human-reviewed translation of the source; FoundationDB's own behaviour as documented
Main exports: Db, Record, Store, Attempt, Reply, ReadAttempt, FdbFile, Vfs, runTxn, runRead, findDirty,
  insertDirty, raDepth, raHit, raFill, pageFromStore
-/
import GyreWard.Lib.Action
import GyreWard.Lib.Table
import GyreWard.Model.FdbKeys
import Mathlib.Data.List.Lex

namespace GyreWard.Fdb

open Lib

/-! ### Rows

Each family of rows is a table in the order of its keys.  The numbers of commits are not cut at 64 bits.
-/

instance : LinearOrder DbName :=
  LinearOrder.lift' (fun name => name.bytes.map UInt8.toNat) fun a b same => by
    have bytes : a.bytes = b.bytes := List.map_injective_iff.mpr (fun _ _ => UInt8.toNat_inj.mp) same
    cases a
    cases b
    cases bytes
    rfl

/-- The rows under `weft/db/<name>/`. -/
structure Db (P : Type) where
  head : Option Nat := none
  size : Option Nat := none
  fence : Option Nat := none
  logn : Option Nat := none
  pidx : Table Nat Nat := ∅
  delta : Nat → Table Nat P := fun _ => ∅
  shard : Nat → Table Nat P := fun _ => ∅
  shardn : Table Nat Nat := ∅

/-- A participant's row: what it staged under, and the size its file ends with. -/
structure Part where
  txid : Nat
  size : Nat
deriving DecidableEq, Repr

inductive Status where
  | staging
  | committed
  | aborted
deriving DecidableEq, Repr

/-- The rows under `weft/txn/<txnid>/`. -/
structure Record where
  status : Option Status := none
  parts : Table DbName Part := ∅

structure Store (P : Type) where
  dbs : DbName → Db P := fun _ => {}
  next : Option Nat := none
  records : Table Nat Record := ∅

variable {P α : Type}

/-- Change the rows of one database. -/
def Store.onDb (s : Store P) (name : DbName) (f : Db P → Db P) : Store P :=
  { s with dbs := fun n => if n = name then f (s.dbs n) else s.dbs n }

/-- Change the rows of one group's record. -/
def Store.onRecord (s : Store P) (txnid : Nat) (f : Record → Record) : Store P :=
  { s with records := s.records.set txnid (f ((s.records.get txnid).getD {})) }

/-! ### Transactions -/

/-- The result codes that the file methods return. -/
inductive Code where
  | ok
  | ioerr
  | ioerrRead
  | ioerrWrite
  | ioerrDelete
  | ioerrNomem
  | readonly
  | tooBig
  | full
  | misuse
deriving DecidableEq, Repr

/-- What comes of one attempt at a write transaction. -/
inductive Attempt where
  /-- Its commit goes through. -/
  | lands
  /-- It meets an error that FoundationDB retries, with nothing committed. -/
  | again
  /-- Its commit goes through and is reported as an error that is retried. -/
  | unknown
  /-- It meets an error that is not retried. -/
  | fatal
  /-- The process stops before the commit. -/
  | dies
deriving DecidableEq, Repr

/-- What comes of a range read: all of its rows, the first `n` and word that there may be more, or an error. -/
inductive Reply where
  | whole
  | cut (n : Nat)
  | error
deriving DecidableEq, Repr

/-- What comes of the reads of one attempt at a read transaction, in their order, everything after the last of
them going well: whether a read of one row fails, the range reads of the index (in a query: of whatever it reads)
and those of a shard; and whether an error is not retried. -/
structure ReadAttempt where
  gets : List Bool := []
  index : List Reply := []
  shard : List Reply := []
  fatal : Bool := false
deriving DecidableEq, Repr

/-- What a prefetch learned of a page. -/
inductive Slot (P : Type) where
  | unfetched
  | present (page : P)
  | absent
deriving DecidableEq, Repr

/-- `FdbFile`.  `dirty` has the pages that were written, `truncPages` is `none` where the source has -1, and
`raSlots` is the window with its states. -/
structure FdbFile (P : Type) where
  name : DbName
  fence : Nat := 0
  head : Nat := 0
  shardAsOf : Nat := 0
  hasShard : Bool := false
  basePages : Nat := 0
  logPages : Nat := 0
  groupTxnid : Nat := 0
  compactDue : Bool := false
  raScore : Nat := 0
  raLast : Nat := 0
  raFirst : Nat := 0
  raCount : Nat := 0
  raSlots : List (Slot P) := []
  size : Nat := 0
  sentSize : Nat := 0
  dirty : List (Nat × P) := []
  truncPages : Option Nat := none

/-- `g_group`, with the handles of its files and what they staged under. -/
structure Group where
  txnid : Nat := 0
  parts : List (Nat × Nat) := []
  isOpen : Bool := false
deriving DecidableEq, Repr

/-- What a call runs over: the store, what will come of the transactions, the open files by their handles, the
group, and what the last call that failed returned. -/
structure Vfs (P : Type) where
  store : Store P := {}
  attempts : List Attempt := []
  reads : List ReadAttempt := []
  files : Nat → FdbFile P
  group : Group := {}
  rc : Code := .ok

/-- Return an error. -/
def refuse (code : Code) : Action (Vfs P) α := fun v => (.fail, { v with rc := code })

/-- `run_txn` of a body that writes.  The body gives the rows as it leaves them or a code that must reach the
caller. -/
def tryTxn (code : Code) (body : Store P → Except Code (α × Store P)) :
    List Attempt → Store P → Result α × Code × List Attempt × Store P
  | [], s =>
      match body s with
      | .error final => (.fail, final, [], s)
      | .ok (a, s') => (.ret a, .ok, [], s')
  | .lands :: rest, s =>
      match body s with
      | .error final => (.fail, final, rest, s)
      | .ok (a, s') => (.ret a, .ok, rest, s')
  | .again :: rest, s => tryTxn code body rest s
  | .unknown :: rest, s =>
      match body s with
      | .error final => (.fail, final, rest, s)
      | .ok (_, s') => tryTxn code body rest s'
  | .fatal :: rest, s => (.fail, code, rest, s)
  | .dies :: rest, s =>
      match body s with
      | .error final => (.fail, final, rest, s)
      | .ok _ => (.halt, .ok, rest, s)

def runTxn (code : Code) (body : Store P → Except Code (α × Store P)) : Action (Vfs P) α := fun v =>
  match tryTxn code body v.attempts v.store with
  | (result, rc, rest, s) => (result, { v with store := s, attempts := rest, rc })

/-- What the body of a read transaction runs over: the file, and what is left of the attempt. -/
structure Reading (P : Type) where
  file : FdbFile P
  left : ReadAttempt

/-- `run_txn` of a body that only reads.  What it did to the file stays, also when it is retried. -/
def tryRead (body : Action (Reading P) α) :
    List ReadAttempt → FdbFile P → Result α × List ReadAttempt × FdbFile P
  | [], f =>
      match body { file := f, left := {} } with
      | (result, r) => (result, [], r.file)
  | a :: rest, f =>
      match body { file := f, left := a } with
      | (.fail, r) => if a.fatal then (.fail, rest, r.file) else tryRead body rest r.file
      | (result, r) => (result, rest, r.file)

def runRead (h : Nat) (code : Code) (body : Store P → Action (Reading P) α) : Action (Vfs P) α := fun v =>
  match tryRead (body v.store) v.reads (v.files h) with
  | (result, rest, f) =>
      (result, { v with
        reads := rest
        files := fun i => if i = h then f else v.files i
        rc := code })

/-- `run_txn` of a body that reads and keeps nothing.  It runs over what is left of the attempt. -/
def tryQuery (body : Action ReadAttempt α) : List ReadAttempt → Result α × List ReadAttempt
  | [] => ((body {}).1, [])
  | a :: rest =>
      match body a with
      | (.fail, _) => if a.fatal then (.fail, rest) else tryQuery body rest
      | (result, _) => (result, rest)

def runQuery (code : Code) (body : Store P → Action ReadAttempt α) : Action (Vfs P) α := fun v =>
  match tryQuery (body v.store) v.reads with
  | (result, rest) => (result, { v with reads := rest, rc := code })

/-! ### Reads inside a transaction -/

def Reading.onFile (f : FdbFile P → FdbFile P) (r : Reading P) : Reading P := { r with file := f r.file }

/-- The value of one row, if it is there: `get_bytes`, `get_u64`. -/
def getRow (value : Option α) : Action (Reading P) (Option α) := fun r =>
  match r.left.gets with
  | [] => (.ret value, r)
  | false :: rest => (.ret value, { r with left := { r.left with gets := rest } })
  | true :: rest => (.fail, { r with left := { r.left with gets := rest } })

/-- The rows of a range and whether there may be more. -/
def answer (rows : List α) : List Reply → Option (List α × Bool) × List Reply
  | [] => (some (rows, false), [])
  | .whole :: rest => (some (rows, false), rest)
  | .cut n :: rest => (some (rows.take n, true), rest)
  | .error :: rest => (none, rest)

/-- `fdb_transaction_get_range` over `PIDX`. -/
def getIndexRange (rows : List (Nat × Nat)) : Action (Reading P) (List (Nat × Nat) × Bool) := fun r =>
  match answer rows r.left.index with
  | (some found, rest) => (.ret found, { r with left := { r.left with index := rest } })
  | (none, rest) => (.fail, { r with left := { r.left with index := rest } })

/-- `fdb_transaction_get_range` over one version of `SHARD`. -/
def getShardRange (rows : List (Nat × P)) : Action (Reading P) (List (Nat × P) × Bool) := fun r =>
  match answer rows r.left.shard with
  | (some found, rest) => (.ret found, { r with left := { r.left with shard := rest } })
  | (none, rest) => (.fail, { r with left := { r.left with shard := rest } })

/-- The value of one row, in a query. -/
def queryRow (value : Option α) : Action ReadAttempt (Option α) := fun a =>
  match a.gets with
  | [] => (.ret value, a)
  | false :: rest => (.ret value, { a with gets := rest })
  | true :: rest => (.fail, { a with gets := rest })

/-- `fdb_transaction_get_range` in a query.  Whether there may be more rows is asked for and not looked at. -/
def queryRange (rows : List α) : Action ReadAttempt (List α) := fun a =>
  match answer rows a.index with
  | (some (found, _), rest) => (.ret found, { a with index := rest })
  | (none, rest) => (.fail, { a with index := rest })

/-! ### The buffer -/

/-- The loop of `find_dirty`, over `n` slots at most. -/
def searchDirty (dirty : List (Nat × P)) (pgno : Nat) : Nat → Nat → Nat → Nat
  | 0, lo, _ => lo
  | n + 1, lo, hi =>
      if lo < hi then
        let mid := lo + (hi - lo) / 2
        match dirty[mid]? with
        | some page =>
            if page.1 < pgno then searchDirty dirty pgno n (mid + 1) hi else searchDirty dirty pgno n lo mid
        | none => lo
      else lo

/-- The slot of `pgno`, or where it would go. -/
def dirtySlot (dirty : List (Nat × P)) (pgno : Nat) : Nat :=
  searchDirty dirty pgno dirty.length 0 dirty.length

/-- `find_dirty`: the page in the slot, when it is there. -/
def findDirty (dirty : List (Nat × P)) (pgno : Nat) : Option P :=
  match dirty[dirtySlot dirty pgno]? with
  | some page => if page.1 = pgno then some page.2 else none
  | none => none

/-- `insert_dirty`, at the slot that `find_dirty` gave: what stands from there on moves up. -/
def insertDirty (dirty : List (Nat × P)) (pgno : Nat) (page : P) : List (Nat × P) :=
  dirty.take (dirtySlot dirty pgno) ++ (pgno, page) :: dirty.drop (dirtySlot dirty pgno)

/-- `clear_dirty`. -/
def clearDirty (f : FdbFile P) : FdbFile P := { f with dirty := [], truncPages := none }

/-! ### Read-ahead -/

def raGap : Nat := 8
def raScoreStep : Nat := 2
def raScoreCap : Nat := 12
def raDecayScanning : Nat := 1
def raDecayRandom : Nat := 4
def raEscalate : Nat := 6
def raFull : Nat := 10
def raMaxPages : Nat := 256
def raStepPages : Nat := 32

/-- The score that `ra_depth` moves to. -/
def nextScore (f : FdbFile P) (pgno : Nat) : Nat :=
  if f.raLast < pgno ∧ pgno ≤ f.raLast + raGap then min (f.raScore + raScoreStep) raScoreCap
  else if raEscalate ≤ f.raScore then f.raScore - raDecayScanning
  else f.raScore - raDecayRandom

/-- `ra_depth`. -/
def raDepth (pgno : Nat) : Action (Reading P) Nat := fun r =>
  let score := nextScore r.file pgno
  let depth := if raFull ≤ score then raMaxPages else if raEscalate ≤ score then raStepPages else 0
  (.ret depth, r.onFile fun f => { f with raScore := score, raLast := pgno })

/-- `ra_hit`: what the window says of the page, `some none` where it says that there is none. -/
def raHit (f : FdbFile P) (pgno : Nat) : Option (Option P) :=
  if pgno < f.raFirst ∨ f.raFirst + f.raCount ≤ pgno then none
  else
    match f.raSlots[pgno - f.raFirst]? with
    | some (.present page) => some (some page)
    | some .absent => some none
    | _ => none

/-- One past the last page of the rows. -/
def reached (first : Nat) (rows : List (Nat × α)) : Nat := rows.foldl (fun far r => max far (r.1 + 1)) first

/-- The value in the first of the rows for a page. -/
def rowOf (rows : List (Nat × α)) (pgno : Nat) : Option α := (rows.find? fun r => r.1 = pgno).map (·.2)

/-- The commit that owns a page, zero for none. -/
def ownerIn (index : List (Nat × Nat)) (pgno : Nat) : Nat := (rowOf index pgno).getD 0

/-- How far a range read got: to the end, unless there may be more. -/
def coveredTo (covered first : Nat) (rows : List (Nat × α)) (more : Bool) : Nat :=
  if more ∧ reached first rows < covered then reached first rows else covered

/-- The states of the window's pages at the end of `ra_fill`: a page that the log owns is left to the ordinary
path, one that neither read found is not there, where there is a shard to look in. -/
def raStates (f : FdbFile P) (owner : Nat → Nat) (pages : List (Nat × P)) : List (Slot P) :=
  (List.range f.raCount).map fun i =>
    if owner (f.raFirst + i) ≠ 0 then .unfetched
    else
      match rowOf pages (f.raFirst + i) with
      | some page => .present page
      | none => if f.hasShard then .absent else .unfetched

/-- `ra_fill`. -/
def raFill (db : Db P) (first depth : Nat) : Action (Reading P) Unit := do
  let count := min depth raMaxPages
  .modify <| Reading.onFile fun f =>
    { f with raFirst := first, raCount := count, raSlots := List.replicate count .unfetched }
  let (index, more) ← getIndexRange (db.pidx.range fun p => first ≤ p ∧ p < first + count)
  let owner := ownerIn index
  let covered := coveredTo (first + count) first index more
  let f ← Action.read (·.file)
  if f.hasShard then
    match ← Action.attempt
        (getShardRange ((db.shard f.shardAsOf).range fun p => first ≤ p ∧ p < first + count)) with
    | some (rows, more) =>
        let pages := rows.filter fun r => owner r.1 = 0
        let covered := coveredTo covered first pages more
        .modify <| Reading.onFile fun f =>
          { f with raSlots := raStates f owner pages, raCount := covered - first }
    | none =>
        -- the states are written and the window is sized before the error is returned
        .modify <| Reading.onFile fun f =>
          { f with raSlots := raStates f owner [], raCount := covered - first }
        Action.fail
  else
    .modify <| Reading.onFile fun f =>
      { f with raSlots := raStates f owner [], raCount := covered - first }

/-- `ra_reset`. -/
def raReset (f : FdbFile P) : FdbFile P := { f with raCount := 0 }

/-- The ordinary path of `page_from_store`: the owner in the index, and then one of the log and the shard. -/
def plainPage (db : Db P) (pgno : Nat) : Action (Reading P) (Option P) := do
  match ← getRow (db.pidx.get pgno) with
  | some owner => getRow ((db.delta owner).get pgno)
  | none =>
      let f ← Action.read (·.file)
      if f.hasShard then getRow ((db.shard f.shardAsOf).get pgno) else pure none

/-- `page_from_store`. -/
def pageFromStore (db : Db P) (pgno : Nat) : Action (Reading P) (Option P) := do
  match ← Action.read fun r => raHit r.file pgno with
  | some page => pure page
  | none =>
      let depth ← raDepth pgno
      if depth = 0 then plainPage db pgno
      else
        raFill db pgno depth
        match ← Action.read fun r => raHit r.file pgno with
        | some page => pure page
        | none => plainPage db pgno

end GyreWard.Fdb
