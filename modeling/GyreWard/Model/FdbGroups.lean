/-
Module: GyreWard.Model.FdbGroups
Purpose: A commit across several databases (`fdb_vfs.c`, `weft_txn_*`): the group, its record, and the recovery
  that decides what a crash left.
Trusted boundary: human-reviewed translation of the source; FoundationDB's own behaviour as documented
Main exports: weftTxnBegin, weftTxnJoin, recordBody, weftTxnAbort, weftTxnCommit, Intent, queryIntent, resolveBody,
  preventBody, recoverOne, sweepBody, weftTxnRecover, vfsOpen
-/
import GyreWard.Model.FdbVfs

namespace GyreWard.Fdb

open Lib

variable {P : Type}

/-! ### The group -/

/-- `txn_seq_body`. -/
def txnSeqBody (s : Store P) : Except Code (Nat × Store P) :=
  let txnid := match s.next with
    | some seq => seq + 1
    | none => 1
  .ok (txnid, { s with next := some txnid })

/-- `weft_txn_begin`.  The lock is held while a group is open, and its holder is this process. -/
def weftTxnBegin : Action (Vfs P) Nat := do
  if ← Action.read (·.group.isOpen) then Action.halt
  let txnid ← runTxn .ioerrWrite txnSeqBody
  .modify fun v => { v with group := { txnid, parts := [], isOpen := true } }
  pure txnid

/-- `weft_txn_join`, of an open file. -/
def weftTxnJoin (h txnid : Nat) : Action (Vfs P) Unit := do
  let f ← fileOf h
  let g ← Action.read (·.group)
  if ¬ g.isOpen ∨ g.txnid ≠ txnid then refuse .misuse
  else if txnMaxParts ≤ g.parts.length then refuse .full
  else if g.parts.any fun part => part.1 = h then pure ()
  else
    .modify fun v => { v with group := { v.group with parts := v.group.parts ++ [(h, f.head)] } }
    setFile h fun f => { f with groupTxnid := txnid }

/-- `record_body`, of the files with what they staged under. -/
def recordBody (txnid : Nat) (parts : List (FdbFile P × Nat)) (s : Store P) :
    Except Code (Unit × Store P) := do
  parts.forM fun part => checkFence part.1 s
  .ok
    ((), s.onRecord txnid fun r =>
      { r with
        parts := r.parts.setAll (parts.map fun part => (part.1.name, ⟨part.2, part.1.size⟩))
        status := some .staging })

/-- The files of the group with what they staged under. -/
def Vfs.partFiles (v : Vfs P) : List (FdbFile P × Nat) :=
  v.group.parts.map fun part => (v.files part.1, part.2)

/-- The group is over: its files commit by themselves again. -/
def closeGroup : Action (Vfs P) Unit :=
  .modify fun v =>
    { v with
      files := fun i =>
        if v.group.parts.any fun part => part.1 = i then { v.files i with groupTxnid := 0 } else v.files i
      group := { v.group with isOpen := false } }

/-- `weft_txn_abort`. -/
def weftTxnAbort (txnid : Nat) : Action (Vfs P) Unit := do
  let g ← Action.read (·.group)
  if ¬ g.isOpen ∨ g.txnid ≠ txnid then refuse .misuse
  else
    closeGroup
    .modify fun v => { v with group := { v.group with parts := [] } }

/-- `set_status_body`. -/
def setStatusBody (txnid : Nat) (status : Status) (s : Store P) : Except Code (Unit × Store P) :=
  .ok ((), s.onRecord txnid fun r => { r with status := some status })

/-- `drop_record_body`. -/
def dropRecordBody (txnid : Nat) (s : Store P) : Except Code (Unit × Store P) :=
  .ok ((), { s with records := s.records.clear fun n => n = txnid })

/-- `txn_resolve_part`. -/
def txnResolvePart (h staged : Nat) : Action (Vfs P) Unit := do
  let f ← fileOf h
  if staged ≤ f.head then pure ()
  else
    runTxn .ioerrWrite (headBody f staged)
    setFile h (committed staged)

/-- `txn_resolve_group`, that drops the record. -/
def txnResolveGroup (txnid : Nat) : Action (Vfs P) Unit := do
  let parts ← Action.read (·.group.parts)
  Action.forEach parts fun part => txnResolvePart part.1 part.2
  runTxn .ioerrWrite (setStatusBody txnid .committed)
  runTxn .ioerrWrite (dropRecordBody txnid)

/-- `weft_txn_commit`.  What comes of resolving is not looked at. -/
def weftTxnCommit (txnid : Nat) : Action (Vfs P) Unit := do
  let g ← Action.read (·.group)
  if ¬ g.isOpen ∨ g.txnid ≠ txnid then refuse .misuse
  else
    let parts ← Action.read (·.partFiles)
    match ← Action.attempt (runTxn .ioerrWrite (recordBody txnid parts)) with
    | none =>
        closeGroup
        Action.fail
    | some () =>
        let _ ← Action.attempt (txnResolveGroup txnid)
        closeGroup

/-! ### Recovery -/

/-- `struct intent_ctx`, with the name and the row of its participant. -/
structure Intent where
  name : DbName
  part : Part
  present : Bool
  head : Nat
  pgnos : List Nat

/-- `query_intent_body`. -/
def queryIntent (name : DbName) (part : Part) (s : Store P) : Action ReadAttempt Intent := do
  let got ← queryRow (s.dbs name).head
  let head := got.getD 0
  if part.txid ≤ head then pure { name, part, present := true, head, pgnos := [] }
  else
    let rows ← queryRange ((s.dbs name).delta part.txid).rows
    pure { name, part, present := 0 < rows.length, head, pgnos := (rows.map (·.1)).take 4096 }

/-- `resolve_body`. -/
def resolveBody (c : Intent) (s : Store P) : Except Code (Unit × Store P) :=
  if c.part.txid ≤ c.head then .ok ((), s)
  else
    .ok
      ((), s.onDb c.name fun db =>
        { db with
          pidx := db.pidx.setAll (c.pgnos.map fun pgno => (pgno, c.part.txid))
          size := some c.part.size
          logn := some (db.logn.getD 0 + c.pgnos.length)
          head := some c.part.txid })

/-- `prevent_body`: the fence goes up where the intent was missing. -/
def preventBody (c : Intent) (s : Store P) : Except Code (Unit × Store P) :=
  .ok
    ((), s.onDb c.name fun db =>
      { db with
        fence := if c.present then db.fence else some (raisedFence db)
        delta := fun txid => if txid = c.part.txid then ∅ else db.delta txid })

/-- `read_parts_body`: the participants of a record, as many as `TXN_MAX_PARTS`. -/
def readParts (txnid : Nat) (s : Store P) : Action ReadAttempt (List (DbName × Part)) := do
  let rows ← queryRange ((s.records.get txnid).getD {}).parts.rows
  pure (rows.take txnMaxParts)

/-- The loop that queries every intent. -/
def queryIntents : List (DbName × Part) → Action (Vfs P) (List Intent)
  | [] => pure []
  | part :: rest => do
      let intent ← runQuery .ioerrRead (queryIntent part.1 part.2)
      let later ← queryIntents rest
      pure (intent :: later)

/-- What `recover_one` does with a group of which every intent is there. -/
def finishGroup (txnid : Nat) (intents : List Intent) : Action (Vfs P) Unit := do
  Action.forEach intents fun c => runTxn .ioerrWrite (resolveBody c)
  runTxn .ioerrWrite (setStatusBody txnid .committed)
  runTxn .ioerrWrite (dropRecordBody txnid)

/-- What `recover_one` does with a group that misses one. -/
def giveUpGroup (txnid : Nat) (intents : List Intent) : Action (Vfs P) Unit := do
  Action.forEach intents fun c => runTxn .ioerrWrite (preventBody c)
  runTxn .ioerrWrite (setStatusBody txnid .aborted)
  runTxn .ioerrWrite (dropRecordBody txnid)

/-- `recover_one`. -/
def recoverOne (txnid : Nat) : Action (Vfs P) Unit := do
  let parts ← runQuery .ioerrRead (readParts txnid)
  if parts.length = 0 then runTxn .ioerrWrite (dropRecordBody txnid)
  else
    let intents ← queryIntents parts
    if intents.all (·.present) then finishGroup txnid intents else giveUpGroup txnid intents

def txnMaxRecover : Nat := 64

/-- The rows of one group under `weft/txn/`, those of its participants before its state.  A row counts when it is
the state of a group that is staging. -/
def sweptRecord (txnid : Nat) (r : Record) : List (Option Nat) :=
  r.parts.rows.map (fun _ => none) ++
    r.status.toList.map fun status => if status = .staging then some txnid else none

/-- The rows under `weft/txn/`, the last of them being the counter. -/
def sweptRows (s : Store P) : List (Option Nat) :=
  s.records.rows.flatMap (fun r => sweptRecord r.1 r.2) ++ s.next.toList.map fun _ => none

/-- `sweep_body`. -/
def sweepBody (s : Store P) : Action ReadAttempt (List Nat) := do
  let rows ← queryRange (sweptRows s)
  pure ((rows.filterMap id).take txnMaxRecover)

/-- The loop of `weft_txn_recover`, over `n` sweeps at most. -/
def recoverPasses : Nat → Action (Vfs P) Unit
  | 0 => Action.halt
  | n + 1 => do
      let staging ← runQuery .ioerrRead sweepBody
      if staging.length = 0 then pure ()
      else
        Action.forEach staging recoverOne
        if staging.length < txnMaxRecover then pure () else recoverPasses n

/-- `weft_txn_recover`.  A sweep drops the records that it decides, so there are no more sweeps than records
and one. -/
def weftTxnRecover : Action (Vfs P) Unit := do
  let records ← Action.read (·.store.records.rows.length)
  recoverPasses (records + 1)

/-- `vfs_open`. -/
def vfsOpen (h : Nat) (name : DbName) : Action (Vfs P) Unit := do
  weftTxnRecover
  let f ← runTxn .ioerr (openBody name)
  setFile h fun _ => f

end GyreWard.Fdb
