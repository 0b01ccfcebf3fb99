/-
Module: GyreWard.Model.FdbVfs
Purpose: The file methods of the store plane (`fdb_vfs.c`): open, read, write, truncate, the commit, the fold of
  the log, and close.
Trusted boundary: human-reviewed translation of the source; FoundationDB's own behaviour as documented
Main exports: Page, openBody, fdbRead, fdbWrite, fdbTruncate, checkFence, commitBody, sendCommit, flush,
  shouldCompact, compact, weftCompactDue, fdbClose, vfsDelete
-/
import GyreWard.Model.FdbFile

namespace GyreWard.Fdb

open Lib

variable {P α : Type}

/-! ### Limits -/

def pageSize : Nat := 4096
def keyMax : Nat := 640
def fdbTxnLimit : Nat := 10000000
def deltaRow : Nat := pageSize + keyMax
def pidxRow : Nat := keyMax + 8
def oneTxnPages : Nat := fdbTxnLimit / (deltaRow + pidxRow)
def stageTxnPages : Nat := fdbTxnLimit / deltaRow
def maxTxnPidx : Nat := fdbTxnLimit / pidxRow

/-- What `for (lo = 0; lo < n; lo += step)` goes through. -/
def steps (step n : Nat) : List Nat := (List.range ((n + step - 1) / step)).map (· * step)

/-- The open file of a handle. -/
def fileOf (h : Nat) : Action (Vfs P) (FdbFile P) := .read (·.files h)

def Vfs.onFile (h : Nat) (f : FdbFile P → FdbFile P) (v : Vfs P) : Vfs P :=
  { v with files := fun i => if i = h then f (v.files i) else v.files i }

def setFile (h : Nat) (f : FdbFile P → FdbFile P) : Action (Vfs P) Unit := .modify (Vfs.onFile h f)

/-! ### Open -/

/-- `load_newest_shard`: the last marker at or below the head. -/
def newestShard (db : Db P) : Option (Nat × Nat) :=
  (db.shardn.range fun v => v < db.head.getD 0 + 1).getLast?

/-- `drop_unfinished_commit`. -/
def dropUnfinishedCommit (db : Db P) : Db P :=
  { db with delta := fun txid => if db.head.getD 0 + 1 ≤ txid then ∅ else db.delta txid }

/-- `raise_fence`: the fence of the new owner. -/
def raisedFence (db : Db P) : Nat :=
  match db.fence with
  | some fence => fence + 1
  | none => 1

/-- `open_body`. -/
def openBody (name : DbName) (s : Store P) : Except Code (FdbFile P × Store P) :=
  let db := s.dbs name
  let newest := newestShard db
  let asOf := (newest.map (·.1)).getD 0
  .ok
    ({ name
       fence := raisedFence db
       head := db.head.getD 0
       hasShard := newest.isSome
       shardAsOf := asOf
       basePages := if newest.isSome then (db.shardn.get asOf).getD 0 else 0
       logPages := db.logn.getD 0
       size := db.size.getD 0
       sentSize := db.size.getD 0 },
     s.onDb name fun db => { dropUnfinishedCommit db with fence := some (raisedFence db) })

/-! ### Read and write -/

/-- The bytes of a page. -/
structure Page where
  bytes : List UInt8
  full : bytes.length = pageSize
deriving DecidableEq

/-- The page that holds these bytes and then zeros. -/
def Page.of (bytes : List UInt8) : Page where
  bytes := (bytes ++ List.replicate pageSize 0).take pageSize
  full := by
    rw [List.length_take, List.length_append, List.length_replicate]
    omega

def Page.zero : Page := .of []

/-- `memcpy(out, page + within, want)`. -/
def Page.slice (page : Page) (within want : Nat) : List UInt8 := (page.bytes.drop within).take want

/-- `memcpy(page + within, data, want)`. -/
def Page.splice (page : Page) (within : Nat) (data : List UInt8) : Page :=
  .of (page.bytes.take within ++ data ++ page.bytes.drop (within + data.length))

/-- What a read or a write has to do with one page. -/
structure Piece where
  pgno : Nat
  within : Nat
  want : Nat
deriving DecidableEq, Repr

/-- The loop over the pages of a range, over `n` turns at most. -/
def pieces : Nat → Nat → Nat → List Piece
  | 0, _, _ => []
  | n + 1, at_, left =>
      if left = 0 then []
      else
        let within := at_ % pageSize
        let want := min left (pageSize - within)
        { pgno := at_ / pageSize, within, want } :: pieces n (at_ + want) (left - want)

/-- The page that `read_body` looks at: one that was written is the truth, and else it is the store's. -/
def pageToRead (db : Db P) (pgno : Nat) : Action (Reading P) (Option P) := do
  let f ← Action.read (·.file)
  match findDirty f.dirty pgno with
  | some page => pure (some page)
  | none => pageFromStore db pgno

/-- The loop of `read_body`: the bytes, and whether there were fewer. -/
def readPieces (db : Db Page) : List Piece → Action (Reading Page) (List UInt8 × Bool)
  | [] => pure ([], false)
  | p :: rest => do
      let page ← pageToRead db p.pgno
      let (later, short) ← readPieces db rest
      match page with
      | some page => pure (page.slice p.within p.want ++ later, short)
      | none => pure (List.replicate p.want 0 ++ later, true)

/-- `read_body`. -/
def readBody (name : DbName) (amt off : Nat) (s : Store Page) : Action (Reading Page) (List UInt8 × Bool) :=
  readPieces (s.dbs name) (pieces amt off amt)

/-- `fdb_read`. -/
def fdbRead (h amt off : Nat) : Action (Vfs Page) (List UInt8 × Bool) := do
  let f ← fileOf h
  runRead h .ioerrRead (readBody f.name amt off)

/-- What `buffer_page` puts into the buffer: nothing of a page that is about to be overwritten is read. -/
def storedPage (h pgno : Nat) (whole : Bool) : Action (Vfs Page) Page :=
  if whole then pure .zero
  else do
    let stored ← fdbRead h pageSize (pgno * pageSize)
    pure (.of stored.1)

/-- `buffer_page`. -/
def bufferPage (h pgno : Nat) (whole : Bool) : Action (Vfs Page) Unit := do
  let f ← fileOf h
  match findDirty f.dirty pgno with
  | some _ => pure ()
  | none =>
      if maxTxnPidx ≤ f.dirty.length then refuse .ioerrWrite
      else
        let page ← storedPage h pgno whole
        setFile h fun f => { f with dirty := insertDirty f.dirty pgno page }

/-- The buffered copy of a page, changed. -/
def patchDirty (dirty : List (Nat × Page)) (pgno within : Nat) (data : List UInt8) : List (Nat × Page) :=
  dirty.map fun page => if page.1 = pgno then (page.1, page.2.splice within data) else page

/-- One turn of `fdb_write`. -/
def writePiece (h off : Nat) (data : List UInt8) (p : Piece) : Action (Vfs Page) Unit := do
  bufferPage h p.pgno (p.within = 0 ∧ p.want = pageSize)
  let here := p.pgno * pageSize + p.within
  setFile h fun f =>
    { f with dirty := patchDirty f.dirty p.pgno p.within ((data.drop (here - off)).take p.want) }

/-- `fdb_write`. -/
def fdbWrite (h : Nat) (data : List UInt8) (off : Nat) : Action (Vfs Page) Unit := do
  Action.forEach (pieces data.length off data.length) (writePiece h off data)
  setFile h fun f => { f with size := max f.size (off + data.length) }

/-- The pages that hold a file of a size. -/
def pagesFor (size : Nat) : Nat := (size + pageSize - 1) / pageSize

/-- `if (f->trunc_pages < 0 || npages < f->trunc_pages) f->trunc_pages = npages`. -/
def cutBelow (npages : Nat) : Option Nat → Option Nat
  | none => some npages
  | some n => some (if npages < n then npages else n)

/-- `fdb_truncate`. -/
def fdbTruncate (h size : Nat) : Action (Vfs P) Unit :=
  setFile h fun f =>
    let npages := pagesFor size
    raReset { f with
      dirty := f.dirty.take (dirtySlot f.dirty npages)
      truncPages := cutBelow npages f.truncPages
      size := size }

/-! ### Commit -/

/-- `check_fence`. -/
def checkFence (f : FdbFile P) (s : Store P) : Except Code Unit :=
  if (s.dbs f.name).fence = some f.fence then .ok () else .error .readonly

/-- A write transaction of a file: its fence is checked, and then its rows are changed. -/
def fenced (f : FdbFile P) (change : Db P → Db P) (s : Store P) : Except Code (Unit × Store P) := do
  checkFence f s
  .ok ((), s.onDb f.name change)

/-- `put_delta_pages`. -/
def putDeltaPages (f : FdbFile P) (txid lo hi : Nat) (db : Db P) : Db P :=
  { db with
    delta := fun t =>
      if t = txid then (db.delta t).setAll ((f.dirty.drop lo).take (hi - lo)) else db.delta t }

/-- `put_head`. -/
def putHead (f : FdbFile P) (txid : Nat) (db : Db P) : Db P :=
  let pidx := db.pidx.setAll (f.dirty.map fun page => (page.1, txid))
  { db with
    pidx := match f.truncPages with
      | some n => pidx.clear fun p => n ≤ p
      | none => pidx
    size := some f.size
    logn := some (f.logPages + f.dirty.length)
    head := some txid }

/-- `delta_body`. -/
def deltaBody (f : FdbFile P) (txid lo hi : Nat) : Store P → Except Code (Unit × Store P) :=
  fenced f (putDeltaPages f txid lo hi)

/-- `head_body`. -/
def headBody (f : FdbFile P) (txid : Nat) : Store P → Except Code (Unit × Store P) :=
  fenced f (putHead f txid)

/-- `commit_body`. -/
def commitBody (f : FdbFile P) (txid : Nat) : Store P → Except Code (Unit × Store P) :=
  fenced f fun db => putHead f txid (putDeltaPages f txid 0 f.dirty.length db)

/-- `should_compact`. -/
def shouldCompact (f : FdbFile P) : Bool := 0 < f.logPages ∧ f.basePages ≤ f.logPages

/-- What `txn_stage_here` sends. -/
def stagePages (f : FdbFile P) : Action (Vfs P) Unit :=
  if 0 < f.dirty.length then runTxn .ioerrWrite (deltaBody f (f.head + 1) 0 f.dirty.length) else pure ()

/-- What a file of the group stages under. -/
def stagedUnder (f : FdbFile P) : Nat := if 0 < f.dirty.length then f.head + 1 else f.head

/-- `txn_stage_here`. -/
def txnStageHere (h : Nat) : Action (Vfs P) Unit := do
  let f ← fileOf h
  if oneTxnPages < f.dirty.length then refuse .tooBig
  else
    stagePages f
    let parts ← Action.read (·.group.parts)
    if parts.any fun part => part.1 = h then
      .modify fun v =>
        { v with
          group := { v.group with
            parts := v.group.parts.map fun part => if part.1 = h then (h, stagedUnder f) else part } }
    else refuse .misuse

/-- The handle after a commit under `txid`. -/
def committed (txid : Nat) (f : FdbFile P) : FdbFile P :=
  raReset <| clearDirty { f with
    head := txid, sentSize := f.size, logPages := f.logPages + f.dirty.length }

/-- The transactions of `flush`: one that has it all, or the pages in as many as they take and then the head. -/
def sendCommit (f : FdbFile P) (txid : Nat) : Action (Vfs P) Unit :=
  if f.dirty.length ≤ oneTxnPages then runTxn .ioerrWrite (commitBody f txid)
  else do
    Action.forEach (steps stageTxnPages f.dirty.length) fun lo =>
      runTxn .ioerrWrite (deltaBody f txid lo (min (lo + stageTxnPages) f.dirty.length))
    runTxn .ioerrWrite (headBody f txid)

/-- `flush`. -/
def flush (h : Nat) : Action (Vfs P) Unit := do
  let f ← fileOf h
  if f.dirty.length = 0 ∧ f.truncPages = none ∧ f.size = f.sentSize then pure ()
  else if f.groupTxnid ≠ 0 then txnStageHere h
  else
    let txid := f.head + 1
    sendCommit f txid
    setFile h fun f =>
      let f := committed txid f
      if shouldCompact f then { f with compactDue := true } else f

/-! ### The fold -/

/-- `fold_read_body`: the pages that are there. -/
def foldRead (db : Db P) : List Nat → Action (Reading P) (List (Nat × P))
  | [] => pure []
  | pgno :: rest => do
      let page ← pageFromStore db pgno
      let later ← foldRead db rest
      match page with
      | some page => pure ((pgno, page) :: later)
      | none => pure later

/-- `fold_write_body`. -/
def foldWriteBody (f : FdbFile P) (asOf : Nat) (pages : List (Nat × P)) :
    Store P → Except Code (Unit × Store P) :=
  fenced f fun db =>
    { db with shard := fun v => if v = asOf then (db.shard v).setAll pages else db.shard v }

/-- What `finish_body` does to the rows. -/
def finish (asOf kept : Nat) (db : Db P) : Db P :=
  { db with
    shardn := (db.shardn.set asOf kept).clear fun v => v < asOf
    pidx := ∅
    delta := fun _ => ∅
    shard := fun v => if v < asOf then ∅ else db.shard v
    logn := some 0 }

/-- `finish_body`. -/
def finishBody (f : FdbFile P) (asOf kept : Nat) : Store P → Except Code (Unit × Store P) :=
  fenced f (finish asOf kept)

/-- The windows of `compact`, with the pages kept so far. -/
def foldWindows (h asOf npages window : Nat) : List Nat → Nat → Action (Vfs P) Nat
  | [], kept => pure kept
  | lo :: rest, kept => do
      let f ← fileOf h
      let pages ← runRead h .ioerrRead fun s =>
        foldRead (s.dbs f.name) ((List.range (min (lo + window) npages - lo)).map (lo + ·))
      runTxn .ioerrWrite (foldWriteBody f asOf pages)
      foldWindows h asOf npages window rest (kept + pages.length)

/-- `compact`. -/
def compact (h : Nat) : Action (Vfs P) Unit := do
  let f ← fileOf h
  let asOf := f.head
  let npages := pagesFor f.size
  if npages = 0 then pure ()
  else
    let window := min stageTxnPages npages
    let kept ← foldWindows h asOf npages window (steps window npages) 0
    runTxn .ioerrWrite (finishBody f asOf kept)
    setFile h fun f =>
      raReset { f with hasShard := true, shardAsOf := asOf, basePages := kept, logPages := 0 }

/-- `weft_compact_due`, of an open file. -/
def weftCompactDue (h : Nat) : Action (Vfs P) Unit := do
  let f ← fileOf h
  if ¬ f.compactDue then pure ()
  else if f.groupTxnid ≠ 0 then pure ()
  else
    setFile h fun f => { f with compactDue := false }
    compact h

/-- `fdb_close`. -/
def fdbClose (h : Nat) : Action (Vfs P) Unit := do
  let done ← Action.attempt do
    flush h
    weftCompactDue h
  setFile h fun f => { clearDirty f with raSlots := [], raCount := 0 }
  match done with
  | some () => pure ()
  | none => Action.fail

/-! ### The rest of the file system -/

/-- `vfs_delete`. -/
def vfsDelete (name : DbName) : Action (Vfs P) Unit :=
  runTxn .ioerrDelete fun s => .ok ((), s.onDb name fun _ => {})

end GyreWard.Fdb
