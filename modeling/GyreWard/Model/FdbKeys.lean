/-
Module: GyreWard.Model.FdbKeys
Purpose: The keys of the store plane's layout (`fdb_keys.h`): a key for each row, and the ranges the file system
  reads and clears.
Trusted boundary: human-reviewed translation of the source
Main exports: Key, putBe32, putBe64, getBe64, keyMeta, keyPidx, keyDelta, keyShard, keyShardn, keyAfter, DbName,
  Row, Row.key, Sweep, Sweep.start, Sweep.stop, Sweep.covers
-/
import GyreWard.Model.Wire
import Mathlib.Algebra.Group.Nat.Defs

namespace GyreWard.Fdb

/-- The bytes of a key.  FoundationDB keeps its rows in their order. -/
abbrev Key := List UInt8

/-! ### `fdb_keys.h` -/

/-- `put_be32`. -/
def putBe32 (v : Nat) : Key := (List.range 4).map fun i => UInt8.ofNat (v >>> (24 - 8 * i))

/-- `put_be64`. -/
def putBe64 (v : Nat) : Key := (List.range 8).map fun i => UInt8.ofNat (v >>> (56 - 8 * i))

/-- `get_be64`, of the first eight bytes. -/
def getBe64 (key : Key) : Nat := (key.take 8).foldl (fun v b => v * 2 ^ 8 + b.toNat) 0

/-- `key_meta`. -/
def keyMeta (name what : Text) : Key := text "weft/db/" ++ name ++ text "/" ++ what

/-- `key_pidx`. -/
def keyPidx (name : Text) (pgno : Nat) : Key := text "weft/db/" ++ name ++ text "/PIDX/" ++ putBe32 pgno

/-- `key_delta`. -/
def keyDelta (name : Text) (txid pgno : Nat) : Key :=
  text "weft/db/" ++ name ++ text "/DELTA/" ++ putBe64 txid ++ putBe32 pgno

/-- `key_delta_txid`. -/
def keyDeltaTxid (name : Text) (txid : Nat) : Key :=
  text "weft/db/" ++ name ++ text "/DELTA/" ++ putBe64 txid

/-- `key_shard`. -/
def keyShard (name : Text) (asOf pgno : Nat) : Key :=
  text "weft/db/" ++ name ++ text "/SHARD/" ++ putBe64 asOf ++ putBe32 pgno

/-- `key_shard_version`. -/
def keyShardVersion (name : Text) (asOf : Nat) : Key :=
  text "weft/db/" ++ name ++ text "/SHARD/" ++ putBe64 asOf

/-- `key_shardn`. -/
def keyShardn (name : Text) (asOf : Nat) : Key :=
  text "weft/db/" ++ name ++ text "/SHARDN/" ++ putBe64 asOf

/-- `key_prefix`. -/
def keyPrefix (name what : Text) : Key := text "weft/db/" ++ name ++ text "/" ++ what ++ text "/"

/-- `key_txn_status`. -/
def keyTxnStatus (txnid : Nat) : Key := text "weft/txn/" ++ putBe64 txnid ++ text "/STATUS"

/-- `key_txn_part`. -/
def keyTxnPart (txnid : Nat) (name : Text) : Key :=
  text "weft/txn/" ++ putBe64 txnid ++ text "/PART/" ++ name

/-- `key_txn_part_prefix`. -/
def keyTxnPartPrefix (txnid : Nat) : Key := text "weft/txn/" ++ putBe64 txnid ++ text "/PART/"

/-- `key_txn_prefix`. -/
def keyTxnPrefix (txnid : Nat) : Key := text "weft/txn/" ++ putBe64 txnid

/-- `key_txn_all`. -/
def keyTxnAll : Key := text "weft/txn/"

/-- `key_after`: the last byte that can be raised is, and what came after it goes. -/
def keyAfter (start : Key) : Key :=
  match (start.reverse.dropWhile (· == 0xFF)) with
  | [] => []
  | last :: front => ((last + 1) :: front).reverse

/-! ### The layout -/

/-- A database name that the layout keeps apart from others: a C string that fits `MAX_NAME`, with no slash. -/
structure DbName where
  bytes : Text
  some : bytes ≠ []
  short : bytes.length < 512
  ended : 0 ∉ bytes
  flat : 0x2F ∉ bytes
deriving DecidableEq

/-- The rows that hold one number for a database. -/
inductive Meta where
  | head
  | size
  | fence
  | logn
deriving DecidableEq, Repr

def Meta.what : Meta → Text
  | .head => text "HEAD"
  | .size => text "SIZE"
  | .fence => text "FENCE"
  | .logn => text "LOGN"

/-- The rows of the layout. -/
inductive Row where
  | metaRow (name : DbName) (what : Meta)
  | pidx (name : DbName) (pgno : Nat)
  | delta (name : DbName) (txid pgno : Nat)
  | shard (name : DbName) (asOf pgno : Nat)
  | shardn (name : DbName) (asOf : Nat)
  | next
  | status (txnid : Nat)
  | part (txnid : Nat) (name : DbName)
deriving DecidableEq

/-- The key a row stands under. -/
def Row.key : Row → Key
  | .metaRow name what => keyMeta name.bytes what.what
  | .pidx name pgno => keyPidx name.bytes pgno
  | .delta name txid pgno => keyDelta name.bytes txid pgno
  | .shard name asOf pgno => keyShard name.bytes asOf pgno
  | .shardn name asOf => keyShardn name.bytes asOf
  | .next => text "weft/txn/NEXT"
  | .status txnid => keyTxnStatus txnid
  | .part txnid name => keyTxnPart txnid name.bytes

/-- The numbers of a row fit their fields: a page number has 32 bits, a transaction has 64. -/
def Row.Fits : Row → Prop
  | .pidx _ pgno => pgno < 2 ^ 32
  | .delta _ txid pgno | .shard _ txid pgno => txid < 2 ^ 64 ∧ pgno < 2 ^ 32
  | .shardn _ asOf => asOf < 2 ^ 64
  | .status txnid | .part txnid _ => txnid < 2 ^ 64
  | _ => True

/-- The ranges that the file system reads or clears. -/
inductive Sweep where
  /-- `clear_prefix(name, "PIDX")`. -/
  | index (name : DbName)
  /-- `clear_prefix(name, "DELTA")`. -/
  | log (name : DbName)
  /-- The index rows from a page on, in `put_head`. -/
  | indexFrom (name : DbName) (pgno : Nat)
  /-- The index rows of a window, in `ra_fill`. -/
  | indexWindow (name : DbName) (first last : Nat)
  /-- The commits from one on, in `drop_unfinished_commit`. -/
  | logFrom (name : DbName) (txid : Nat)
  /-- One commit, in `query_intent_body` and `prevent_body`. -/
  | commit (name : DbName) (txid : Nat)
  /-- The versions below one, in `finish_body`. -/
  | shardsBelow (name : DbName) (asOf : Nat)
  /-- The pages of a version in a window, in `ra_fill`. -/
  | shardWindow (name : DbName) (asOf first last : Nat)
  /-- The markers below one, in `finish_body`. -/
  | markersBelow (name : DbName) (asOf : Nat)
  /-- The markers below one, in `load_newest_shard`. -/
  | markersTo (name : DbName) (asOf : Nat)
  /-- Everything of a database, in `delete_body`. -/
  | database (name : DbName)
  /-- The participants of a group, in `read_parts_body`. -/
  | parts (txnid : Nat)
  /-- The record of a group, in `drop_record_body`. -/
  | record (txnid : Nat)
  /-- Everything about groups, in `sweep_body`. -/
  | groups
deriving DecidableEq

/-- Where a range begins. -/
def Sweep.start : Sweep → Key
  | .index name => keyPrefix name.bytes (text "PIDX")
  | .log name => keyPrefix name.bytes (text "DELTA")
  | .indexFrom name pgno => keyPidx name.bytes pgno
  | .indexWindow name first _ => keyPidx name.bytes first
  | .logFrom name txid => keyDeltaTxid name.bytes txid
  | .commit name txid => keyDeltaTxid name.bytes txid
  | .shardsBelow name _ => keyShardVersion name.bytes 0
  | .shardWindow name asOf first _ => keyShard name.bytes asOf first
  | .markersBelow name _ => keyShardn name.bytes 0
  | .markersTo name _ => keyPrefix name.bytes (text "SHARDN")
  | .database name => text "weft/db/" ++ name.bytes ++ text "/"
  | .parts txnid => keyTxnPartPrefix txnid
  | .record txnid => keyTxnPrefix txnid
  | .groups => keyTxnAll

/-- Where a range ends. -/
def Sweep.stop : Sweep → Key
  | .indexFrom name _ => keyAfter (keyPrefix name.bytes (text "PIDX"))
  | .indexWindow name _ last => keyPidx name.bytes last
  | .logFrom name _ => keyAfter (keyPrefix name.bytes (text "DELTA"))
  | .shardsBelow name asOf => keyShardVersion name.bytes asOf
  | .shardWindow name asOf _ last => keyShard name.bytes asOf last
  | .markersBelow name asOf => keyShardn name.bytes asOf
  | .markersTo name asOf => keyShardn name.bytes asOf
  | whole => keyAfter whole.start

/-- The rows a range is for. -/
def Sweep.covers : Sweep → Row → Bool
  | .index name, .pidx name' _ => name' = name
  | .log name, .delta name' _ _ => name' = name
  | .indexFrom name pgno, .pidx name' pgno' => name' = name ∧ pgno ≤ pgno'
  | .indexWindow name first last, .pidx name' pgno => name' = name ∧ first ≤ pgno ∧ pgno < last
  | .logFrom name txid, .delta name' txid' _ => name' = name ∧ txid ≤ txid'
  | .commit name txid, .delta name' txid' _ => name' = name ∧ txid' = txid
  | .shardsBelow name asOf, .shard name' asOf' _ => name' = name ∧ asOf' < asOf
  | .shardWindow name asOf first last, .shard name' asOf' pgno =>
      name' = name ∧ asOf' = asOf ∧ first ≤ pgno ∧ pgno < last
  | .markersBelow name asOf, .shardn name' asOf' => name' = name ∧ asOf' < asOf
  | .markersTo name asOf, .shardn name' asOf' => name' = name ∧ asOf' < asOf
  | .database name, .metaRow name' _ | .database name, .pidx name' _ | .database name, .delta name' _ _
  | .database name, .shard name' _ _ | .database name, .shardn name' _ => name' = name
  | .parts txnid, .part txnid' _ => txnid' = txnid
  | .record txnid, .status txnid' | .record txnid, .part txnid' _ => txnid' = txnid
  | .groups, .next | .groups, .status _ | .groups, .part _ _ => true
  | _, _ => false

/-- The numbers of a range fit their fields. -/
def Sweep.Fits : Sweep → Prop
  | .indexFrom _ pgno => pgno < 2 ^ 32
  | .indexWindow _ first last => first < 2 ^ 32 ∧ last < 2 ^ 32
  | .shardWindow _ asOf first last => asOf < 2 ^ 64 ∧ first < 2 ^ 32 ∧ last < 2 ^ 32
  | .logFrom _ n | .commit _ n | .shardsBelow _ n | .markersBelow _ n | .markersTo _ n | .parts n
  | .record n => n < 2 ^ 64
  | _ => True

/-- `sweep_body` takes a row for a group's status by its length and its end. -/
def isStatusKey (key : Key) : Bool :=
  key.length = keyTxnAll.length + 8 + 7 ∧ (key.drop (keyTxnAll.length + 8)).take 7 = text "/STATUS"

end GyreWard.Fdb
