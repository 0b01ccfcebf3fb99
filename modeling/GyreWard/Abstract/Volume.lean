/-
Module: GyreWard.Abstract.Volume
Purpose: What a file system over a shared store is for: a file that keeps what was last sent of it, with one
  process at a time that has a draft of it.
Trusted boundary: the abstract statement of the component's purpose; the faithful model refines it
Main exports: Contents, Draft, Volume, FileCall, FileOutcome, Volume.Step, Volume.Run
-/
import Mathlib.Logic.Function.Basic

namespace GyreWard

variable {β : Type}

/-! ### What is promised -/

/-- What is promised of a file: its size, and of each place the byte that is there, where one is promised. -/
structure Contents (β : Type) where
  size : Nat
  byte : Nat → Option β

namespace Contents

/-- Nothing is promised of what stands past a cut that has not been sent, not even what is written there. -/
def write (c : Contents β) (cut : Option Nat) (off : Nat) (data : List β) : Contents β where
  size := max c.size (off + data.length)
  byte i :=
    if off ≤ i ∧ i < off + data.length then
      if ∃ n, cut = some n ∧ n ≤ i then none else data[i - off]?
    else c.byte i

/-- Nothing is promised of a range of which it is not known how much was written. -/
def smudge (c : Contents β) (off count : Nat) : Contents β :=
  { c with byte := fun i => if off ≤ i ∧ i < off + count then none else c.byte i }

/-- Nothing is promised from a place on. -/
def upTo (c : Contents β) (n : Nat) : Contents β := { c with byte := fun i => if i < n then c.byte i else none }

/-- Bytes that were read are those that were promised. -/
def Reads (c : Contents β) (off amt : Nat) (bytes : List β) : Prop :=
  bytes.length = amt ∧ ∀ j b, j < amt → c.byte (off + j) = some b → bytes[j]? = some b

end Contents

/-- What the process that opened the file last has before it: what it reads, and where the file was cut since it
was sent. -/
structure Draft (β : Type) where
  owner : Nat
  seen : Contents β
  cut : Option Nat

/-- A file: what is kept of it, and the draft of the process that owns it. -/
structure Volume (β : Type) where
  kept : Contents β
  draft : Option (Draft β)

/-! ### What may happen -/

/-- What a process asks of the file. -/
inductive FileCall (β : Type) where
  | write (off : Nat) (data : List β)
  | truncate (size : Nat)
  | read (off amt : Nat)
  | sync
  | fold
  | close
  | reopen

/-- What comes of a call: it returned, with what was read; it failed; or the process stopped in it. -/
inductive FileOutcome (β : Type) where
  | returned (bytes : List β)
  | failed
  | died

variable (grain : Nat)

/-- The end of the last page of a file. -/
def pageEnd (size : Nat) : Nat := (size + grain - 1) / grain * grain

namespace Volume

/-- What a call by process `k` may make of the file, whose pages are `grain` bytes long. -/
inductive Step : Volume β → Nat → FileCall β → FileOutcome β → Volume β → Prop where
  | wrote {kept d off data} :
      Step ⟨kept, some d⟩ d.owner (.write off data) (.returned [])
        ⟨kept, some { d with seen := d.seen.write d.cut off data }⟩
  | writeFailed {kept d off data} :
      Step ⟨kept, some d⟩ d.owner (.write off data) .failed
        ⟨kept, some { d with seen := d.seen.smudge off data.length }⟩
  /-- The file is cut at the end of a page. -/
  | truncated {kept d size} :
      Step ⟨kept, some d⟩ d.owner (.truncate size) (.returned [])
        ⟨kept, some { d with
          seen := { d.seen with size := size }.upTo (pageEnd grain size)
          cut := some (match d.cut with
            | none => pageEnd grain size
            | some n => min (pageEnd grain size) n) }⟩
  | read {kept d off amt bytes} (right : d.seen.Reads off amt bytes) :
      Step ⟨kept, some d⟩ d.owner (.read off amt) (.returned bytes) ⟨kept, some d⟩
  | readFailed {kept d off amt} : Step ⟨kept, some d⟩ d.owner (.read off amt) .failed ⟨kept, some d⟩
  /-- All of the draft is sent, or none of it. -/
  | synced {kept d} :
      Step ⟨kept, some d⟩ d.owner .sync (.returned []) ⟨d.seen, some { d with cut := none }⟩
  | syncFailed {kept d} : Step ⟨kept, some d⟩ d.owner .sync .failed ⟨kept, some d⟩
  | syncDied {kept kept' d} (either : kept' = kept ∨ kept' = d.seen) :
      Step ⟨kept, some d⟩ d.owner .sync .died ⟨kept', none⟩
  /-- A fold keeps what the file has. -/
  | folded {kept d o} (back : o = .returned [] ∨ o = .failed) :
      Step ⟨kept, some d⟩ d.owner .fold o
        ⟨kept.upTo (pageEnd grain d.seen.size),
          some { d with seen := d.seen.upTo (pageEnd grain d.seen.size) }⟩
  | foldDied {kept d} :
      Step ⟨kept, some d⟩ d.owner .fold .died ⟨kept.upTo (pageEnd grain d.seen.size), none⟩
  | closed {kept d} :
      Step ⟨kept, some d⟩ d.owner .close (.returned []) ⟨d.seen.upTo (pageEnd grain d.seen.size), none⟩
  | notClosed {kept kept' d o} (short : o = .failed ∨ o = .died)
      (either : kept' = kept ∨ kept' = d.seen.upTo (pageEnd grain d.seen.size)) :
      Step ⟨kept, some d⟩ d.owner .close o ⟨kept', none⟩
  /-- Whoever opens the file takes it over, with what is kept of it. -/
  | opened {kept d k} :
      Step ⟨kept, d⟩ k .reopen (.returned []) ⟨kept, some { owner := k, seen := kept, cut := none }⟩
  | notOpened {kept d d' k o} (short : o = .failed ∨ o = .died)
      (left : d' = none ∨ d' = d ∧ ∀ e, d = some e → e.owner ≠ k) : Step ⟨kept, d⟩ k .reopen o ⟨kept, d'⟩
  /-- A process that has lost the file changes nothing of it. -/
  | stranger {m k c o} (lost : ∀ d, m.draft = some d → d.owner ≠ k) (other : c ≠ .reopen) : Step m k c o m

/-- What a sequence of calls may make of the file. -/
inductive Run : Volume β → List (Nat × FileCall β × FileOutcome β) → Volume β → Prop where
  | done {m} : Run m [] m
  | step {m m' m'' k c o rest} (first : Step grain m k c o m') (later : Run m' rest m'') :
      Run m ((k, c, o) :: rest) m''

end Volume

end GyreWard
