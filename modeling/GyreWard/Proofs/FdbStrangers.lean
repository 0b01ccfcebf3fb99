/-
Module: GyreWard.Proofs.FdbStrangers
Purpose: A handle that has lost its database changes nothing of the store, whatever it is asked to do.
Trusted boundary: none
Main exports: Lost, Idle, idle_onFile, idle_runRead, Refused, lost_flush, lost_compact, lost_weftCompactDue,
  lost_fdbClose, idle_fdbTruncate, idle_fdbRead, idle_fdbWrite
-/
import GyreWard.Proofs.FdbBytes

namespace GyreWard.Fdb

open Lib
open Lib.Action (Ends MadeOf Leaves)

variable {P α : Type}

/-! ### What a read transaction does to the file -/

/-- A read that leaves the file as it was, but for read-ahead. -/
def Still (α : Type) (x : Action (Reading P) α) : Prop := Leaves (fun r => r.file.still) x

theorem still_getRow (value : Option α) : Still (P := P) _ (getRow value) := by
  intro r
  unfold getRow
  cases r.left.gets with
  | nil => rfl
  | cons fails rest => cases fails <;> rfl

theorem still_getIndexRange (rows : List (Nat × Nat)) : Still (P := P) _ (getIndexRange rows) := by
  intro r
  unfold getIndexRange
  rcases answer rows r.left.index with ⟨_ | ⟨found, more⟩, rest⟩ <;> rfl

theorem still_getShardRange (rows : List (Nat × P)) : Still _ (getShardRange rows) := by
  intro r
  unfold getShardRange
  rcases answer rows r.left.shard with ⟨_ | ⟨found, more⟩, rest⟩ <;> rfl

theorem made_raFill (db : Db P) (first depth : Nat) : MadeOf Still _ (raFill db first depth) := by
  unfold raFill
  refine .bind (.move fun _ => rfl) fun _ => .bind (.move (still_getIndexRange _)) ?_
  rintro ⟨index, more⟩
  refine .bind (.read _) fun f => .ite (fun _ => ?_) fun _ => .move fun _ => rfl
  refine .bind (.attempt (.move (still_getShardRange _))) ?_
  rintro (_ | ⟨rows, more'⟩)
  · exact .bind (.move fun _ => rfl) fun _ => .fail
  · exact .move fun _ => rfl

theorem made_plainPage (db : Db P) (pgno : Nat) : MadeOf Still _ (plainPage db pgno) := by
  unfold plainPage
  refine .bind (.move (still_getRow _)) ?_
  rintro (_ | owner)
  · exact .bind (.read _) fun f => .ite (fun _ => .move (still_getRow _)) fun _ => .pure _
  · exact .move (still_getRow _)

theorem made_pageFromStore (db : Db P) (pgno : Nat) : MadeOf Still _ (pageFromStore db pgno) := by
  unfold pageFromStore
  refine .bind (.read _) ?_
  rintro (_ | page)
  · refine .bind (.move fun _ => rfl) fun depth => .ite (fun _ => made_plainPage db pgno) fun _ => ?_
    refine .bind (made_raFill db pgno depth) fun _ => .bind (.read _) ?_
    rintro (_ | page)
    · exact made_plainPage db pgno
    · exact .pure _
  · exact .pure _

theorem made_foldRead (db : Db P) : ∀ pgnos, MadeOf Still _ (foldRead db pgnos)
  | [] => .pure _
  | pgno :: rest => by
      rw [foldRead]
      refine .bind (made_pageFromStore db pgno) fun page => .bind (made_foldRead db rest) fun later => ?_
      cases page <;> exact .pure _

theorem made_readPieces (db : Db Page) : ∀ ps, MadeOf Still _ (readPieces db ps)
  | [] => .pure _
  | p :: rest => by
      rw [readPieces]
      refine .bind ?_ fun page => .bind (made_readPieces db rest) fun later => ?_
      · unfold pageToRead
        refine .bind (.read _) fun f => ?_
        cases findDirty f.dirty p.pgno
        · exact made_pageFromStore db p.pgno
        · exact .pure _
      · cases page <;> exact .pure _

/-! ### A handle that has lost its database -/

/-- The handle's number is not the one that the store has, and it commits by itself. -/
structure Lost (v : Vfs P) (k : Nat) : Prop where
  fence : (v.store.dbs (v.files k).name).fence ≠ some (v.files k).fence
  alone : (v.files k).groupTxnid = 0

/-- Nothing has changed but what the handle keeps to itself. -/
structure Idle (k : Nat) (v v' : Vfs P) : Prop where
  store : v'.store = v.store
  files : ∀ i, i ≠ k → v'.files i = v.files i
  name : (v'.files k).name = (v.files k).name
  fence : (v'.files k).fence = (v.files k).fence
  group : (v'.files k).groupTxnid = (v.files k).groupTxnid
  parts : v'.group = v.group
  decided : Decided v.attempts → Decided v'.attempts
  shards : ShardsRead v.reads → ShardsRead v'.reads

theorem Idle.trans {k : Nat} {v v' v'' : Vfs P} (first : Idle k v v') (second : Idle k v' v'') :
    Idle k v v'' where
  store := second.store.trans first.store
  files := fun i other => (second.files i other).trans (first.files i other)
  name := second.name.trans first.name
  fence := second.fence.trans first.fence
  group := second.group.trans first.group
  parts := second.parts.trans first.parts
  decided := fun decided => second.decided (first.decided decided)
  shards := fun shards => second.shards (first.shards shards)

theorem Idle.refl (k : Nat) (v : Vfs P) : Idle k v v := ⟨rfl, fun _ _ => rfl, rfl, rfl, rfl, rfl, id, id⟩

/-- What the handle keeps to itself changes nothing else. -/
theorem idle_onFile {v : Vfs P} {k : Nat} {change : FdbFile P → FdbFile P}
    (name : (change (v.files k)).name = (v.files k).name)
    (fence : (change (v.files k)).fence = (v.files k).fence)
    (group : (change (v.files k)).groupTxnid = (v.files k).groupTxnid) : Idle k v (v.onFile k change) where
  store := rfl
  files := fun _ other => onFile_other other change v
  name := by rw [onFile_self, name]
  fence := by rw [onFile_self, fence]
  group := by rw [onFile_self, group]
  parts := rfl
  decided := id
  shards := id

/-- Reading moves nothing but the window. -/
theorem idle_runRead {v : Vfs P} {k : Nat} {code : Code} {body : Store P → Action (Reading P) α}
    (made : MadeOf Still _ (body v.store)) :
    Ends (runRead k code body) (fun _ => Idle k v) (Idle k v) (Idle k v) v := by
  have still := made.leaves fun _ _ leaves => leaves
  have runs : ∀ (reads : List ReadAttempt) (g : FdbFile P), g.still = (v.files k).still →
      (ShardsRead reads → ShardsRead (tryRead (body v.store) reads g).2.1) ∧
        (tryRead (body v.store) reads g).2.2.still = (v.files k).still := by
    intro reads
    induction reads with
    | nil =>
        intro g same
        have kept := still { file := g, left := {} }
        rw [tryRead]
        rcases ran : body v.store { file := g, left := {} } with ⟨_, r⟩
        rw [ran] at kept
        exact ⟨fun _ => List.forall_mem_nil _, kept.trans same⟩
    | cons a rest ih =>
        intro g same
        have later : ShardsRead (a :: rest) → ShardsRead rest := fun shards b mem =>
          shards b (List.mem_cons_of_mem _ mem)
        have kept := still { file := g, left := a }
        rw [tryRead]
        rcases ran : body v.store { file := g, left := a } with ⟨_ | _ | _, r⟩ <;> rw [ran] at kept
        · exact ⟨later, kept.trans same⟩
        · dsimp only
          split
          · exact ⟨later, kept.trans same⟩
          · obtain ⟨shards, again⟩ := ih r.file (kept.trans same)
            exact ⟨fun all => shards (later all), again⟩
        · exact ⟨later, kept.trans same⟩
  obtain ⟨shards, same⟩ := runs v.reads (v.files k) rfl
  have after : ∀ {rest : List ReadAttempt} {g : FdbFile P}, (ShardsRead v.reads → ShardsRead rest) →
      g.still = (v.files k).still →
      Idle k v { v with reads := rest, files := fun i => if i = k then g else v.files i, rc := code } := by
    intro rest g shards still
    refine ⟨rfl, fun i other => if_neg other, ?_, ?_, ?_, rfl, id, shards⟩
    · dsimp only
      rw [if_pos rfl, field_of_still FdbFile.name (fun _ => rfl) still]
    · dsimp only
      rw [if_pos rfl, field_of_still FdbFile.fence (fun _ => rfl) still]
    · dsimp only
      rw [if_pos rfl, field_of_still FdbFile.groupTxnid (fun _ => rfl) still]
  unfold Ends Fdb.runRead
  rcases run : tryRead (body v.store) v.reads (v.files k) with ⟨_ | _ | _, rest, g⟩ <;> rw [run] at shards same
  · exact after shards same
  · exact after shards same
  · exact after shards same

section Lost

variable {v : Vfs P} {k : Nat} (lost : Lost v k)

include lost

theorem Lost.later {v' : Vfs P} (idle : Idle k v v') : Lost v' k where
  fence := by
    rw [idle.store, idle.name, idle.fence]
    exact lost.fence
  alone := idle.group.trans lost.alone

/-- A write transaction is refused, or fails before that. -/
theorem Lost.runTxn {f : FdbFile P} {change : Db P → Db P} {code : Code} (name : f.name = (v.files k).name)
    (fence : f.fence = (v.files k).fence) :
    Ends (runTxn code (fenced f change)) (fun _ _ => False)
      (fun v' => Idle k v v' ∧ v'.files = v.files ∧ (v'.rc = .readonly ∨ v'.rc = code)) (fun _ => False) v := by
  have stale : (v.store.dbs f.name).fence ≠ some f.fence := by
    rw [name, fence]
    exact lost.fence
  apply (ends_refused stale).mono (fun _ _ h => h) _ fun _ h => h
  rintro v' ⟨untouched, rc⟩
  have files := untouched.files
  refine ⟨⟨untouched.store, ?_, ?_, ?_, ?_, untouched.group, untouched.decided, ?_⟩, files, rc⟩
  · exact fun i _ => by rw [files]
  · rw [files]
  · rw [files]
  · rw [files]
  · rw [untouched.reads]
    exact id

end Lost

/-! ### Its calls -/

section Calls

variable {v : Vfs P} {k : Nat}

/-- What a transaction that is refused leaves. -/
structure Refused (k : Nat) (code : Code) (v v' : Vfs P) : Prop where
  idle : Idle k v v'
  files : v'.files = v.files
  rc : v'.rc = .readonly ∨ v'.rc = code

/-- The transactions of a commit, or of what is left of one. -/
theorem lost_sendCommit (lost : Lost v k) {f : FdbFile P} {txid : Nat} (name : f.name = (v.files k).name)
    (fence : f.fence = (v.files k).fence) :
    Ends (sendCommit f txid) (fun _ _ => False) (Refused k .ioerrWrite v) (fun _ => False) v := by
  have refused : ∀ {v₁ : Vfs P} {change : Db P → Db P}, Idle k v v₁ → v₁.files = v.files →
      Ends (runTxn .ioerrWrite (fenced f change)) (fun _ _ => False) (Refused k .ioerrWrite v)
        (fun _ => False) v₁ := by
    intro v₁ change idle files
    apply ((lost.later idle).runTxn (name.trans idle.name.symm) (fence.trans idle.fence.symm)).mono
    · exact fun _ _ h => h
    · exact fun v₂ ⟨idle', same, rc⟩ => ⟨idle.trans idle', same.trans files, rc⟩
    · exact fun _ h => h
  unfold sendCommit
  apply Ends.ite
  · intro _
    exact refused (.refl k v) rfl
  · intro _
    have pages : Ends (Action.forEach (steps stageTxnPages f.dirty.length) fun lo =>
        runTxn .ioerrWrite (deltaBody f txid lo (min (lo + stageTxnPages) f.dirty.length)))
        (fun _ v' => Idle k v v' ∧ v'.files = v.files) (Refused k .ioerrWrite v) (fun _ => False) v := by
      apply Ends.forEach (I := fun _ v' => Idle k v v' ∧ v'.files = v.files) ⟨(.refl k v), rfl⟩
      rintro lo rest v₁ ⟨idle, files⟩
      exact (refused idle files).mono (fun _ _ h => h.elim) (fun _ h => h) fun _ h => h
    apply pages.andThen _ (fun _ h => h) fun _ h => h
    rintro _ v₁ ⟨idle, files⟩
    exact refused idle files

/-- A sync that has something to send is refused, and its writer is told so; one that has not sends nothing. -/
theorem lost_flush (lost : Lost v k) :
    Ends (flush k)
      (fun _ v' => v' = v ∧ (v.files k).dirty = [] ∧ (v.files k).truncPages = none ∧
        (v.files k).size = (v.files k).sentSize)
      (Refused k .ioerrWrite v) (fun _ => False) v := by
  unfold flush
  apply Ends.bind
  apply Ends.ite
  · rintro ⟨empty, uncut, sent⟩
    exact ⟨rfl, List.length_eq_zero_iff.mp empty, uncut, sent⟩
  · intro _
    apply Ends.ite
    · exact fun group => absurd lost.alone group
    · intro _
      apply (lost_sendCommit lost rfl rfl).andThen _ (fun _ h => h) fun _ h => h
      exact fun _ _ h => h.elim

/-- A fold gets no further than its first window. -/
theorem lost_foldWindows (lost : Lost v k) {asOf npages window : Nat} :
    ∀ {rest : List Nat} {kept : Nat} {v₁ : Vfs P}, Idle k v v₁ →
      Ends (foldWindows k asOf npages window rest kept) (fun _ => Idle k v) (Idle k v) (Idle k v) v₁
  | [], _, _, idle => idle
  | lo :: rest, kept, v₁, idle => by
      have still := lost.later idle
      rw [foldWindows]
      apply Ends.bind
      apply Ends.bind
      apply (idle_runRead (made_foldRead _ _)).mono
      · intro pages v₂ idle₂
        apply Ends.bind
        apply ((still.later idle₂).runTxn idle₂.name.symm idle₂.fence.symm).mono
        · exact fun _ _ h => h.elim
        · exact fun v₃ refused => (idle.trans idle₂).trans refused.1
        · exact fun _ h => h.elim
      · exact fun v₂ idle₂ => idle.trans idle₂
      · exact fun v₂ idle₂ => idle.trans idle₂

theorem lost_compact (lost : Lost v k) : Ends (compact k) (fun _ => Idle k v) (Idle k v) (Idle k v) v := by
  unfold compact
  apply Ends.bind
  apply Ends.ite
  · exact fun _ => (.refl k v)
  · intro _
    apply (lost_foldWindows lost (.refl k v)).andThen _ (fun _ h => h) fun _ h => h
    intro kept v₁ idle
    apply Ends.bind
    apply ((lost.later idle).runTxn idle.name.symm idle.fence.symm).mono
    · exact fun _ _ h => h.elim
    · exact fun v₂ refused => idle.trans refused.1
    · exact fun _ h => h.elim

theorem lost_weftCompactDue (lost : Lost v k) :
    Ends (weftCompactDue k) (fun _ => Idle k v) (Idle k v) (Idle k v) v := by
  unfold weftCompactDue
  apply Ends.bind
  apply Ends.ite
  · exact fun _ => (.refl k v)
  · intro _
    apply Ends.ite
    · exact fun _ => (.refl k v)
    · intro _
      apply Ends.bind
      have idle : Idle k v (v.onFile k fun f => { f with compactDue := false }) := idle_onFile rfl rfl rfl
      apply (lost_compact (lost.later idle)).mono
      · exact fun _ v' idle' => idle.trans idle'
      · exact fun v' idle' => idle.trans idle'
      · exact fun v' idle' => idle.trans idle'

theorem lost_fdbClose (lost : Lost v k) :
    Ends (fdbClose k) (fun _ => Idle k v) (Idle k v) (Idle k v) v := by
  unfold fdbClose
  have work : Ends (do flush k; weftCompactDue k) (fun _ => Idle k v) (Idle k v) (Idle k v) v := by
    apply (lost_flush lost).andThen _ (fun _ refused => refused.idle) fun _ h => h.elim
    rintro _ v₁ ⟨rfl, -⟩
    exact lost_weftCompactDue lost
  have clear : ∀ {v₁ : Vfs P}, Idle k v v₁ →
      Idle k v (v₁.onFile k fun f => { clearDirty f with raSlots := [], raCount := 0 }) :=
    fun idle => idle.trans (idle_onFile rfl rfl rfl)
  apply Ends.bind
  apply Ends.attempt
  apply work.mono
  · intro _ v₁ idle
    exact clear idle
  · intro v₁ idle
    exact clear idle
  · exact fun _ h => h

end Calls

/-! ### Calls that send nothing -/

section Bytes

variable {v : Vfs Page} {k : Nat}

theorem idle_fdbTruncate (size : Nat) :
    Ends (fdbTruncate k size) (fun _ => Idle k v) (Idle k v) (Idle k v) v :=
  idle_onFile rfl rfl rfl

theorem idle_fdbRead (amt off : Nat) :
    Ends (fdbRead k amt off) (fun _ => Idle k v) (Idle k v) (Idle k v) v := by
  unfold fdbRead
  apply Ends.bind
  exact idle_runRead (made_readPieces _ _)

theorem idle_bufferPage (pgno : Nat) (whole : Bool) :
    Ends (bufferPage k pgno whole) (fun _ => Idle k v) (Idle k v) (Idle k v) v := by
  unfold bufferPage fileOf
  apply Ends.bind
  rw [Ends.read_iff]
  cases findDirty (v.files k).dirty pgno with
  | some page => exact .refl k v
  | none =>
      apply Ends.ite
      · intro _
        exact ⟨rfl, fun _ _ => rfl, rfl, rfl, rfl, rfl, id, id⟩
      · intro _
        have page : Ends (storedPage k pgno whole) (fun _ => Idle k v) (Idle k v) (Idle k v) v := by
          unfold storedPage
          apply Ends.ite
          · exact fun _ => .refl k v
          · intro _
            apply Ends.bind
            exact idle_fdbRead _ _
        apply page.andThen _ (fun _ h => h) fun _ h => h
        intro page v₁ idle
        exact idle.trans (idle_onFile rfl rfl rfl)

theorem idle_fdbWrite (data : List UInt8) (off : Nat) :
    Ends (fdbWrite k data off) (fun _ => Idle k v) (Idle k v) (Idle k v) v := by
  unfold fdbWrite
  have pieces : Ends (Action.forEach (pieces data.length off data.length) (writePiece k off data))
      (fun _ => Idle k v) (Idle k v) (Idle k v) v := by
    apply Ends.forEach (I := fun _ => Idle k v) (.refl k v)
    intro p rest v₁ idle
    unfold writePiece
    apply (idle_bufferPage _ _).andThen
    · intro _ v₂ idle₂
      have both := idle.trans idle₂
      exact both.trans (idle_onFile rfl rfl rfl)
    · exact fun v₂ idle₂ => idle.trans idle₂
    · exact fun v₂ idle₂ => idle.trans idle₂
  apply pieces.andThen _ (fun _ h => h) fun _ h => h
  intro _ v₁ idle
  exact idle.trans (idle_onFile rfl rfl rfl)

end Bytes

end GyreWard.Fdb
