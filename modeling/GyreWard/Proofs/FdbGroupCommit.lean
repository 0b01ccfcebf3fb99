/-
Module: GyreWard.Proofs.FdbGroupCommit
Purpose: Files that are committed together are all committed or none is, wherever the committer and the recoveries
  after it stop.
Trusted boundary: none
Main exports: Vfs.participants, Assembled, ends_weftTxnCommit
-/
import GyreWard.Proofs.FdbDurability
import GyreWard.Proofs.FdbRecovery

namespace GyreWard.Fdb

open Lib
open Lib.Action (Ends)

variable {P : Type}

/-! ### The commit -/

/-- A file of the group with what it staged under. -/
def Vfs.participant (v : Vfs P) (part : Nat × Nat) : Participant P where
  file := v.files part.1
  rows := v.store.dbs (v.files part.1).name
  txid := part.2

def Vfs.participants (v : Vfs P) : List (Participant P) := v.group.parts.map v.participant

/-- Every file of the group has staged what it has, and there is no record. -/
structure Assembled (v : Vfs P) : Prop where
  isOpen : v.group.isOpen = true
  fellows : Fellows v.participants
  offered : ∀ p ∈ v.participants, p.Offered
  fresh : v.store.records.get v.group.txnid = none
  decided : Decided v.attempts
  whole : WholeReads v.reads

section Commit

variable {v : Vfs P}

theorem mem_participants {p : Participant P} : p ∈ v.participants ↔ ∃ part ∈ v.group.parts, v.participant part = p :=
  List.mem_map

/-- The fences are where the files of the group left them. -/
theorem fences_hold {s : Store P} (dbs : s.dbs = v.store.dbs) (staged : ∀ p ∈ v.participants, p.Staged) :
    (v.partFiles.forM fun part => checkFence part.1 s) = (.ok () : Except Code Unit) := by
  have each : ∀ part ∈ v.partFiles, checkFence part.1 s = .ok () := by
    intro part mem
    obtain ⟨member, there, rfl⟩ := List.mem_map.mp mem
    have fence := (staged _ (mem_participants.mpr ⟨member, there, rfl⟩)).synced.fence
    unfold checkFence
    rw [dbs]
    exact if_pos fence
  generalize v.partFiles = parts at each
  induction parts with
  | nil => rfl
  | cons part rest ih =>
      change (checkFence part.1 s >>= fun _ => rest.forM fun part => checkFence part.1 s) = _
      rw [each part List.mem_cons_self]
      exact ih fun part mem => each part (List.mem_cons_of_mem _ mem)

theorem recordBody_lands {s : Store P} (fellows : Fellows v.participants)
    (filed : Filed v.group.txnid v.store s)
    (record : s.records.get v.group.txnid = none ∨ Staging v.group.txnid v.participants s) :
    ∃ s', recordBody v.group.txnid v.partFiles s = .ok ((), s') ∧ Filed v.group.txnid v.store s' ∧
      Staging v.group.txnid v.participants s' := by
  have rows : (v.partFiles.map fun part => (part.1.name, (⟨part.2, part.1.size⟩ : Part))) =
      v.participants.map fun p => (p.name, p.part) := by
    unfold Vfs.partFiles Vfs.participants
    rw [List.map_map, List.map_map]
    rfl
  unfold recordBody
  rw [fences_hold filed.dbs fellows.staged]
  refine ⟨_, rfl, filed.trans (filed_onRecord _ _ _), ?_⟩
  unfold Staging Store.onRecord
  rw [Table.get_set_self, rows]
  rcases record with none | staging
  · rw [none]
    rfl
  · rw [staging]
    unfold shares
    dsimp only [Option.getD_some]
    rw [Table.setAll_setAll fellows.rows_apart]

/-- The record is written, or it is not. -/
theorem ends_record (assembled : Assembled v) :
    Ends (runTxn .ioerrWrite (recordBody v.group.txnid v.partFiles))
      (fun _ v' => Beside v v' ∧ Filed v.group.txnid v.store v'.store ∧
        Staging v.group.txnid v.participants v'.store)
      (fun v' => Beside v v' ∧ v'.store = v.store)
      (fun v' => Beside v v' ∧ (v'.store = v.store ∨ (Filed v.group.txnid v.store v'.store ∧
        Staging v.group.txnid v.participants v'.store))) v := by
  let After : Unit → Store P → Prop := fun _ s =>
    Filed v.group.txnid v.store s ∧ Staging v.group.txnid v.participants s
  have run : ∀ a s', recordBody v.group.txnid v.partFiles v.store = .ok (a, s') → After a s' := by
    intro _ s' ran
    obtain ⟨s, ran', after⟩ := recordBody_lands assembled.fellows (Filed.refl _ _) (Or.inl assembled.fresh)
    rw [ran'] at ran
    cases ran
    exact after
  have again : ∀ a s, After a s →
      ∃ a' s', recordBody v.group.txnid v.partFiles s = .ok (a', s') ∧ After a' s' := by
    rintro _ s ⟨filed, staging⟩
    obtain ⟨s', ran, after⟩ := recordBody_lands assembled.fellows filed (Or.inr staging)
    exact ⟨(), s', ran, after⟩
  apply (ends_runTxn assembled.decided run again).mono (fun _ _ h => h) (fun _ h => h)
  rintro v' ⟨beside, same | ⟨_, landed⟩⟩
  · exact ⟨beside, Or.inl same⟩
  · exact ⟨beside, Or.inr landed⟩

/-- The heads that the committer has still to move are those of `rest`. -/
structure Resolving (v : Vfs P) (rest : List (Nat × Nat)) (v' : Vfs P) : Prop where
  grouped : Grouped v.group.txnid v.participants v.store v'.store
  record : Staging v.group.txnid v.participants v'.store
  decided : Decided v'.attempts
  whole : WholeReads v'.reads
  within : ∀ part ∈ rest, part ∈ v.group.parts
  apart : rest.Pairwise fun a b => (v.files a.1).name ≠ (v.files b.1).name
  files : ∀ part ∈ rest, v'.files part.1 = v.files part.1
  pending : ∀ part ∈ rest, (v.participant part).Pending (v'.store.dbs (v.participant part).name)
  done : ∀ part ∈ v.group.parts, part ∈ rest ∨ (v.participant part).Done (v'.store.dbs (v.participant part).name)

theorem Resolving.recorded {rest : List (Nat × Nat)} {v' : Vfs P} (resolving : Resolving v rest v') :
    Recorded v.group.txnid v.participants v.store v' :=
  ⟨resolving.grouped, Or.inl resolving.record, resolving.decided, resolving.whole⟩

/-- One head has moved, or needs not move. -/
theorem Resolving.next {part : Nat × Nat} {rest : List (Nat × Nat)} {v' v'' : Vfs P}
    (fellows : Fellows v.participants) (resolving : Resolving v (part :: rest) v')
    (decided : Decided v''.attempts) (reads : v''.reads = v'.reads)
    (files : ∀ i, i ≠ part.1 → v''.files i = v'.files i)
    (elsewhere : Elsewhere (v.participant part).name v'.store v''.store)
    (done : (v.participant part).Done (v''.store.dbs (v.participant part).name)) : Resolving v rest v'' := by
  have here := resolving.within part List.mem_cons_self
  obtain ⟨others, apart⟩ := List.pairwise_cons.mp resolving.apart
  refine ⟨resolving.grouped.move fellows (mem_participants.mpr ⟨part, here, rfl⟩) elsewhere done, ?_, decided, ?_,
    fun part' mem => resolving.within part' (List.mem_cons_of_mem _ mem), apart, ?_, ?_, ?_⟩
  · unfold Staging
    rw [elsewhere.records]
    exact resolving.record
  · rw [reads]
    exact resolving.whole
  · intro part' mem
    have other : part'.1 ≠ part.1 := fun same => others part' mem (congrArg (fun i => (v.files i).name) same.symm)
    rw [files _ other]
    exact resolving.files part' (List.mem_cons_of_mem _ mem)
  · intro part' mem
    have other : (v.participant part').name ≠ (v.participant part).name := Ne.symm (others part' mem)
    rw [elsewhere.dbs _ other]
    exact resolving.pending part' (List.mem_cons_of_mem _ mem)
  · intro part' there
    by_cases same : (v.participant part').name = (v.participant part).name
    · have equal := fellows.same (mem_participants.mpr ⟨part', there, rfl⟩)
        (mem_participants.mpr ⟨part, here, rfl⟩) same
      rw [equal]
      exact Or.inr done
    · rw [elsewhere.dbs _ same]
      rcases resolving.done part' there with mem | done
      · rcases List.mem_cons.mp mem with rfl | mem
        · exact absurd rfl same
        · exact Or.inl mem
      · exact Or.inr done

/-- The committer moves the heads, one after another. -/
theorem ends_resolveParts (fellows : Fellows v.participants) {v₁ : Vfs P}
    (resolving : Resolving v v.group.parts v₁) :
    Ends (Action.forEach v.group.parts fun part => txnResolvePart part.1 part.2)
      (fun _ => Resolving v []) (Recorded v.group.txnid v.participants v.store)
      (Recorded v.group.txnid v.participants v.store) v₁ := by
  apply Ends.forEach (I := Resolving v) resolving
  intro part rest v₂ resolving₂
  have here := resolving₂.within part List.mem_cons_self
  have staged := fellows.staged _ (mem_participants.mpr ⟨part, here, rfl⟩)
  have pending := resolving₂.pending part List.mem_cons_self
  have file : v₂.files part.1 = v.files part.1 := resolving₂.files part List.mem_cons_self
  unfold txnResolvePart fileOf
  apply Ends.bind
  rw [Ends.read_iff, file]
  apply Ends.ite
  · intro within
    exact resolving₂.next fellows resolving₂.decided rfl (fun _ _ => rfl) (Elsewhere.refl _ _)
      (pending.done within)
  · intro above
    have beyond : (v.participant part).file.head < (v.participant part).txid := Nat.lt_of_not_le above
    have stop : ∀ {v'}, Beside v₂ v' → (v'.store = v₂.store ∨
        (Elsewhere (v.participant part).name v₂.store v'.store ∧
          (v.participant part).Done (v'.store.dbs (v.participant part).name))) →
        Recorded v.group.txnid v.participants v.store v' := by
      rintro v' beside (store | ⟨elsewhere, done⟩)
      · refine ⟨store ▸ resolving₂.grouped, Or.inl ?_, beside.decided, beside.reads ▸ resolving₂.whole⟩
        unfold Staging
        rw [store]
        exact resolving₂.record
      · exact (resolving₂.next fellows beside.decided beside.reads (fun i _ => by rw [beside.files]) elsewhere
          done).recorded
    apply (ends_headBody (p := v.participant part) resolving₂.decided staged beyond pending).andThen
    · rintro _ v₃ ⟨beside, elsewhere, done⟩
      have files : ∀ i, i ≠ part.1 → (v₃.onFile part.1 (committed part.2)).files i = v₂.files i := by
        intro i other
        rw [onFile_other other, beside.files]
      exact @Resolving.next P v part rest v₂ (v₃.onFile part.1 (committed part.2)) fellows resolving₂
        beside.decided beside.reads files elsewhere done
    · rintro v₃ ⟨beside, store⟩
      exact stop beside (Or.inl store)
    · rintro v₃ ⟨beside, either⟩
      exact stop beside either

/-- The committer moves every head and says so, or leaves it to a recovery. -/
theorem ends_txnResolveGroup (fellows : Fellows v.participants) {v₁ : Vfs P}
    (resolving : Resolving v v.group.parts v₁) (parts : v₁.group.parts = v.group.parts) :
    Ends (txnResolveGroup v.group.txnid) (fun _ => Recorded v.group.txnid v.participants v.store)
      (Recorded v.group.txnid v.participants v.store) (Recorded v.group.txnid v.participants v.store) v₁ := by
  unfold txnResolveGroup
  apply Ends.bind
  rw [Ends.read_iff, parts]
  apply (ends_resolveParts fellows resolving).andThen _ (fun _ h => h) fun _ h => h
  intro _ v₂ resolved
  have moving : Moving v.group.txnid v.participants v.store [] v₂ := by
    refine ⟨resolved.grouped, resolved.record, resolved.decided, resolved.whole, fun _ none => (by cases none), ?_⟩
    intro p there
    obtain ⟨part, mem, rfl⟩ := mem_participants.mp there
    rcases resolved.done part mem with none | done
    · cases none
    · exact Or.inl done
  exact (ends_finishRecord moving).mono (fun _ _ h => h.1) (fun _ h => h) fun _ h => h

/-- Closing a group is of no account for what it was. -/
theorem Recorded.closed {txnid : Nat} {ps : List (Participant P)} {s₀ : Store P} {v' : Vfs P}
    (recorded : Recorded txnid ps s₀ v') :
    Ends closeGroup (fun _ => Recorded txnid ps s₀) (Recorded txnid ps s₀) (Recorded txnid ps s₀) v' :=
  ⟨recorded.grouped, recorded.record, recorded.decided, recorded.whole⟩

/-- Nothing has been written. -/
structure Unwritten (v v' : Vfs P) : Prop where
  store : v'.store = v.store
  decided : Decided v'.attempts
  whole : WholeReads v'.reads

/-- The commit of a group writes its record or nothing. -/
theorem ends_weftTxnCommit (assembled : Assembled v) :
    Ends (weftTxnCommit v.group.txnid) (fun _ => Recorded v.group.txnid v.participants v.store) (Unwritten v)
      (fun v' => Unwritten v v' ∨ Recorded v.group.txnid v.participants v.store v') v := by
  have written : ∀ {v'}, Beside v v' → Filed v.group.txnid v.store v'.store →
      Staging v.group.txnid v.participants v'.store → Resolving v v.group.parts v' := by
    intro v' beside filed staging
    have pending : ∀ part ∈ v.group.parts,
        (v.participant part).Pending (v'.store.dbs (v.participant part).name) := by
      intro part _
      rw [filed.dbs]
      rfl
    have apart := assembled.fellows.apart
    unfold Vfs.participants at apart
    rw [List.pairwise_map] at apart
    refine ⟨⟨fun _ _ => by rw [filed.dbs], ?_, filed.records⟩, staging, beside.decided,
      beside.reads ▸ assembled.whole, fun _ mem => mem, apart,
      fun _ _ => by rw [beside.files], pending, fun _ mem => Or.inl mem⟩
    intro p there
    obtain ⟨part, mem, rfl⟩ := mem_participants.mp there
    exact Or.inl (pending part mem)
  have unwritten : ∀ {v'}, Beside v v' → v'.store = v.store → Unwritten v v' := by
    intro v' beside store
    exact ⟨store, beside.decided, beside.reads ▸ assembled.whole⟩
  unfold weftTxnCommit
  apply Ends.bind
  rw [Ends.read_iff]
  apply Ends.ite
  · rintro (closed | other)
    · exact absurd assembled.isOpen closed
    · exact absurd rfl other
  · intro _
    apply Ends.bind
    rw [Ends.read_iff]
    apply Ends.bind
    apply Ends.attempt
    apply (ends_record assembled).mono
    · rintro _ v₁ ⟨beside, filed, staging⟩
      have resolving := written beside filed staging
      apply Ends.bind
      apply Ends.attempt
      apply (ends_txnResolveGroup assembled.fellows resolving (by rw [beside.group])).mono
      · exact fun _ v₂ recorded => recorded.closed
      · exact fun v₂ recorded => recorded.closed
      · exact fun v₂ recorded => Or.inr recorded
    · rintro v₁ ⟨beside, store⟩
      have kept := unwritten beside store
      apply Ends.bind
      exact ⟨kept.store, kept.decided, kept.whole⟩
    · rintro v₁ ⟨beside, store | ⟨filed, staging⟩⟩
      · exact Or.inl (unwritten beside store)
      · exact Or.inr (written beside filed staging).recorded

end Commit

/-! ### The group before its commit -/

/-- What a caller does with a group that it has written to (`group_commit`): it syncs the files, and commits, or
gives the group up. -/
def syncAndCommit (txnid : Nat) (syncs : List Nat) : Action (Vfs P) Unit := do
  match ← Action.attempt (Action.forEach syncs flush) with
  | none => do
      weftTxnAbort txnid
      Action.fail
  | some () => weftTxnCommit txnid

/-- Files that have joined a group, and written what they will: each is owned, has not been cut, has something to
send if its size has changed, and what is left of an earlier commit of it that got no head is in its buffer. -/
structure Joined (hs : List Nat) (v : Vfs P) : Prop where
  isOpen : v.group.isOpen = true
  parts : v.group.parts = hs.map fun h => (h, (v.files h).head)
  owns : ∀ h ∈ hs, Owns v h
  member : ∀ h ∈ hs, (v.files h).groupTxnid ≠ 0
  uncut : ∀ h ∈ hs, (v.files h).truncPages = none
  grown : ∀ h ∈ hs, (v.files h).dirty = [] → (v.files h).size = (v.files h).sentSize
  covered : ∀ h ∈ hs, ∀ q page,
    ((v.store.dbs (v.files h).name).delta ((v.files h).head + 1)).get q = some page →
      rowOf (v.files h).dirty q ≠ none
  apart : hs.Pairwise fun i j => (v.files i).name ≠ (v.files j).name
  few : hs.length ≤ txnMaxParts
  fresh : v.store.records.get v.group.txnid = none
  settled : stagingRecords v.store = []
  decided : Decided v.attempts
  whole : WholeReads v.reads

/-- The rows of a file with its buffer staged. -/
def stagedRows (f : FdbFile P) (db : Db P) : Db P :=
  if 0 < f.dirty.length then putDeltaPages f (f.head + 1) 0 f.dirty.length db else db

section Staged

variable {f : FdbFile P} {db : Db P}

theorem stagedRows_pos (some : 0 < f.dirty.length) :
    stagedRows f db = withPages (f.head + 1) ((db.delta (f.head + 1)).setAll f.dirty) db := by
  unfold stagedRows
  rw [if_pos some, putDeltaPages_eq, List.drop_zero, Nat.sub_zero, List.take_length]

theorem stagedRows_none (none : ¬ 0 < f.dirty.length) : stagedRows f db = db := if_neg none

theorem Synced.above (synced : Synced f db) : headOf db < f.head + 1 := by
  rw [synced.head]
  exact Nat.lt_succ_self _

theorem Synced.staged (synced : Synced f db) (sane : Sane db) : Synced f (stagedRows f db) := by
  by_cases some : 0 < f.dirty.length
  · rw [stagedRows_pos some]
    exact synced.withPages sane synced.above
  · rw [stagedRows_none some]
    exact synced

theorem Sane.staged (sane : Sane db) (synced : Synced f db) : Sane (stagedRows f db) := by
  by_cases some : 0 < f.dirty.length
  · rw [stagedRows_pos some]
    exact sane.withPages synced.above
  · rw [stagedRows_none some]
    exact sane

/-- Nothing reads what is staged. -/
theorem image_stagedRows (synced : Synced f db) (sane : Sane db) (q : Nat) :
    image (stagedRows f db) q = image db q := by
  by_cases some : 0 < f.dirty.length
  · rw [stagedRows_pos some]
    exact image_withPages sane synced.above q
  · rw [stagedRows_none some]

theorem size_stagedRows : (stagedRows f db).size = db.size := by
  unfold stagedRows
  split <;> rfl

/-- What the file becomes does not depend on what is staged. -/
theorem merged_stagedRows (synced : Synced f db) (sane : Sane db) (uncut : f.truncPages = none) (q : Nat) :
    merged f (stagedRows f db) q = view f db q := by
  have kept : ¬ Dropped f q := by simp [Dropped, uncut]
  unfold merged
  rw [if_neg kept]
  unfold view
  rw [image_stagedRows synced sane]

theorem stagedRows_twice (synced : Synced f db) : stagedRows f (stagedRows f db) = stagedRows f db := by
  by_cases some : 0 < f.dirty.length
  · unfold stagedRows
    rw [if_pos some, if_pos some]
    exact putDeltaPages_twice synced.sorted _ _ _ _
  · rw [stagedRows_none some, stagedRows_none some]

/-- A file that has staged is a participant that can be decided. -/
theorem offered_participant {rows : Db P} (synced : Synced f db) (sane : Sane db)
    (few : f.dirty.length ≤ oneTxnPages)
    (covered : ∀ q page, (db.delta (f.head + 1)).get q = some page → rowOf f.dirty q ≠ none)
    (staged : rows = stagedRows f db) : ({ file := f, rows, txid := stagedUnder f } : Participant P).Offered where
  synced := staged ▸ synced.staged sane
  sane := staged ▸ sane.staged synced
  either := by
    by_cases some : 0 < f.dirty.length
    · have under : stagedUnder f = f.head + 1 := if_pos some
      refine Or.inl ⟨under, List.length_pos_iff.mp some, Nat.le_trans few (by decide), ?_⟩
      have table : (db.delta (f.head + 1)).setAll f.dirty = synced.sorted.table := by
        apply Table.ext_get
        intro q
        rw [Table.get_setAll synced.sorted.apart, synced.sorted.get]
        change (rowOf f.dirty q).or _ = _
        cases row : rowOf f.dirty q with
        | some page => rfl
        | none =>
            cases left : (db.delta (f.head + 1)).get q with
            | none => rfl
            | some page => exact absurd row (covered q page left)
      dsimp only
      rw [under, staged, stagedRows_pos some]
      unfold withPages
      dsimp only
      rw [if_pos rfl, table]
      rfl
    · have clean : f.dirty = [] := List.length_eq_zero_iff.mp (Nat.eq_zero_of_not_pos some)
      exact Or.inr ⟨if_neg some, clean⟩

/-- The owner of a file sends its buffer, if there is any, under the commit after its head. -/
theorem ends_stageBuffer {v : Vfs P} (decided : Decided v.attempts)
    (own : (v.store.dbs f.name).fence = some f.fence) (sorted : Sorted f.dirty) :
    Ends (stagePages f)
      (fun _ v' => Beside v v' ∧ Elsewhere f.name v.store v'.store ∧
        v'.store.dbs f.name = stagedRows f (v.store.dbs f.name))
      (fun v' => Beside v v' ∧ v'.store = v.store)
      (fun v' => Beside v v' ∧ (v'.store = v.store ∨ (Elsewhere f.name v.store v'.store ∧
        v'.store.dbs f.name = stagedRows f (v.store.dbs f.name)))) v := by
  unfold stagePages
  apply Ends.ite
  · intro some
    have sent : ∀ {v' : Vfs P}, v'.store = v.store.onDb f.name (putDeltaPages f (f.head + 1) 0 f.dirty.length) →
        Elsewhere f.name v.store v'.store ∧ v'.store.dbs f.name = stagedRows f (v.store.dbs f.name) := by
      intro v' store
      rw [store, onDb_same]
      exact ⟨Elsewhere.onDb _ _ _, (if_pos some).symm⟩
    apply (ends_fenced decided own rfl (putDeltaPages_twice sorted _ _ _ _)).mono
    · rintro _ v' ⟨beside, store⟩
      exact ⟨beside, sent store⟩
    · exact fun _ unsent => unsent
    · rintro v' ⟨beside, store | store⟩
      · exact ⟨beside, Or.inl store⟩
      · exact ⟨beside, Or.inr (sent store)⟩
  · intro none
    exact ⟨⟨rfl, rfl, rfl, decided⟩, Elsewhere.refl _ _, (stagedRows_none none).symm⟩

end Staged

/-! ### Syncing the files of a group -/

/-- No record has been written: the rows of each file are as they were, or with its buffer staged. -/
structure Unrecorded (hs : List Nat) (v v' : Vfs P) : Prop where
  rows : ∀ h ∈ hs, v'.store.dbs (v.files h).name = v.store.dbs (v.files h).name ∨
    v'.store.dbs (v.files h).name = stagedRows (v.files h) (v.store.dbs (v.files h).name)
  others : ∀ n, (∀ h ∈ hs, (v.files h).name ≠ n) → v'.store.dbs n = v.store.dbs n
  records : v'.store.records = v.store.records
  decided : Decided v'.attempts
  whole : WholeReads v'.reads

/-- The files `done` of a group have staged. -/
structure Syncing (hs : List Nat) (v : Vfs P) (done : List Nat) (v' : Vfs P) : Prop where
  files : v'.files = v.files
  txnid : v'.group.txnid = v.group.txnid
  isOpen : v'.group.isOpen = true
  parts : v'.group.parts = hs.map fun h => (h, if h ∈ done then stagedUnder (v.files h) else (v.files h).head)
  rows : ∀ h ∈ hs, v'.store.dbs (v.files h).name =
    if h ∈ done then stagedRows (v.files h) (v.store.dbs (v.files h).name) else v.store.dbs (v.files h).name
  others : ∀ n, (∀ h ∈ hs, (v.files h).name ≠ n) → v'.store.dbs n = v.store.dbs n
  few : ∀ h ∈ hs, h ∈ done → (v.files h).dirty.length ≤ oneTxnPages
  records : v'.store.records = v.store.records
  decided : Decided v'.attempts
  reads : v'.reads = v.reads

section Syncs

variable {hs done : List Nat} {v v₁ : Vfs P} {h : Nat}

theorem Syncing.unrecorded (joined : Joined hs v) (syncing : Syncing hs v done v₁) : Unrecorded hs v v₁ := by
  refine ⟨?_, syncing.others, syncing.records, syncing.decided, syncing.reads ▸ joined.whole⟩
  intro h mem
  rw [syncing.rows h mem]
  split
  · exact Or.inr rfl
  · exact Or.inl rfl

theorem Joined.start (joined : Joined hs v) : Syncing hs v [] v := by
  refine ⟨rfl, rfl, joined.isOpen, ?_, fun h _ => ?_, fun _ _ => rfl, fun h _ none => (by cases none), rfl,
    joined.decided, rfl⟩
  · rw [joined.parts]
    rfl
  · rfl

theorem Joined.same (joined : Joined hs v) {i j : Nat} (first : i ∈ hs) (second : j ∈ hs)
    (same : (v.files i).name = (v.files j).name) : i = j := by
  have symm : Std.Symm fun i j => (v.files i).name ≠ (v.files j).name := ⟨fun _ _ => Ne.symm⟩
  apply Classical.byContradiction
  intro other
  exact joined.apart.forall first second other same

/-- Whether a file has staged or not, its fence is in the rows, and staging leaves the same rows. -/
theorem Syncing.stage (joined : Joined hs v) (syncing : Syncing hs v done v₁) (mem : h ∈ hs) :
    (v₁.store.dbs (v.files h).name).fence = some (v.files h).fence ∧
      stagedRows (v.files h) (v₁.store.dbs (v.files h).name) =
        stagedRows (v.files h) (v.store.dbs (v.files h).name) := by
  have owns := joined.owns h mem
  rw [syncing.rows h mem]
  split
  · exact ⟨(owns.synced.staged owns.sane).fence, stagedRows_twice owns.synced⟩
  · exact ⟨owns.synced.fence, rfl⟩

/-- One more file has staged. -/
theorem Syncing.next (joined : Joined hs v) (syncing : Syncing hs v done v₁) (mem : h ∈ hs) {v₂ : Vfs P}
    (files : v₂.files = v₁.files) (group : v₂.group = { v₁.group with
      parts := v₁.group.parts.map fun part => if part.1 = h then (h, stagedUnder (v.files h)) else part })
    (store : Elsewhere (v.files h).name v₁.store v₂.store)
    (rows : v₂.store.dbs (v.files h).name = stagedRows (v.files h) (v.store.dbs (v.files h).name))
    (few : (v.files h).dirty.length ≤ oneTxnPages) (decided : Decided v₂.attempts) (reads : v₂.reads = v₁.reads) :
    Syncing hs v (h :: done) v₂ := by
  refine ⟨files.trans syncing.files, by rw [group, syncing.txnid], by rw [group, syncing.isOpen], ?_, ?_, ?_, ?_,
    store.records.trans syncing.records, decided, reads.trans syncing.reads⟩
  · rw [group]
    dsimp only
    rw [syncing.parts, List.map_map]
    apply List.map_congr_left
    intro i _
    dsimp only [Function.comp]
    by_cases here : i = h
    · rw [if_pos here, here, if_pos List.mem_cons_self]
    · have still : i ∈ h :: done ↔ i ∈ done := by simp [here]
      rw [if_neg here]
      simp only [still]
  · intro i there
    by_cases here : i = h
    · rw [here, rows, if_pos List.mem_cons_self]
    · have other : (v.files i).name ≠ (v.files h).name := fun same => here (joined.same there mem same)
      have still : i ∈ h :: done ↔ i ∈ done := by simp [here]
      rw [store.dbs _ other, syncing.rows i there]
      simp only [still]
  · intro n outside
    rw [store.dbs n (Ne.symm (outside h mem))]
    exact syncing.others n outside
  · intro i there staged
    rcases List.mem_cons.mp staged with rfl | earlier
    · exact few
    · exact syncing.few i there earlier

/-- A file that has nothing to send stands where it joined. -/
theorem Syncing.idle (joined : Joined hs v) (syncing : Syncing hs v done v₁) (mem : h ∈ hs)
    (clean : (v.files h).dirty = []) : Syncing hs v (h :: done) v₁ := by
  have nothing : ¬ 0 < (v.files h).dirty.length := by
    rw [clean]
    exact Nat.lt_irrefl 0
  have under : stagedUnder (v.files h) = (v.files h).head := if_neg nothing
  have parts : (v₁.group.parts.map fun part => if part.1 = h then (h, stagedUnder (v.files h)) else part) =
      v₁.group.parts := by
    rw [syncing.parts, List.map_map]
    apply List.map_congr_left
    intro i _
    dsimp only [Function.comp]
    by_cases here : i = h
    · rw [if_pos here, here, under, ite_self]
    · rw [if_neg here]
  apply syncing.next joined mem rfl _ (Elsewhere.refl _ _) _ _ syncing.decided rfl
  · rw [parts]
  · rw [syncing.rows h mem, stagedRows_none nothing, ite_self]
  · rw [clean]
    exact Nat.zero_le _

/-- The pages of a file of the group are sent, if there are any. -/
theorem ends_stagePages (joined : Joined hs v) (syncing : Syncing hs v done v₁) (mem : h ∈ hs) :
    Ends (stagePages (v.files h))
      (fun _ v' => Beside v₁ v' ∧ Elsewhere (v.files h).name v₁.store v'.store ∧
        v'.store.dbs (v.files h).name = stagedRows (v.files h) (v.store.dbs (v.files h).name))
      (Unrecorded hs v) (Unrecorded hs v) v₁ := by
  obtain ⟨own, again⟩ := syncing.stage joined mem
  have sorted := (joined.owns h mem).synced.sorted
  have before := syncing.unrecorded joined
  have unsent : ∀ {v'}, Beside v₁ v' → v'.store = v₁.store → Unrecorded hs v v' := fun beside store =>
    ⟨store ▸ before.rows, store ▸ before.others, store ▸ before.records, beside.decided,
      beside.reads ▸ before.whole⟩
  apply (ends_stageBuffer syncing.decided own sorted).mono
  · rintro _ v₂ ⟨beside, elsewhere, rows⟩
    exact ⟨beside, elsewhere, rows.trans again⟩
  · rintro v₂ ⟨beside, store⟩
    exact unsent beside store
  · rintro v₂ ⟨beside, store | ⟨elsewhere, rows⟩⟩
    · exact unsent beside store
    · refine ⟨?_, ?_, elsewhere.records.trans before.records, beside.decided, beside.reads ▸ before.whole⟩
      · intro i there
        by_cases here : i = h
        · rw [here]
          exact Or.inr (rows.trans again)
        · have other : (v.files i).name ≠ (v.files h).name := fun same => here (joined.same there mem same)
          rw [elsewhere.dbs _ other]
          exact before.rows i there
      · intro n outside
        rw [elsewhere.dbs n (Ne.symm (outside h mem))]
        exact before.others n outside

/-- A sync of a file of the group stages its buffer. -/
theorem ends_groupFlush (joined : Joined hs v) (syncing : Syncing hs v done v₁) (mem : h ∈ hs) :
    Ends (flush h) (fun _ => Syncing hs v (h :: done)) (Unrecorded hs v) (Unrecorded hs v) v₁ := by
  have file : v₁.files h = v.files h := by rw [syncing.files]
  unfold flush fileOf
  apply Ends.bind
  rw [Ends.read_iff, file]
  apply Ends.ite
  · rintro ⟨empty, -, -⟩
    exact syncing.idle joined mem (List.length_eq_zero_iff.mp empty)
  · intro _
    apply Ends.ite
    · intro _
      unfold txnStageHere fileOf
      apply Ends.bind
      rw [Ends.read_iff, file]
      apply Ends.ite
      · intro _
        have before := syncing.unrecorded joined
        exact ⟨before.rows, before.others, before.records, before.decided, before.whole⟩
      · intro few
        apply (ends_stagePages joined syncing mem).andThen _ (fun _ h => h) fun _ h => h
        rintro _ v₂ ⟨beside, elsewhere, rows⟩
        apply Ends.bind
        rw [Ends.read_iff]
        apply Ends.ite
        · intro _
          have group : v₂.group = v₁.group := beside.group
          rw [Ends.modify_iff]
          exact syncing.next joined mem beside.files (by rw [group]) elsewhere rows (Nat.not_lt.mp few)
            beside.decided beside.reads
        · intro absent
          have there : v₂.group.parts.any (fun part => part.1 = h) = true := by
            rw [beside.group, syncing.parts]
            apply List.any_eq_true.mpr
            exact ⟨_, List.mem_map_of_mem mem, decide_eq_true rfl⟩
          exact absurd there absent
    · intro single
      exact absurd (joined.member h mem) single

/-- The files of a group are synced, in any order and as often as one likes. -/
theorem ends_syncs (joined : Joined hs v) {syncs : List Nat} (within : ∀ h ∈ syncs, h ∈ hs) :
    Ends (Action.forEach syncs flush) (fun _ v' => ∃ done, (∀ h ∈ syncs, h ∈ done) ∧ Syncing hs v done v')
      (Unrecorded hs v) (Unrecorded hs v) v := by
  let I : List Nat → Vfs P → Prop := fun rest v' =>
    (∀ h ∈ rest, h ∈ hs) ∧ ∃ done, (∀ h ∈ syncs, h ∈ rest ∨ h ∈ done) ∧ Syncing hs v done v'
  have start : I syncs v := ⟨within, [], fun h mem => Or.inl mem, joined.start⟩
  apply (Ends.forEach start _).mono _ (fun _ h => h) fun _ h => h
  · rintro h rest v₁ ⟨inside, done, all, syncing⟩
    apply (ends_groupFlush joined syncing (inside h List.mem_cons_self)).mono _ (fun _ h => h) fun _ h => h
    intro _ v₂ next
    refine ⟨fun i mem => inside i (List.mem_cons_of_mem _ mem), h :: done, ?_, next⟩
    intro i mem
    rcases all i mem with left | earlier
    · rcases List.mem_cons.mp left with rfl | later
      · exact Or.inr List.mem_cons_self
      · exact Or.inl later
    · exact Or.inr (List.mem_cons_of_mem _ earlier)
  · rintro _ v' ⟨-, done, all, syncing⟩
    exact ⟨done, fun h mem => (all h mem).resolve_left fun none => (by cases none), syncing⟩

/-- The group is ready to be committed once every file of it has staged. -/
theorem Syncing.participants (syncing : Syncing hs v done v₁) (all : ∀ h ∈ hs, h ∈ done) :
    v₁.participants = hs.map fun h =>
      { file := v.files h
        rows := stagedRows (v.files h) (v.store.dbs (v.files h).name)
        txid := stagedUnder (v.files h) } := by
  unfold Vfs.participants
  rw [syncing.parts, List.map_map]
  apply List.map_congr_left
  intro h mem
  have rows := syncing.rows h mem
  rw [if_pos (all h mem)] at rows
  dsimp only [Function.comp, Vfs.participant]
  rw [syncing.files, rows, if_pos (all h mem)]

theorem Syncing.mem_participants (syncing : Syncing hs v done v₁) (all : ∀ h ∈ hs, h ∈ done) (mem : h ∈ hs) :
    { file := v.files h
      rows := stagedRows (v.files h) (v.store.dbs (v.files h).name)
      txid := stagedUnder (v.files h) } ∈ v₁.participants := by
  rw [syncing.participants all]
  exact List.mem_map.mpr ⟨h, mem, rfl⟩

theorem Syncing.offered (joined : Joined hs v) (syncing : Syncing hs v done v₁) (all : ∀ h ∈ hs, h ∈ done) :
    ∀ p ∈ v₁.participants, p.Offered ∧ p.file.truncPages = none := by
  rw [syncing.participants all]
  intro p there
  obtain ⟨h, mem, rfl⟩ := List.mem_map.mp there
  have owns := joined.owns h mem
  exact ⟨offered_participant owns.synced owns.sane (syncing.few h mem (all h mem)) (joined.covered h mem) rfl,
    joined.uncut h mem⟩

theorem Syncing.assembled (joined : Joined hs v) (syncing : Syncing hs v done v₁) (all : ∀ h ∈ hs, h ∈ done) :
    Assembled v₁ where
  isOpen := syncing.isOpen
  fellows := by
    have offered := syncing.offered joined all
    refine ⟨fun p there => (offered p there).1.staged (offered p there).2, ?_, ?_⟩
    · rw [syncing.participants all]
      exact List.pairwise_map.mpr joined.apart
    · rw [syncing.participants all, List.length_map]
      exact joined.few
  offered := fun p there => (syncing.offered joined all p there).1
  fresh := by
    rw [syncing.records, syncing.txnid]
    exact joined.fresh
  decided := syncing.decided
  whole := syncing.reads ▸ joined.whole

/-- Nothing else is staging while the files of a group are synced. -/
theorem Syncing.only (joined : Joined hs v) (syncing : Syncing hs v done v₁) :
    OnlyGroup v₁.group.txnid v₁.store := by
  intro t _ mem
  rw [settled_of_records syncing.records joined.settled] at mem
  cases mem

/-- The record of the group has been written, with every file staged. -/
def OnRecord (hs : List Nat) (v v' : Vfs P) : Prop :=
  ∃ done v₁, Syncing hs v done v₁ ∧ (∀ h ∈ hs, h ∈ done) ∧
    Recorded v₁.group.txnid v₁.participants v₁.store v'

/-- A group that is given up leaves the rows alone. -/
theorem ends_weftTxnAbort (before : Unrecorded hs v v₁) (txnid : Nat) :
    Ends (weftTxnAbort txnid) (fun _ => Unrecorded hs v) (Unrecorded hs v) (Unrecorded hs v) v₁ := by
  unfold weftTxnAbort
  apply Ends.bind
  rw [Ends.read_iff]
  apply Ends.ite
  · exact fun _ => ⟨before.rows, before.others, before.records, before.decided, before.whole⟩
  · exact fun _ => ⟨before.rows, before.others, before.records, before.decided, before.whole⟩

/-- Either the record of the group is written, with every file staged, or it is not. -/
theorem ends_syncAndCommit (joined : Joined hs v) {syncs : List Nat} (all : ∀ h, h ∈ syncs ↔ h ∈ hs) :
    Ends (syncAndCommit v.group.txnid syncs) (fun _ => OnRecord hs v) (Unrecorded hs v)
      (fun v' => Unrecorded hs v v' ∨ OnRecord hs v v') v := by
  unfold syncAndCommit
  apply Ends.bind
  apply Ends.attempt
  apply (ends_syncs joined fun h mem => (all h).mp mem).mono
  · rintro _ v₁ ⟨done, synced, syncing⟩
    have staged : ∀ h ∈ hs, h ∈ done := fun h mem => synced h ((all h).mpr mem)
    have before := syncing.unrecorded joined
    have unwritten : ∀ {v'}, Unwritten v₁ v' → Unrecorded hs v v' := fun unwritten =>
      ⟨unwritten.store ▸ before.rows, unwritten.store ▸ before.others, unwritten.store ▸ before.records,
        unwritten.decided, unwritten.whole⟩
    rw [← syncing.txnid]
    apply (ends_weftTxnCommit (syncing.assembled joined staged)).mono
    · exact fun _ v' recorded => ⟨done, v₁, syncing, staged, recorded⟩
    · exact fun v' kept => unwritten kept
    · rintro v' (kept | recorded)
      · exact Or.inl (unwritten kept)
      · exact Or.inr ⟨done, v₁, syncing, staged, recorded⟩
  · intro v₁ before
    apply (ends_weftTxnAbort before v.group.txnid).andThen
    · exact fun _ v' kept => kept
    · exact fun v' kept => kept
    · exact fun v' kept => Or.inl kept
  · exact fun v' before => Or.inl before

/-! ### All of them or none -/

/-- Every file has what it had. -/
def AllOld (hs : List Nat) (v v' : Vfs P) : Prop :=
  ∀ h ∈ hs, Holds (v'.store.dbs (v.files h).name) (image (v.store.dbs (v.files h).name)) (v.files h).sentSize

/-- Every file has what its handle read. -/
def AllNew (hs : List Nat) (v v' : Vfs P) : Prop :=
  ∀ h ∈ hs, Holds (v'.store.dbs (v.files h).name) (view (v.files h) (v.store.dbs (v.files h).name))
    (v.files h).size

theorem Unrecorded.old (joined : Joined hs v) (before : Unrecorded hs v v₁) : AllOld hs v v₁ := by
  intro h mem
  have owns := joined.owns h mem
  rcases before.rows h mem with same | staged
  · rw [same]
    exact ⟨fun _ => rfl, owns.synced.size⟩
  · rw [staged]
    exact ⟨image_stagedRows owns.synced owns.sane, by rw [size_stagedRows, owns.synced.size]⟩

/-- Where no record was written there is nothing for a recovery to do. -/
theorem Unrecorded.recovers (joined : Joined hs v) (before : Unrecorded hs v v₁) :
    Ends weftTxnRecover (fun _ => Unrecorded hs v) (Unrecorded hs v) (Unrecorded hs v) v₁ := by
  have asked : ∀ {v'}, Asked v₁ v' → Unrecorded hs v v' := fun asked =>
    ⟨asked.store ▸ before.rows, asked.store ▸ before.others, asked.store ▸ before.records,
      asked.attempts ▸ before.decided, before.whole.suffix asked.reads⟩
  apply (ends_weftTxnRecover (settled_of_records before.records joined.settled)).mono
  · exact fun _ _ h => asked h
  · exact fun _ h => asked h
  · exact fun _ h => h.elim

theorem Unrecorded.survives (joined : Joined hs v) (before : Unrecorded hs v v₁) {w : Vfs P}
    (later : Recoveries v₁ w) : Unrecorded hs v w := by
  induction later with
  | refl => exact before
  | tail _ step ih =>
      obtain ⟨o, ran⟩ := step
      have ends := ih.recovers joined
      cases o with
      | ret done => exact ends.ret ran
      | fail => exact ends.err ran
      | halt => exact ends.died ran

/-- A recovery that comes back after the record was written has moved every head. -/
theorem OnRecord.new (joined : Joined hs v) (written : OnRecord hs v v₁) {w v' : Vfs P} (later : Recoveries v₁ w)
    (last : weftTxnRecover w = (.ret (), v')) :
    AllNew hs v v' ∧ ∀ n, (∀ h ∈ hs, (v.files h).name ≠ n) → v'.store.dbs n = v.store.dbs n := by
  obtain ⟨done, v₀, syncing, all, recorded⟩ := written
  have assembled := syncing.assembled joined all
  have only := syncing.only joined
  have still := recorded.survives assembled.fellows assembled.offered only later
  obtain ⟨recovered, ended⟩ := (still.recovers assembled.fellows assembled.offered only).ret last
  constructor
  · intro h mem
    have owns := joined.owns h mem
    have there := syncing.mem_participants all mem
    have holds := (assembled.fellows.staged _ there).after (joined.grown h mem) (ended.done _ there)
    exact ⟨fun q => (holds.pages q).trans
      (merged_stagedRows owns.synced owns.sane (joined.uncut h mem) q), holds.size⟩
  · intro n outside
    rw [recovered.grouped.others n, syncing.others n outside]
    rw [syncing.participants all]
    intro p there
    obtain ⟨h, mem, rfl⟩ := List.mem_map.mp there
    exact outside h mem

end Syncs

/-- Files that joined a group are synced in any order and as often as one likes, and the group is committed, or given
up because a sync failed.  The process may stop anywhere, and so may any number of recoveries after it.  Once a
recovery comes back, all of the files have what was written or none of them has: all when the commit returned, and
none when it failed.  No other database has changed. -/
theorem group_commit_is_atomic {hs syncs : List Nat} {v v' w v'' : Vfs P} {o : Lib.Result Unit}
    (joined : Joined hs v) (all : ∀ h, h ∈ syncs ↔ h ∈ hs)
    (ran : syncAndCommit v.group.txnid syncs v = (o, v')) (later : Recoveries v' w)
    (last : weftTxnRecover w = (.ret (), v'')) :
    (AllOld hs v v'' ∨ AllNew hs v v'') ∧ (o = .ret () → AllNew hs v v'') ∧ (o = .fail → AllOld hs v v'') ∧
      ∀ n, (∀ h ∈ hs, (v.files h).name ≠ n) → v''.store.dbs n = v.store.dbs n := by
  have ends := ends_syncAndCommit joined all
  have new : OnRecord hs v v' → AllNew hs v v'' ∧ ∀ n, (∀ h ∈ hs, (v.files h).name ≠ n) →
      v''.store.dbs n = v.store.dbs n := fun written => written.new joined later last
  have old : Unrecorded hs v v' → AllOld hs v v'' ∧ ∀ n, (∀ h ∈ hs, (v.files h).name ≠ n) →
      v''.store.dbs n = v.store.dbs n := by
    intro before
    have kept := ((before.survives joined later).recovers joined).ret last
    exact ⟨kept.old joined, kept.others⟩
  cases o with
  | ret done =>
      obtain ⟨fresh, others⟩ := new (ends.ret ran)
      exact ⟨Or.inr fresh, fun _ => fresh, fun no => (by cases no), others⟩
  | fail =>
      obtain ⟨still, others⟩ := old (ends.err ran)
      exact ⟨Or.inl still, fun no => (by cases no), fun _ => still, others⟩
  | halt =>
      rcases ends.died ran with before | written
      · obtain ⟨still, others⟩ := old before
        exact ⟨Or.inl still, fun no => (by cases no), fun no => (by cases no), others⟩
      · obtain ⟨fresh, others⟩ := new written
        exact ⟨Or.inr fresh, fun no => (by cases no), fun no => (by cases no), others⟩

def attic : DbName := ⟨[0x78], by decide, by decide, by decide, by decide⟩

/-- Two files that have joined a group and written a page each. -/
def pair (attempts : List Attempt) : Vfs Nat where
  store := { dbs := fun _ => { fence := some 1 }, next := some 7 }
  attempts
  files := fun i =>
    { name := if i = 0 then world else attic
      fence := 1
      groupTxnid := 7
      size := pageSize
      dirty := [(0, i + 5)] }
  group := { txnid := 7, parts := [(0, 0), (1, 0)], isOpen := true }

theorem joined_pair {attempts : List Attempt} (decided : Decided attempts) : Joined [0, 1] (pair attempts) where
  isOpen := rfl
  parts := rfl
  owns := fun h _ =>
    ⟨⟨rfl, rfl, rfl, rfl, rfl, window_empty _ rfl, List.pairwise_singleton _ _⟩, sane_fenced _, decided,
      fun _ none => (by cases none)⟩
  member := fun _ _ none => (by cases none)
  uncut := fun _ _ => rfl
  grown := fun _ _ none => (by cases none)
  covered := fun _ _ _ _ none => (by cases none)
  apart := by simp [pair, world, attic]
  few := by decide
  fresh := rfl
  settled := rfl
  decided := decided
  whole := fun _ none => (by cases none)

/-- The process stops when the record is written, and so does the first recovery when it has moved a head. -/
def stopping : List Attempt := [.lands, .again, .lands, .lands, .unknown, .dies, .lands, .dies]

def stoppedOnce : Vfs Nat := (syncAndCommit 7 [0, 1, 0] (pair stopping)).2

def stoppedTwice : Vfs Nat := (weftTxnRecover stoppedOnce).2

def broughtBack : Vfs Nat := (weftTxnRecover stoppedTwice).2

/-- What an action does, from its outcome and the state after it. -/
theorem ran {S A : Type} {f : Action S A} {s s' : S} {o : Lib.Result A} (outcome : (f s).1 = o)
    (state : (f s).2 = s') : f s = (o, s') :=
  Prod.ext outcome state

theorem decided_stopping : Decided stopping := ⟨trivial, trivial⟩

theorem pair_stops : syncAndCommit 7 [0, 1, 0] (pair stopping) = (.halt, stoppedOnce) :=
  ran (by decide +kernel) rfl

theorem recovery_stops : weftTxnRecover stoppedOnce = (.halt, stoppedTwice) :=
  ran (by decide +kernel) rfl

theorem recovery_comes_back : weftTxnRecover stoppedTwice = (.ret (), broughtBack) :=
  ran (by decide +kernel) rfl

theorem stopped_pair_is_whole : AllOld [0, 1] (pair stopping) broughtBack ∨
    AllNew [0, 1] (pair stopping) broughtBack := by
  have all : ∀ h, h ∈ [0, 1, 0] ↔ h ∈ [0, 1] := by
    intro h
    simp only [List.mem_cons, List.not_mem_nil, or_false]
    omega
  have later : Recoveries stoppedOnce stoppedTwice := .single ⟨.halt, recovery_stops⟩
  exact (group_commit_is_atomic (joined_pair decided_stopping) all pair_stops later recovery_comes_back).1

end GyreWard.Fdb
