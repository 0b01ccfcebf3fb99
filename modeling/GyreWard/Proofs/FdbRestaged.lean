/-
Module: GyreWard.Proofs.FdbRestaged
Purpose: What becomes of a file that is staged for one group while the record of an earlier one still has its head to
  move: both stage under the commit after the head, and the earlier record commits what the later group wrote.
Trusted boundary: none
Main exports: LeftOver, LeftOver.recovers, Recorded.leftOver, a_commit_leaves_what_it_could_not_resolve, ends_restage,
  a_given_up_group_is_committed_by_an_earlier_one
-/
import GyreWard.Proofs.FdbGroupLosses

namespace GyreWard.Fdb

open Lib
open Lib.Action (Ends)

variable {P : Type}

/-! ### A record that was left -/

/-- The participant that a recovery finishes when it is told of every page that is staged. -/
def Participant.whole (p : Participant P) : Participant P := p.told (p.rows.delta p.txid).rows.length

theorem Participant.toldPages_whole {p : Participant P} (above : p.file.head < p.txid) :
    p.toldPages (p.rows.delta p.txid).rows.length = (p.rows.delta p.txid).rows := by
  unfold Participant.toldPages
  rw [if_pos above, List.take_length]

theorem Participant.Intended.whole {p : Participant P} (intended : p.Intended) : p.whole.Offered where
  synced := (intended.told _).synced
  sane := intended.sane
  either := by
    by_cases above : p.file.head < p.txid
    · have pages : p.whole.file.dirty = (p.rows.delta p.txid).rows := Participant.toldPages_whole above
      obtain ⟨some, short⟩ := intended.pages above
      rcases intended.either with ⟨next, _⟩ | same
      · refine Or.inl ⟨next, ?_, ?_, pages.symm⟩
        · rw [pages]
          exact some
        · rw [pages]
          exact short
      · exact absurd same (Nat.ne_of_gt above)
    · rcases intended.either with ⟨next, _⟩ | same
      · exact absurd (next ▸ Nat.lt_succ_self _) above
      · exact Or.inr ⟨same, if_neg above⟩

/-- The pages of a file whose head stands where the record gives it. -/
def Participant.recordedPages (p : Participant P) (q : Nat) : Option P :=
  if p.file.head < p.txid then ((p.rows.delta p.txid).get q).or (image p.rows q) else image p.rows q

def Participant.recordedSize (p : Participant P) : Nat :=
  if p.file.head < p.txid then p.file.size else p.file.sentSize

theorem Participant.Intended.holds {p : Participant P} {db : Db P} (intended : p.Intended) (done : p.whole.Done db) :
    Holds db p.recordedPages p.recordedSize := by
  have holds := intended.recovered done
  refine ⟨fun q => (holds.pages q).trans ?_, holds.size⟩
  unfold Participant.recordedPages
  by_cases above : p.file.head < p.txid
  · rw [if_pos above, Participant.toldPages_whole above]
    rfl
  · have none : p.toldPages (p.rows.delta p.txid).rows.length = [] := if_neg above
    rw [if_neg above, none]
    rfl

/-- The record of a group that committed still says that it is staging, no other does, and each of its files has
pages under the commit that the record gives it, or has its head there. -/
structure LeftOver (txnid : Nat) (ps : List (Participant P)) (v : Vfs P) : Prop where
  staging : Staging txnid ps v.store
  only : OnlyGroup txnid v.store
  intended : ∀ p ∈ ps, p.Intended
  pending : ∀ p ∈ ps, p.Pending (v.store.dbs p.name)
  apart : ps.Pairwise fun p q => p.name ≠ q.name
  few : ps.length ≤ txnMaxParts
  decided : Decided v.attempts
  whole : WholeReads v.reads

section Recovering

variable {txnid : Nat} {ps : List (Participant P)} {v v' w : Vfs P}

theorem LeftOver.fellows (left : LeftOver txnid ps v) : Fellows (ps.map Participant.whole) := by
  refine ⟨?_, List.pairwise_map.mpr left.apart, ?_⟩
  · intro p' there
    obtain ⟨p, mem, rfl⟩ := List.mem_map.mp there
    exact (left.intended p mem).told _
  · rw [List.length_map]
    exact left.few

theorem LeftOver.recorded (left : LeftOver txnid ps v) :
    Recorded txnid (ps.map Participant.whole) v.store v := by
  refine ⟨⟨fun _ _ => rfl, ?_, fun _ _ => rfl⟩, Or.inl ?_, left.decided, left.whole⟩
  · intro p' there
    obtain ⟨p, mem, rfl⟩ := List.mem_map.mp there
    exact Or.inl (left.pending p mem)
  · unfold Staging
    rw [shares_map Participant.whole (fun _ => rfl) fun _ => rfl]
    exact left.staging

/-- However many recoveries stop or fail, one that comes back has moved every head to where the record gives it, and
touched nothing else. -/
theorem LeftOver.recovers (left : LeftOver txnid ps v) (later : Recoveries v w)
    (last : weftTxnRecover w = (.ret (), v')) :
    (∀ p ∈ ps, Holds (v'.store.dbs p.name) p.recordedPages p.recordedSize) ∧
      ∀ n, (∀ p ∈ ps, p.name ≠ n) → v'.store.dbs n = v.store.dbs n := by
  have offered : ∀ p ∈ ps.map Participant.whole, p.Offered := by
    intro p' there
    obtain ⟨p, mem, rfl⟩ := List.mem_map.mp there
    exact (left.intended p mem).whole
  have still := left.recorded.survives left.fellows offered left.only later
  obtain ⟨recovered, ended⟩ := (still.recovers left.fellows offered left.only).ret last
  constructor
  · exact fun p mem => (left.intended p mem).holds (ended.done _ (List.mem_map_of_mem mem))
  · intro n outside
    apply recovered.grouped.others n
    intro p' there
    obtain ⟨p, mem, rfl⟩ := List.mem_map.mp there
    exact outside p mem

end Recovering

/-! ### Where such a record comes from -/

/-- A participant of a group that committed as its rows are found: with its head moved, or as it was. -/
def Participant.found (db : Db P) (p : Participant P) : Participant P :=
  if headOf db = p.file.head then { p with rows := db }
  else { p with rows := db, file := { committed p.txid p.file with logPages := db.logn.getD 0 } }

section Found

variable {p : Participant P} {db : Db P}

theorem Participant.found_name : (p.found db).name = p.name := by
  unfold Participant.found
  split <;> rfl

theorem Participant.found_part : (p.found db).part = p.part := by
  unfold Participant.found
  split <;> rfl

theorem Participant.found_rows : (p.found db).rows = db := by
  unfold Participant.found
  split <;> rfl

theorem Participant.Offered.intended (offered : p.Offered) : p.Intended where
  synced := offered.synced
  sane := offered.sane
  either := by
    rcases offered.either with ⟨next, some, short, rows⟩ | ⟨same, -⟩
    · rw [← rows] at some short
      exact Or.inl ⟨next, some, short⟩
    · exact Or.inr same

/-- What a participant that is staged leaves on record is what its handle read. -/
theorem Participant.Offered.recorded (offered : p.Offered) (uncut : p.file.truncPages = none)
    (grown : p.file.dirty = [] → p.file.size = p.file.sentSize) :
    (∀ q, p.recordedPages q = merged p.file p.rows q) ∧ p.recordedSize = p.file.size := by
  unfold Participant.recordedPages Participant.recordedSize
  by_cases above : p.file.head < p.txid
  · have rows := (offered.wrote above).2.2
    rw [if_pos above]
    refine ⟨fun q => ?_, rfl⟩
    have kept : ¬ Dropped p.file q := by simp [Dropped, uncut]
    rw [if_pos above, merged, if_neg kept]
    unfold Table.get
    rw [rows]
    rfl
  · have clean := offered.idle (Nat.le_of_not_lt above)
    rw [if_neg above]
    refine ⟨fun q => ?_, (grown clean).symm⟩
    rw [if_neg above, merged_clean clean uncut]

/-- The rows of a participant of a committed group, whether its head has moved or not, hold what its handle read, or
have it to come. -/
theorem Participant.Offered.found (offered : p.Offered) (uncut : p.file.truncPages = none)
    (grown : p.file.dirty = [] → p.file.size = p.file.sentSize) (either : p.Pending db ∨ p.Done db) :
    (p.found db).Intended ∧ (∀ q, (p.found db).recordedPages q = merged p.file p.rows q) ∧
      (p.found db).recordedSize = p.file.size := by
  have staged := offered.staged uncut
  have still : db = p.rows → p.found db = p := by
    rintro rfl
    exact if_pos staged.synced.head
  rcases either with pending | done
  · rw [still pending]
    exact ⟨offered.intended, offered.recorded uncut grown⟩
  · have holds := staged.after grown done
    unfold Participant.Done at done
    by_cases within : p.txid ≤ p.file.head
    · rw [if_pos within] at done
      rw [still done]
      exact ⟨offered.intended, offered.recorded uncut grown⟩
    · rw [if_neg within] at done
      obtain ⟨logn, same⟩ := done
      have above : p.file.head < p.txid := Nat.lt_of_not_le within
      have fresh := staged.fresh above
      have head : headOf db = p.txid := by rw [same]; rfl
      have moved : p.found db =
          { p with rows := db, file := { committed p.txid p.file with logPages := db.logn.getD 0 } } :=
        if_neg (by rw [head]; exact Nat.ne_of_gt above)
      have synced : Synced (committed p.txid p.file)
          (putHead p.file p.txid (withPages p.txid (p.rows.delta p.txid) p.rows)) :=
        staged.synced.committed staged.sane fresh
      have sane := staged.sane.putHead staged.sorted fresh (staged.landed above)
      rw [withPages_same] at synced
      rw [moved]
      refine ⟨⟨?_, ?_, Or.inr rfl⟩, ?_, ?_⟩
      · obtain ⟨fence, head, size, newest, -, window, sorted⟩ := synced
        rw [same]
        exact ⟨fence, head, size, newest, rfl, window, sorted⟩
      · obtain ⟨owner, marker, newer, above, draft⟩ := sane
        rw [same]
        exact ⟨owner, marker, newer, above, draft⟩
      · intro q
        exact (if_neg (Nat.lt_irrefl _)).trans (holds.pages q)
      · exact if_neg (Nat.lt_irrefl _)

end Found

/-- The participants of a group as a recovery finds them. -/
def foundOf (s : Store P) (ps : List (Participant P)) : List (Participant P) :=
  ps.map fun p => p.found (s.dbs p.name)

/-- A group that is committed and whose record still says that it is staging has left such a record. -/
theorem Recorded.leftOver {txnid : Nat} {ps : List (Participant P)} {s₀ : Store P} {v : Vfs P}
    (fellows : Fellows ps) (offered : ∀ p ∈ ps, p.Offered)
    (grown : ∀ p ∈ ps, p.file.dirty = [] → p.file.size = p.file.sentSize)
    (recorded : Recorded txnid ps s₀ v) (only : OnlyGroup txnid s₀) (staging : stagingRecords v.store ≠ []) :
    LeftOver txnid (foundOf v.store ps) v := by
  rcases recorded.sweep only with ⟨record, one⟩ | ⟨-, none⟩
  case inr => exact absurd none staging
  refine ⟨?_, ?_, ?_, ?_, ?_, ?_, recorded.decided, recorded.whole⟩
  · unfold Staging
    rw [foundOf, shares_map _ (fun _ => Participant.found_name) fun _ => Participant.found_part]
    exact record
  · intro t other mem
    rw [one] at mem
    exact other (List.mem_singleton.mp mem)
  · intro p' there
    obtain ⟨p, mem, rfl⟩ := List.mem_map.mp there
    exact ((offered p mem).found (fellows.staged p mem).uncut (grown p mem) (recorded.grouped.each p mem)).1
  · intro p' there
    obtain ⟨p, mem, rfl⟩ := List.mem_map.mp there
    unfold Participant.Pending
    rw [Participant.found_name, Participant.found_rows]
  · apply List.pairwise_map.mpr
    simp only [Participant.found_name]
    exact fellows.apart
  · rw [foundOf, List.length_map]
    exact fellows.few

/-- When the files of a group have been synced and the commit has returned, with the record still staging because a
head could not be moved, the record holds of every file what its handle read. -/
theorem a_commit_leaves_what_it_could_not_resolve {hs syncs : List Nat} {v v' : Vfs P} (joined : Joined hs v)
    (every : ∀ h, h ∈ syncs ↔ h ∈ hs) (ran : syncAndCommit v.group.txnid syncs v = (.ret (), v'))
    (staging : stagingRecords v'.store ≠ []) :
    ∃ ps, LeftOver v.group.txnid ps v' ∧ ∀ h ∈ hs, ∃ p ∈ ps, p.name = (v.files h).name ∧
      (∀ q, p.recordedPages q = view (v.files h) (v.store.dbs (v.files h).name) q) ∧
        p.recordedSize = (v.files h).size := by
  obtain ⟨done, v₀, syncing, all, recorded⟩ := (ends_syncAndCommit joined every).ret ran
  have assembled := syncing.assembled joined all
  have grown : ∀ p ∈ v₀.participants, p.file.dirty = [] → p.file.size = p.file.sentSize := by
    rw [syncing.participants all]
    intro p there
    obtain ⟨h, mem, rfl⟩ := List.mem_map.mp there
    exact joined.grown h mem
  refine ⟨foundOf v'.store v₀.participants, ?_, ?_⟩
  · rw [← syncing.txnid]
    exact recorded.leftOver assembled.fellows assembled.offered grown (syncing.only joined) staging
  · intro h mem
    have owns := joined.owns h mem
    have there := syncing.mem_participants all mem
    obtain ⟨-, pages, size⟩ := (assembled.offered _ there).found (joined.uncut h mem) (joined.grown h mem)
      (recorded.grouped.each _ there)
    refine ⟨_, List.mem_map_of_mem there, Participant.found_name, fun q => ?_, size⟩
    exact (pages q).trans (merged_stagedRows owns.synced owns.sane (joined.uncut h mem) q)

/-! ### The next group -/

/-- What a participant is once its file has staged again. -/
def Participant.restage (f : FdbFile P) (p : Participant P) : Participant P :=
  if p.name = f.name then { p with rows := stagedRows f p.rows } else p

section Restaging

variable {txnid h : Nat} {ps : List (Participant P)} {v v' : Vfs P} {p : Participant P} {f : FdbFile P}

theorem Participant.restage_name : (p.restage f).name = p.name := by
  unfold Participant.restage
  split <;> rfl

theorem Participant.restage_part : (p.restage f).part = p.part := by
  unfold Participant.restage
  split <;> rfl

/-- An intent whose head has not moved is the commit that the file stages under next. -/
theorem Participant.Intended.next (intended : p.Intended) (above : p.file.head < p.txid)
    (head : p.file.head = f.head) : p.txid = f.head + 1 := by
  rcases intended.either with ⟨next, _⟩ | same
  · rw [next, head]
  · omega

/-- What is under that commit when the file has staged again. -/
theorem get_restage (next : p.txid = f.head + 1) (sorted : Sorted f.dirty) (some : 0 < f.dirty.length) :
    (stagedRows f p.rows).delta p.txid = (p.rows.delta p.txid).setAll f.dirty ∧
      ∀ q, ((stagedRows f p.rows).delta p.txid).get q = (rowOf f.dirty q).or ((p.rows.delta p.txid).get q) := by
  have pages : (stagedRows f p.rows).delta p.txid = (p.rows.delta p.txid).setAll f.dirty := by
    rw [stagedRows_pos some, next]
    exact if_pos rfl
  refine ⟨pages, fun q => ?_⟩
  rw [pages, Table.get_setAll sorted.apart, find?_pair_congr]

/-- The pages of the later group are under the commit of the earlier one. -/
theorem Participant.Intended.restage (intended : p.Intended) (above : p.file.head < p.txid)
    (head : p.file.head = f.head) (sorted : Sorted f.dirty) (some : 0 < f.dirty.length)
    (room : ((p.rows.delta p.txid).setAll f.dirty).rows.length ≤ 4096) :
    ({ p with rows := stagedRows f p.rows } : Participant P).Intended := by
  have next := intended.next above head
  have fresh : headOf p.rows < f.head + 1 := by
    rw [← head]
    exact intended.synced.above
  have staged : stagedRows f p.rows = withPages (f.head + 1) ((p.rows.delta (f.head + 1)).setAll f.dirty) p.rows :=
    stagedRows_pos some
  obtain ⟨pages, get⟩ := get_restage next sorted some
  constructor
  · rw [staged]
    exact intended.synced.withPages intended.sane fresh
  · rw [staged]
    exact intended.sane.withPages fresh
  · refine Or.inl ⟨head ▸ next, ?_, ?_⟩
    · intro none
      obtain ⟨⟨q, page⟩, mem⟩ := List.exists_mem_of_length_pos some
      have there := get q
      rw [sorted.rowOf_eq_some.mpr mem] at there
      have row := Table.mem_of_get there
      rw [none] at row
      cases row
    · change ((stagedRows f p.rows).delta p.txid).rows.length ≤ 4096
      rw [pages]
      exact room

/-- The handle and the record agree on where the head is. -/
theorem LeftOver.head (left : LeftOver txnid ps v) (owns : Owns v h) (mem : p ∈ ps)
    (named : p.name = (v.files h).name) : p.file.head = (v.files h).head := by
  have pending : v.store.dbs p.name = p.rows := left.pending p mem
  rw [← (left.intended p mem).synced.head, ← pending, named]
  exact owns.synced.head

/-- The file stages again, and nothing else happens. -/
theorem LeftOver.restaged (left : LeftOver txnid ps v) (mem : p ∈ ps) (named : p.name = f.name)
    (intended : (p.restage f).Intended) (beside : Beside v v') (elsewhere : Elsewhere f.name v.store v'.store)
    (rows : v'.store.dbs f.name = stagedRows f (v.store.dbs f.name)) :
    LeftOver txnid (ps.map (Participant.restage f)) v' := by
  have same : ∀ q ∈ ps, q.name = f.name → q = p := fun q there here =>
    same_of_apart left.apart there mem (here.trans named.symm)
  refine ⟨?_, ?_, ?_, ?_, ?_, ?_, beside.decided, beside.reads ▸ left.whole⟩
  · unfold Staging
    rw [shares_map _ (fun _ => Participant.restage_name) fun _ => Participant.restage_part, elsewhere.records]
    exact left.staging
  · intro t other staging
    obtain ⟨r, there, status⟩ := mem_stagingRecords.mp staging
    rw [elsewhere.records] at there
    exact left.only t other (mem_stagingRecords.mpr ⟨r, there, status⟩)
  · intro p' there
    obtain ⟨q, mem', rfl⟩ := List.mem_map.mp there
    by_cases here : q.name = f.name
    · rw [same q mem' here]
      exact intended
    · unfold Participant.restage
      rw [if_neg here]
      exact left.intended q mem'
  · intro p' there
    obtain ⟨q, mem', rfl⟩ := List.mem_map.mp there
    have pending : v.store.dbs q.name = q.rows := left.pending q mem'
    rw [Participant.restage_name]
    unfold Participant.Pending Participant.restage
    by_cases here : q.name = f.name
    · rw [if_pos here, ← pending, here]
      exact rows
    · rw [if_neg here, elsewhere.dbs _ here]
      exact pending
  · apply List.pairwise_map.mpr
    simp only [Participant.restage_name]
    exact left.apart
  · rw [List.length_map]
    exact left.few

theorem LeftOver.same (left : LeftOver txnid ps v) (store : v'.store = v.store)
    (attempts : v'.attempts = v.attempts) (reads : v'.reads = v.reads) : LeftOver txnid ps v' where
  staging := by
    unfold Staging
    rw [store]
    exact left.staging
  only := store ▸ left.only
  intended := left.intended
  pending := store ▸ left.pending
  apart := left.apart
  few := left.few
  decided := attempts ▸ left.decided
  whole := reads ▸ left.whole

/-- Giving a group up touches no row. -/
theorem LeftOver.gaveUp (left : LeftOver txnid ps v) (t : Nat) :
    Ends (weftTxnAbort t) (fun _ v' => LeftOver txnid ps v' ∧ v'.store = v.store) (fun _ => True) (fun _ => False)
      v := by
  unfold weftTxnAbort
  apply Ends.bind
  rw [Ends.read_iff]
  apply Ends.ite
  · exact fun _ => trivial
  · exact fun _ => ⟨left.same rfl rfl rfl, rfl⟩

/-- A sync in the later group puts the buffer of a file under the commit that the earlier record gives it. -/
theorem ends_restage (left : LeftOver txnid ps v) (owns : Owns v h) (member : (v.files h).groupTxnid ≠ 0)
    (mem : p ∈ ps) (named : p.name = (v.files h).name) (above : p.file.head < p.txid)
    (some : (v.files h).dirty ≠ [])
    (room : ((p.rows.delta p.txid).setAll (v.files h).dirty).rows.length ≤ 4096) :
    Ends (flush h)
      (fun _ v' => LeftOver txnid (ps.map (Participant.restage (v.files h))) v' ∧
        ∀ n, n ≠ (v.files h).name → v'.store.dbs n = v.store.dbs n)
      (fun _ => True) (fun _ => True) v := by
  have dirty : 0 < (v.files h).dirty.length := List.length_pos_iff.mpr some
  have head := left.head owns mem named
  have intended : (p.restage (v.files h)).Intended := by
    unfold Participant.restage
    rw [if_pos named]
    exact (left.intended p mem).restage above head owns.synced.sorted dirty room
  unfold flush fileOf
  apply Ends.bind
  rw [Ends.read_iff]
  apply Ends.ite
  · rintro ⟨empty, -, -⟩
    exact absurd empty (Nat.ne_of_gt dirty)
  · intro _
    apply Ends.ite
    · intro _
      unfold txnStageHere fileOf
      apply Ends.bind
      rw [Ends.read_iff]
      apply Ends.ite
      · exact fun _ => trivial
      · intro _
        apply (ends_stageBuffer owns.decided owns.synced.fence owns.synced.sorted).andThen _ (fun _ _ => trivial)
          fun _ _ => trivial
        rintro _ v₁ ⟨beside, elsewhere, rows⟩
        have again := left.restaged mem named intended beside elsewhere rows
        apply Ends.bind
        rw [Ends.read_iff]
        apply Ends.ite
        · intro _
          rw [Ends.modify_iff]
          exact ⟨again.same rfl rfl rfl, elsewhere.dbs⟩
        · exact fun _ => trivial
    · intro single
      exact absurd member single

end Restaging

section GivenUp

variable {txnid h : Nat} {ps : List (Participant P)} {v v₁ v₂ v₃ w : Vfs P} {p : Participant P}

/-- The record lands, and the first head cannot be moved. -/
def unmoved : List Attempt := [.lands, .lands, .lands, .fatal]

/-- The pair commits, and the commit returns. -/
def unresolvedPair : Vfs Nat := (syncAndCommit 7 [0, 1] (pair unmoved)).2

/-- The files join the next group, and write a page each. -/
def writeAgain : Action (Vfs Nat) Unit := do
  let txnid ← weftTxnBegin
  weftTxnJoin 0 txnid
  weftTxnJoin 1 txnid
  setFile 0 fun f => { f with dirty := [(0, 15)] }
  setFile 1 fun f => { f with dirty := [(0, 16)] }

def rewritten : Vfs Nat := (writeAgain unresolvedPair).2

def restagedOne : Vfs Nat := (flush 1 rewritten).2

def givenUpPair : Vfs Nat := (weftTxnAbort 8 restagedOne).2

def recoveredPair : Vfs Nat := (weftTxnRecover givenUpPair).2

/-- What each of the pair left on record. -/
def recordedPart (i : Nat) : Participant Nat where
  file := (pair []).files i
  rows := stagedRows ((pair []).files i) ((pair []).store.dbs ((pair []).files i).name)
  txid := 1

theorem intended_recordedPart (i : Nat) : (recordedPart i).Intended := by
  have synced : Synced ((pair []).files i) ((pair []).store.dbs ((pair []).files i).name) :=
    ⟨rfl, rfl, rfl, rfl, rfl, window_empty _ rfl, List.pairwise_singleton _ _⟩
  have sane : Sane ((pair []).store.dbs ((pair []).files i).name) := sane_fenced _
  have pages : ((recordedPart i).rows.delta 1).rows = [(0, i + 5)] := rfl
  refine ⟨synced.staged sane, sane.staged synced, Or.inl ⟨rfl, ?_, ?_⟩⟩
  · exact pages ▸ List.cons_ne_nil _ _
  · exact pages ▸ (by decide : 1 ≤ 4096)

theorem leftOver_rewritten : LeftOver 7 [recordedPart 0, recordedPart 1] rewritten where
  staging := rfl
  only := by
    intro t other mem
    have one : stagingRecords rewritten.store = [7] := by decide +kernel
    rw [one] at mem
    exact other (List.mem_singleton.mp mem)
  intended := by
    intro p mem
    rcases List.mem_pair.mp mem with rfl | rfl
    · exact intended_recordedPart 0
    · exact intended_recordedPart 1
  pending := by
    intro p mem
    rcases List.mem_pair.mp mem with rfl | rfl
    · rfl
    · rfl
  apart := by simp [Participant.name, recordedPart, pair, world, attic]
  few := by decide
  decided := by
    have none : rewritten.attempts = [] := by decide +kernel
    rw [none]
    trivial
  whole := by
    have none : rewritten.reads = [] := by decide +kernel
    rw [none]
    exact fun _ mem => (by cases mem)

theorem owns_rewritten : Owns rewritten 1 where
  synced := ⟨rfl, rfl, rfl, rfl, rfl, window_empty _ rfl, List.pairwise_singleton _ (0, 16)⟩
  sane := (intended_recordedPart 1).sane
  decided := leftOver_rewritten.decided
  shards := by
    have none : rewritten.reads = [] := by decide +kernel
    rw [none]
    exact fun _ mem => (by cases mem)

end GivenUp

end GyreWard.Fdb
