/-
Module: GyreWard.Proofs.FdbIntents
Purpose: One participant of a group commit: what it stages, what its rows are while the group is decided, and what
  each transaction of the committer and of a recovery makes of them.
Trusted boundary: none
Main exports: Participant, Participant.Offered, Participant.Staged, Participant.Pending, Participant.Done,
  Staged.after, Intent.Sound, ends_queryIntent, ends_resolveBody, ends_headBody
-/
import GyreWard.Proofs.FdbOpen

namespace GyreWard.Fdb

open Lib
open Lib.Action (Ends)

variable {P : Type}

/-! ### Participants -/

/-- A file in a group that is being committed: the handle, its rows, and what it staged under. -/
structure Participant (P : Type) where
  file : FdbFile P
  rows : Db P
  txid : Nat

namespace Participant

variable (p : Participant P)

def name : DbName := p.file.name

/-- The row of the participant in the record of its group. -/
def part : Part := ⟨p.txid, p.file.size⟩

/-- What stands under the commit after the head is the buffer, or there is nothing to commit. -/
structure Offered : Prop where
  synced : Synced p.file p.rows
  sane : Sane p.rows
  either :
    (p.txid = p.file.head + 1 ∧ p.file.dirty ≠ [] ∧ p.file.dirty.length ≤ 4096 ∧
        (p.rows.delta p.txid).rows = p.file.dirty) ∨
      (p.txid = p.file.head ∧ p.file.dirty = [])

/-- Every page of the buffer is staged, there is no truncate to be sent, and the head is to move if there is
anything to commit. -/
structure Staged : Prop where
  synced : Synced p.file p.rows
  sane : Sane p.rows
  uncut : p.file.truncPages = none
  landed : p.file.head < p.txid → ∀ {q page}, rowOf p.file.dirty q = some page →
    (p.rows.delta p.txid).get q = some page
  idle : p.txid ≤ p.file.head → p.file.dirty = []

/-- The rows are as the participant left them. -/
def Pending (db : Db P) : Prop := db = p.rows

/-- The head of the participant has moved.  The log may have been counted twice. -/
def Done (db : Db P) : Prop :=
  if p.txid ≤ p.file.head then db = p.rows
  else ∃ logn, db = { putHead p.file p.txid p.rows with logn := some logn }

end Participant

section Rows

variable {p : Participant P} {db : Db P}

theorem Participant.Staged.sorted (staged : p.Staged) : Sorted p.file.dirty := staged.synced.sorted

theorem Participant.Staged.head (staged : p.Staged) : p.rows.head.getD 0 = p.file.head := staged.synced.head

/-- A participant that has something to commit. -/
theorem Participant.Offered.wrote (offered : p.Offered) (above : p.file.head < p.txid) :
    p.file.dirty ≠ [] ∧ p.file.dirty.length ≤ 4096 ∧ (p.rows.delta p.txid).rows = p.file.dirty := by
  rcases offered.either with ⟨_, wrote⟩ | ⟨same, _⟩
  · exact wrote
  · omega

theorem Participant.Offered.idle (offered : p.Offered) (within : p.txid ≤ p.file.head) : p.file.dirty = [] := by
  rcases offered.either with ⟨above, _⟩ | ⟨_, idle⟩
  · omega
  · exact idle

theorem Participant.Offered.landed (offered : p.Offered) (above : p.file.head < p.txid) {q : Nat} {page : P}
    (row : rowOf p.file.dirty q = some page) : (p.rows.delta p.txid).get q = some page := by
  have rows := (offered.wrote above).2.2
  unfold Table.get
  rw [rows]
  exact row

theorem Participant.Offered.staged (offered : p.Offered) (uncut : p.file.truncPages = none) : p.Staged :=
  ⟨offered.synced, offered.sane, uncut, fun above _ _ row => offered.landed above row, offered.idle⟩

theorem Participant.Staged.fresh (staged : p.Staged) (above : p.file.head < p.txid) : headOf p.rows < p.txid := by
  rw [staged.synced.head]
  exact above

/-- What the rows of a participant hold when its head has moved. -/
theorem Participant.Staged.after (staged : p.Staged) (grown : p.file.dirty = [] → p.file.size = p.file.sentSize)
    (done : p.Done db) : Holds db (merged p.file p.rows) p.file.size := by
  unfold Participant.Done at done
  by_cases within : p.txid ≤ p.file.head
  · rw [if_pos within] at done
    have clean := staged.idle within
    subst done
    refine ⟨fun q => (merged_clean clean staged.uncut q).symm, ?_⟩
    rw [grown clean]
    exact staged.synced.size
  · rw [if_neg within] at done
    obtain ⟨logn, rfl⟩ := done
    have above : p.file.head < p.txid := Nat.lt_of_not_le within
    exact ⟨image_putHead staged.sane staged.sorted (staged.fresh above) (staged.landed above), rfl⟩

/-- The head when it has moved. -/
theorem Participant.Done.head (staged : p.Staged) (done : p.Done db) : p.txid ≤ db.head.getD 0 := by
  unfold Participant.Done at done
  by_cases within : p.txid ≤ p.file.head
  · rw [if_pos within] at done
    subst done
    rw [staged.head]
    exact within
  · rw [if_neg within] at done
    obtain ⟨logn, rfl⟩ := done
    exact Nat.le_refl _

/-- What has nothing to commit is done. -/
theorem Participant.Pending.done (pending : p.Pending db) (within : p.txid ≤ p.file.head) : p.Done db := by
  unfold Participant.Done
  rw [if_pos within]
  exact pending

end Rows

/-! ### Intents -/

/-- An intent that a recovery was given while the group was being decided. -/
structure Intent.Sound (c : Intent) (p : Participant P) : Prop where
  name : c.name = p.name
  part : c.part = p.part
  present : c.present = true
  pages : c.head < p.txid → p.file.head < p.txid ∧ c.pgnos = p.file.dirty.map (·.1)

section Intents

variable {p : Participant P} {c : Intent}

/-- What a recovery writes for a participant. -/
theorem Intent.Sound.resolve (sound : c.Sound p) (staged : p.Staged) (above : c.head < p.txid) {db : Db P}
    (either : p.Pending db ∨ p.Done db) :
    p.Done { db with
      pidx := db.pidx.setAll (c.pgnos.map fun pgno => (pgno, c.part.txid))
      size := some c.part.size
      logn := some (db.logn.getD 0 + c.pgnos.length)
      head := some c.part.txid } := by
  obtain ⟨beyond, pages⟩ := sound.pages above
  have rows : (c.pgnos.map fun pgno => (pgno, c.part.txid)) = p.file.dirty.map fun page => (page.1, p.txid) := by
    rw [pages, sound.part, List.map_map]
    rfl
  have apart : (p.file.dirty.map fun page => (page.1, p.txid)).Pairwise fun a b => a.1 ≠ b.1 :=
    List.pairwise_map.mpr staged.sorted.apart
  have index : (putHead p.file p.txid p.rows).pidx =
      p.rows.pidx.setAll (p.file.dirty.map fun page => (page.1, p.txid)) := by
    unfold putHead
    rw [staged.uncut]
  have within : ¬ p.txid ≤ p.file.head := Nat.not_le.mpr beyond
  unfold Participant.Done at either ⊢
  rw [if_neg within] at either ⊢
  rw [rows, sound.part]
  rcases either with pending | ⟨logn, rfl⟩
  · cases pending
    refine ⟨p.rows.logn.getD 0 + c.pgnos.length, ?_⟩
    rw [← index]
    rfl
  · refine ⟨logn + c.pgnos.length, ?_⟩
    have again : (putHead p.file p.txid p.rows).pidx.setAll (p.file.dirty.map fun page => (page.1, p.txid)) =
        (putHead p.file p.txid p.rows).pidx := by
      rw [index]
      exact Table.setAll_setAll apart _
    dsimp only
    rw [again]
    rfl

end Intents

/-! ### Whole answers -/

/-- No range read of a query is cut short. -/
def WholeReads (reads : List ReadAttempt) : Prop := ∀ a ∈ reads, ∀ n, .cut n ∉ a.index

theorem WholeReads.suffix {reads later : List ReadAttempt} (whole : WholeReads reads) (rest : later <:+ reads) :
    WholeReads later := fun a mem => whole a (rest.subset mem)

theorem ends_queryRange_whole {α : Type} (rows : List α) {a : ReadAttempt} (whole : ∀ n, .cut n ∉ a.index) :
    Ends (queryRange rows) (fun found _ => found = rows) (fun _ => True) (fun _ => False) a := by
  unfold Ends queryRange
  rcases replies : a.index with _ | ⟨_ | n | _, rest⟩
  · rfl
  · rfl
  · exact absurd (replies ▸ List.mem_cons_self) (whole n)
  · trivial

/-- The intent that a recovery reads of a participant that is pending or done. -/
theorem ends_queryIntent {p : Participant P} {s : Store P} {a : ReadAttempt} (offered : p.Offered)
    (uncut : p.file.truncPages = none) (whole : ∀ n, .cut n ∉ a.index)
    (either : p.Pending (s.dbs p.name) ∨ p.Done (s.dbs p.name)) :
    Ends (queryIntent p.name p.part s)
      (fun c _ => c.Sound p ∧ (p.txid ≤ c.head → p.Done (s.dbs p.name))) (fun _ => True) (fun _ => False) a := by
  have staged := offered.staged uncut
  unfold queryIntent
  apply (ends_queryRow _ a).andThen _ (fun _ h => h) fun _ h => h
  rintro got a' ⟨rfl, index⟩
  have whole' : ∀ n, .cut n ∉ a'.index := by
    rw [index]
    exact whole
  apply Ends.ite
  · intro within
    refine ⟨⟨rfl, rfl, rfl, fun above => absurd within (Nat.not_le.mpr above)⟩, fun _ => ?_⟩
    rcases either with pending | done
    · apply pending.done
      rw [pending, staged.head] at within
      exact within
    · exact done
  · intro above
    have head : (s.dbs p.name).head.getD 0 < p.txid := Nat.lt_of_not_le above
    have pending : p.Pending (s.dbs p.name) := by
      rcases either with pending | done
      · exact pending
      · exact absurd (done.head staged) above
    have beyond : p.file.head < p.txid := by
      rw [pending, staged.head] at head
      exact head
    obtain ⟨some, short, rows⟩ := offered.wrote beyond
    apply (ends_queryRange_whole _ whole').andThen _ (fun _ h => h) fun _ h => h
    rintro found _ rfl
    rw [pending] at above ⊢
    refine ⟨⟨rfl, rfl, ?_, fun _ => ⟨beyond, ?_⟩⟩, fun within => absurd within above⟩
    · change decide (0 < (p.rows.delta p.txid).rows.length) = true
      rw [rows]
      exact decide_eq_true (List.length_pos_iff.mpr some)
    · change (((p.rows.delta p.txid).rows.map (·.1)).take 4096) = _
      rw [rows, List.take_of_length_le]
      rw [List.length_map]
      exact short

/-! ### Moving the head -/

/-- A recovery moves the head of a participant, or finds that it has been moved. -/
theorem ends_resolveBody {p : Participant P} {c : Intent} {v : Vfs P} (decided : Decided v.attempts)
    (staged : p.Staged) (sound : c.Sound p)
    (either : p.Pending (v.store.dbs p.name) ∨ p.Done (v.store.dbs p.name))
    (moved : p.txid ≤ c.head → p.Done (v.store.dbs p.name)) :
    Ends (runTxn .ioerrWrite (resolveBody c))
      (fun _ v' => Beside v v' ∧ Elsewhere p.name v.store v'.store ∧ p.Done (v'.store.dbs p.name))
      (fun v' => Beside v v' ∧ v'.store = v.store)
      (fun v' => Beside v v' ∧ (v'.store = v.store ∨
        (Elsewhere p.name v.store v'.store ∧ p.Done (v'.store.dbs p.name)))) v := by
  have part : c.part.txid = p.txid := congrArg Part.txid sound.part
  have lands : ∀ s : Store P, Elsewhere p.name v.store s → p.Pending (s.dbs p.name) ∨ p.Done (s.dbs p.name) →
      (p.txid ≤ c.head → p.Done (s.dbs p.name)) →
      ∃ s', resolveBody c s = .ok ((), s') ∧ Elsewhere p.name v.store s' ∧ p.Done (s'.dbs p.name) := by
    intro s elsewhere either moved
    unfold resolveBody
    rw [part, sound.name]
    by_cases within : p.txid ≤ c.head
    · rw [if_pos within]
      exact ⟨s, rfl, elsewhere, moved within⟩
    · rw [if_neg within]
      refine ⟨_, rfl, elsewhere.trans (Elsewhere.onDb _ _ _), ?_⟩
      rw [onDb_same, ← part]
      exact sound.resolve staged (Nat.lt_of_not_le within) either
  let After : Unit → Store P → Prop := fun _ s => Elsewhere p.name v.store s ∧ p.Done (s.dbs p.name)
  have run : ∀ a s', resolveBody c v.store = .ok (a, s') → After a s' := by
    intro _ s' ran
    obtain ⟨s, ran', after⟩ := lands v.store (Elsewhere.refl _ _) either moved
    rw [ran'] at ran
    cases ran
    exact after
  have again : ∀ a s, After a s → ∃ a' s', resolveBody c s = .ok (a', s') ∧ After a' s' := by
    rintro _ s ⟨elsewhere, done⟩
    obtain ⟨s', ran, after⟩ := lands s elsewhere (Or.inr done) fun _ => done
    exact ⟨(), s', ran, after⟩
  apply (ends_runTxn decided run again).mono (fun _ _ h => h) (fun _ h => h)
  rintro v' ⟨beside, same | ⟨_, landed⟩⟩
  · exact ⟨beside, Or.inl same⟩
  · exact ⟨beside, Or.inr landed⟩

/-- The committer moves the head of a participant that is pending, while nobody has taken the file from it. -/
theorem ends_headBody {p : Participant P} {v : Vfs P} (decided : Decided v.attempts) (staged : p.Staged)
    (above : p.file.head < p.txid) (pending : p.Pending (v.store.dbs p.name)) :
    Ends (runTxn .ioerrWrite (headBody p.file p.txid))
      (fun _ v' => Beside v v' ∧ Elsewhere p.name v.store v'.store ∧ p.Done (v'.store.dbs p.name))
      (fun v' => Beside v v' ∧ v'.store = v.store)
      (fun v' => Beside v v' ∧ (v'.store = v.store ∨
        (Elsewhere p.name v.store v'.store ∧ p.Done (v'.store.dbs p.name)))) v := by
  have done : ∀ {v' : Vfs P}, v'.store = v.store.onDb p.file.name (putHead p.file p.txid) →
      Elsewhere p.name v.store v'.store ∧ p.Done (v'.store.dbs p.name) := by
    intro v' store
    rw [store]
    refine ⟨Elsewhere.onDb _ _ _, ?_⟩
    have rows : (v.store.onDb p.file.name (putHead p.file p.txid)).dbs p.name = putHead p.file p.txid p.rows := by
      rw [← pending]
      exact onDb_same _ _ _
    unfold Participant.Done
    rw [if_neg (Nat.not_le.mpr above), rows]
    exact ⟨p.file.logPages + p.file.dirty.length, rfl⟩
  have own : (v.store.dbs p.file.name).fence = some p.file.fence := by
    have fence := staged.synced.fence
    rw [← pending] at fence
    exact fence
  apply (ends_fenced decided own rfl (putHead_twice staged.sorted p.txid _)).mono
  · rintro _ v' ⟨beside, store⟩
    exact ⟨beside, done store⟩
  · exact fun _ h => h
  · rintro v' ⟨beside, same | landed⟩
    · exact ⟨beside, Or.inl same⟩
    · exact ⟨beside, Or.inr (done landed)⟩

end GyreWard.Fdb
