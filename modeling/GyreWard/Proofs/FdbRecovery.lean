/-
Module: GyreWard.Proofs.FdbRecovery
Purpose: A group whose record is written is decided one way: whatever recovery stops or fails, the next one that
  comes back has moved every head.
Trusted boundary: none
Main exports: Fellows, shares, Grouped, Staging, Over, Recorded, ends_recoverOne, Recorded.recovers, Recoveries,
  Recorded.survives
-/
import GyreWard.Proofs.FdbIntents
import Mathlib.Data.List.Pairwise
import Mathlib.Data.List.Perm.Subperm
import Mathlib.Logic.Relation

namespace GyreWard.Fdb

open Lib
open Lib.Action (Ends)

variable {P : Type}

/-! ### Staging records -/

theorem filterMap_sweptRecord (txnid : Nat) (r : Record) :
    (sweptRecord txnid r).filterMap id = if r.status = some .staging then [txnid] else [] := by
  obtain ⟨status, parts⟩ := r
  unfold sweptRecord
  rw [List.filterMap_append, List.filterMap_map]
  have none : List.filterMap (id ∘ fun _ : DbName × Part => (Option.none : Option Nat)) parts.rows = [] := by
    simp
  rw [none, List.nil_append]
  rcases status with _ | _ | _ | _ <;> rfl

theorem stagingRecords_rows (s : Store P) :
    stagingRecords s = s.records.rows.filterMap fun r => if r.2.status = some .staging then some r.1 else none := by
  rw [stagingRecords_eq]
  generalize s.records.rows = rows
  induction rows with
  | nil => rfl
  | cons r rest ih =>
      rw [List.flatMap_cons, List.filterMap_append, ih, filterMap_sweptRecord, List.filterMap_cons]
      split <;> simp_all

theorem mem_stagingRecords {s : Store P} {txnid : Nat} :
    txnid ∈ stagingRecords s ↔ ∃ r, s.records.get txnid = some r ∧ r.status = some .staging := by
  rw [stagingRecords_rows, List.mem_filterMap]
  constructor
  · rintro ⟨⟨t, r⟩, mem, found⟩
    split at found
    · cases found
      exact ⟨r, Table.get_of_mem mem, ‹_›⟩
    · cases found
  · rintro ⟨r, there, staging⟩
    exact ⟨(txnid, r), Table.mem_of_get there, if_pos staging⟩

theorem stagingRecords_once (s : Store P) : (stagingRecords s).Pairwise (· < ·) := by
  rw [stagingRecords_rows]
  apply List.Pairwise.filterMap _ _ s.records.sorted
  intro a b less t first u second
  split at first
  · split at second
    · cases first
      cases second
      exact less
    · cases second
  · cases first

/-- The one group that is staging is the one that a sweep finds. -/
theorem stagingRecords_eq_singleton {s : Store P} {txnid : Nat} (mem : txnid ∈ stagingRecords s)
    (only : ∀ t ∈ stagingRecords s, t = txnid) : stagingRecords s = [txnid] := by
  have once := stagingRecords_once s
  generalize stagingRecords s = found at mem only once
  rcases found with _ | ⟨t, _ | ⟨u, rest⟩⟩
  · cases mem
  · rw [only t List.mem_cons_self]
  · have first := only t List.mem_cons_self
    have second := only u (List.mem_cons_of_mem _ List.mem_cons_self)
    have less := List.rel_of_pairwise_cons once List.mem_cons_self
    omega

/-! ### The record of a group -/

/-- The files of one group. -/
structure Fellows (ps : List (Participant P)) : Prop where
  staged : ∀ p ∈ ps, p.Staged
  apart : ps.Pairwise fun p q => p.name ≠ q.name
  few : ps.length ≤ txnMaxParts

theorem same_of_apart {ps : List (Participant P)} (apart : ps.Pairwise fun p q => p.name ≠ q.name)
    {p q : Participant P} (first : p ∈ ps) (second : q ∈ ps) (same : p.name = q.name) : p = q := by
  have symm : Std.Symm fun p q : Participant P => p.name ≠ q.name := ⟨fun _ _ => Ne.symm⟩
  apply Classical.byContradiction
  intro other
  exact apart.forall first second other same

/-- The rows of the participants in the record. -/
def shares (ps : List (Participant P)) : Table DbName Part :=
  (∅ : Table DbName Part).setAll (ps.map fun p => (p.name, p.part))

/-- The record knows nothing of a participant but its name and its part. -/
theorem shares_map (change : Participant P → Participant P) (names : ∀ p, (change p).name = p.name)
    (parts : ∀ p, (change p).part = p.part) (ps : List (Participant P)) : shares (ps.map change) = shares ps := by
  unfold shares
  rw [List.map_map]
  congr 1
  exact List.map_congr_left fun p _ => Prod.ext (names p) (parts p)

section Shares

variable {ps : List (Participant P)} (fellows : Fellows ps)

include fellows

theorem Fellows.rows_apart : (ps.map fun p => (p.name, p.part)).Pairwise fun a b => a.1 ≠ b.1 :=
  List.pairwise_map.mpr fellows.apart

theorem Fellows.same {p q : Participant P} (first : p ∈ ps) (second : q ∈ ps) (same : p.name = q.name) : p = q :=
  same_of_apart fellows.apart first second same

theorem mem_shares {row : DbName × Part} : row ∈ (shares ps).rows ↔ ∃ p ∈ ps, row = (p.name, p.part) := by
  unfold shares
  rw [Table.mem_setAll_empty fellows.rows_apart, List.mem_map]
  simp only [eq_comm]

theorem length_shares : (shares ps).rows.length ≤ txnMaxParts := by
  have once : (shares ps).rows.Nodup := (shares ps).sorted.imp fun less same => by
    rw [same] at less
    exact lt_irrefl _ less
  have sub : (shares ps).rows ⊆ ps.map fun p => (p.name, p.part) := by
    intro row mem
    obtain ⟨p, there, rfl⟩ := (mem_shares fellows).mp mem
    exact List.mem_map_of_mem there
  have short := (List.subperm_of_subset once sub).length_le
  rw [List.length_map] at short
  exact Nat.le_trans short fellows.few

end Shares

/-! ### A group that is being decided -/

/-- The store of a group of which every participant is pending or done, and nothing else has changed. -/
structure Grouped (txnid : Nat) (ps : List (Participant P)) (s₀ s : Store P) : Prop where
  others : ∀ n, (∀ p ∈ ps, p.name ≠ n) → s.dbs n = s₀.dbs n
  each : ∀ p ∈ ps, p.Pending (s.dbs p.name) ∨ p.Done (s.dbs p.name)
  records : ∀ t, t ≠ txnid → s.records.get t = s₀.records.get t

/-- The record says that the group is staging, with all of its participants. -/
def Staging (txnid : Nat) (ps : List (Participant P)) (s : Store P) : Prop :=
  s.records.get txnid = some { status := some .staging, parts := shares ps }

/-- Every head has moved, and the record no longer says that the group is staging. -/
structure Over (txnid : Nat) (ps : List (Participant P)) (s : Store P) : Prop where
  done : ∀ p ∈ ps, p.Done (s.dbs p.name)
  settled : ∀ r, s.records.get txnid = some r → r.status ≠ some .staging

/-- The group is committed, whoever finds it. -/
structure Recorded (txnid : Nat) (ps : List (Participant P)) (s₀ : Store P) (v : Vfs P) : Prop where
  grouped : Grouped txnid ps s₀ v.store
  record : Staging txnid ps v.store ∨ Over txnid ps v.store
  decided : Decided v.attempts
  whole : WholeReads v.reads

section Steps

variable {txnid : Nat} {ps : List (Participant P)} {s₀ s s' : Store P} (fellows : Fellows ps)

include fellows in
/-- The head of one participant has moved. -/
theorem Grouped.move {p : Participant P} (grouped : Grouped txnid ps s₀ s) (mem : p ∈ ps)
    (elsewhere : Elsewhere p.name s s') (done : p.Done (s'.dbs p.name)) : Grouped txnid ps s₀ s' where
  others := by
    intro n other
    rw [elsewhere.dbs n (Ne.symm (other p mem))]
    exact grouped.others n other
  each := by
    intro q there
    by_cases here : q.name = p.name
    · cases fellows.same there mem here
      exact Or.inr done
    · rw [elsewhere.dbs _ here]
      exact grouped.each q there
  records := by
    intro t other
    rw [elsewhere.records]
    exact grouped.records t other

/-- Nothing has changed but the record of one group. -/
structure Filed (txnid : Nat) (s s' : Store P) : Prop where
  dbs : s'.dbs = s.dbs
  next : s'.next = s.next
  records : ∀ t, t ≠ txnid → s'.records.get t = s.records.get t

theorem Filed.refl (txnid : Nat) (s : Store P) : Filed txnid s s := ⟨rfl, rfl, fun _ _ => rfl⟩

theorem Filed.trans {s'' : Store P} (first : Filed txnid s s') (second : Filed txnid s' s'') :
    Filed txnid s s'' where
  dbs := second.dbs.trans first.dbs
  next := second.next.trans first.next
  records := fun t other => (second.records t other).trans (first.records t other)

theorem filed_onRecord (txnid : Nat) (s : Store P) (change : Record → Record) :
    Filed txnid s (s.onRecord txnid change) where
  dbs := rfl
  next := rfl
  records := fun _ other => Table.get_set_of_ne _ _ other

theorem Grouped.filed (grouped : Grouped txnid ps s₀ s) (filed : Filed txnid s s') : Grouped txnid ps s₀ s' where
  others := by
    rw [filed.dbs]
    exact grouped.others
  each := by
    rw [filed.dbs]
    exact grouped.each
  records := fun t other => (filed.records t other).trans (grouped.records t other)

end Steps

/-! ### Transactions on the record -/

section Record

variable {v : Vfs P} {txnid : Nat}

/-- The state of a group is set. -/
theorem ends_setStatus (decided : Decided v.attempts) (status : Status) :
    Ends (runTxn .ioerrWrite (setStatusBody txnid status))
      (fun _ v' => Beside v v' ∧ Filed txnid v.store v'.store ∧
        ∃ r, v'.store.records.get txnid = some r ∧ r.status = some status)
      (fun v' => Beside v v' ∧ v'.store = v.store)
      (fun v' => Beside v v' ∧ (v'.store = v.store ∨ (Filed txnid v.store v'.store ∧
        ∃ r, v'.store.records.get txnid = some r ∧ r.status = some status))) v := by
  let After : Unit → Store P → Prop := fun _ s =>
    Filed txnid v.store s ∧ ∃ r, s.records.get txnid = some r ∧ r.status = some status
  have lands : ∀ s : Store P, Filed txnid v.store s →
      After () (s.onRecord txnid fun r => { r with status := some status }) :=
    fun s filed => ⟨filed.trans (filed_onRecord _ _ _), _, Table.get_set_self _ _ _, rfl⟩
  have run : ∀ a s', setStatusBody txnid status v.store = .ok (a, s') → After a s' := by
    intro _ s' ran
    cases ran
    exact lands v.store (Filed.refl _ _)
  have again : ∀ a s, After a s → ∃ a' s', setStatusBody txnid status s = .ok (a', s') ∧ After a' s' :=
    fun _ s after => ⟨(), _, rfl, lands s after.1⟩
  apply (ends_runTxn decided run again).mono (fun _ _ h => h) (fun _ h => h)
  rintro v' ⟨beside, same | ⟨_, landed⟩⟩
  · exact ⟨beside, Or.inl same⟩
  · exact ⟨beside, Or.inr landed⟩

/-- The record of a group is dropped. -/
theorem ends_dropRecord (decided : Decided v.attempts) :
    Ends (runTxn .ioerrWrite (dropRecordBody txnid))
      (fun _ v' => Beside v v' ∧ Filed txnid v.store v'.store ∧ v'.store.records.get txnid = none)
      (fun v' => Beside v v' ∧ v'.store = v.store)
      (fun v' => Beside v v' ∧
        (v'.store = v.store ∨ (Filed txnid v.store v'.store ∧ v'.store.records.get txnid = none))) v := by
  let After : Unit → Store P → Prop := fun _ s => Filed txnid v.store s ∧ s.records.get txnid = none
  have lands : ∀ s : Store P, Filed txnid v.store s →
      After () { s with records := s.records.clear fun n => n = txnid } := by
    intro s filed
    refine ⟨filed.trans ⟨rfl, rfl, ?_⟩, ?_⟩
    · intro t other
      simp [Table.get_clear, other]
    · simp [Table.get_clear]
  have run : ∀ a s', dropRecordBody txnid v.store = .ok (a, s') → After a s' := by
    intro _ s' ran
    cases ran
    exact lands v.store (Filed.refl _ _)
  have again : ∀ a s, After a s → ∃ a' s', dropRecordBody txnid s = .ok (a', s') ∧ After a' s' :=
    fun _ s after => ⟨(), _, rfl, lands s after.1⟩
  apply (ends_runTxn decided run again).mono (fun _ _ h => h) (fun _ h => h)
  rintro v' ⟨beside, same | ⟨_, landed⟩⟩
  · exact ⟨beside, Or.inl same⟩
  · exact ⟨beside, Or.inr landed⟩

end Record

/-! ### What a recovery asks -/

section Queries

variable {txnid : Nat} {ps : List (Participant P)} {s₀ : Store P} (fellows : Fellows ps)

include fellows

theorem ends_readParts {v : Vfs P} (staging : Staging txnid ps v.store) (whole : WholeReads v.reads) :
    Ends (runQuery .ioerrRead (readParts txnid)) (fun rows v' => rows = (shares ps).rows ∧ Asked v v') (Asked v)
      (fun _ => False) v := by
  apply ends_runQuery (I := fun a => ∀ n, Reply.cut n ∉ a.index) whole (fun n mem => by cases mem)
  intro a whole'
  unfold readParts
  apply (ends_queryRange_whole _ whole').andThen _ (fun _ h => h) fun _ h => h
  rintro found _ rfl
  change (((v.store.records.get txnid).getD {}).parts.rows).take txnMaxParts = _
  rw [staging]
  exact List.take_of_length_le (length_shares fellows)

/-- An intent of each participant that the record names. -/
theorem ends_queryIntents (offered : ∀ p ∈ ps, p.Offered) {rows : List (DbName × Part)}
    (named : ∀ row ∈ rows, ∃ p ∈ ps, row = (p.name, p.part)) :
    ∀ {v : Vfs P}, Grouped txnid ps s₀ v.store → WholeReads v.reads →
      Ends (queryIntents rows)
        (fun intents v' => Asked v v' ∧
          (∀ c ∈ intents, ∃ p ∈ ps, c.Sound p ∧ (p.txid ≤ c.head → p.Done (v.store.dbs p.name))) ∧
            ∀ row ∈ rows, ∃ c ∈ intents, c.name = row.1)
        (Asked v) (fun _ => False) v := by
  induction rows with
  | nil =>
      intro v _ _
      exact ⟨Asked.refl v, fun _ none => (by cases none), fun _ none => (by cases none)⟩
  | cons row rest ih =>
      intro v grouped whole
      obtain ⟨p, there, rfl⟩ := named row List.mem_cons_self
      have query : Ends (runQuery .ioerrRead (queryIntent p.name p.part))
          (fun c v' => (c.Sound p ∧ (p.txid ≤ c.head → p.Done (v.store.dbs p.name))) ∧ Asked v v') (Asked v)
          (fun _ => False) v := by
        apply ends_runQuery (I := fun a => ∀ n, Reply.cut n ∉ a.index) whole (fun n mem => by cases mem)
        exact fun a whole' =>
          ends_queryIntent (offered p there) (fellows.staged p there).uncut whole' (grouped.each p there)
      rw [queryIntents]
      apply query.andThen _ (fun _ h => h) fun _ h => h
      rintro c v₁ ⟨sound, asked⟩
      have later := ih (fun row mem => named row (List.mem_cons_of_mem _ mem)) (v := v₁)
        (asked.store ▸ grouped) (whole.suffix asked.reads)
      apply later.andThen _ (fun v₂ asked' => asked.trans asked') fun _ h => h
      rintro found v₂ ⟨asked', sounds, all⟩
      rw [asked.store] at sounds
      refine ⟨asked.trans asked', ?_, ?_⟩
      · intro c' mem
        rcases List.mem_cons.mp mem with rfl | mem
        · exact ⟨p, there, sound⟩
        · exact sounds c' mem
      · intro row mem
        rcases List.mem_cons.mp mem with rfl | mem
        · exact ⟨c, List.mem_cons_self, sound.1.name⟩
        · obtain ⟨c', mem', same⟩ := all row mem
          exact ⟨c', List.mem_cons_of_mem _ mem', same⟩

end Queries

/-! ### Carrying it out -/

section Deciding

variable {txnid : Nat} {ps : List (Participant P)} {s₀ : Store P} (fellows : Fellows ps)

include fellows

/-- What a recovery does once it knows the participants. -/
def decideGroup (txnid : Nat) (parts : List (DbName × Part)) : Action (Vfs P) Unit :=
  if parts.length = 0 then runTxn .ioerrWrite (dropRecordBody txnid)
  else do
    let intents ← queryIntents parts
    if intents.all (·.present) then finishGroup txnid intents else giveUpGroup txnid intents

/-- The heads that are still to be moved are those of the intents `rest`. -/
structure Moving (txnid : Nat) (ps : List (Participant P)) (s₀ : Store P) (rest : List Intent) (v : Vfs P) :
    Prop where
  grouped : Grouped txnid ps s₀ v.store
  record : Staging txnid ps v.store
  decided : Decided v.attempts
  whole : WholeReads v.reads
  sound : ∀ c ∈ rest, ∃ p ∈ ps, c.Sound p ∧ (p.txid ≤ c.head → p.Done (v.store.dbs p.name))
  left : ∀ p ∈ ps, p.Done (v.store.dbs p.name) ∨ ∃ c ∈ rest, c.name = p.name

omit fellows in
theorem Moving.recorded {rest : List Intent} {v : Vfs P} (moving : Moving txnid ps s₀ rest v) :
    Recorded txnid ps s₀ v :=
  ⟨moving.grouped, Or.inl moving.record, moving.decided, moving.whole⟩

omit fellows in
theorem Moving.beside {rest : List Intent} {v v' : Vfs P} (moving : Moving txnid ps s₀ rest v)
    (beside : Beside v v') (store : v'.store = v.store) : Moving txnid ps s₀ rest v' where
  grouped := store ▸ moving.grouped
  record := by
    unfold Staging
    rw [store]
    exact moving.record
  decided := beside.decided
  whole := by
    rw [beside.reads]
    exact moving.whole
  sound := by
    rw [store]
    exact moving.sound
  left := by
    rw [store]
    exact moving.left

theorem Moving.moved {c : Intent} {rest : List Intent} {v v' : Vfs P} {p : Participant P}
    (moving : Moving txnid ps s₀ (c :: rest) v) (there : p ∈ ps) (named : c.name = p.name) (beside : Beside v v')
    (elsewhere : Elsewhere p.name v.store v'.store) (done : p.Done (v'.store.dbs p.name)) :
    Moving txnid ps s₀ rest v' where
  grouped := moving.grouped.move fellows there elsewhere done
  record := by
    unfold Staging
    rw [elsewhere.records]
    exact moving.record
  decided := beside.decided
  whole := by
    rw [beside.reads]
    exact moving.whole
  sound := by
    intro c' mem
    obtain ⟨q, there', sound, moved⟩ := moving.sound c' (List.mem_cons_of_mem _ mem)
    refine ⟨q, there', sound, fun within => ?_⟩
    by_cases here : q.name = p.name
    · cases fellows.same there' there here
      exact done
    · rw [elsewhere.dbs _ here]
      exact moved within
  left := by
    intro q there'
    by_cases here : q.name = p.name
    · cases fellows.same there' there here
      exact Or.inl done
    · rw [elsewhere.dbs _ here]
      rcases moving.left q there' with still | ⟨c', mem, same⟩
      · exact Or.inl still
      · rcases List.mem_cons.mp mem with rfl | mem
        · exact absurd (same.symm.trans named) here
        · exact Or.inr ⟨c', mem, same⟩

/-- Every head is moved, one after another. -/
theorem ends_resolveAll {intents : List Intent} {v : Vfs P} (moving : Moving txnid ps s₀ intents v) :
    Ends (Action.forEach intents fun c => runTxn .ioerrWrite (resolveBody c))
      (fun _ => Moving txnid ps s₀ []) (Recorded txnid ps s₀) (Recorded txnid ps s₀) v := by
  apply Ends.forEach (I := Moving txnid ps s₀) moving
  intro c rest v₁ moving₁
  obtain ⟨p, there, sound, moved⟩ := moving₁.sound c List.mem_cons_self
  have stop : ∀ {v'}, Beside v₁ v' → v'.store = v₁.store → Recorded txnid ps s₀ v' :=
    fun beside store => (moving₁.beside beside store).recorded
  have next : ∀ {v'}, Beside v₁ v' → Elsewhere p.name v₁.store v'.store → p.Done (v'.store.dbs p.name) →
      Moving txnid ps s₀ rest v' :=
    fun beside elsewhere done => moving₁.moved fellows there sound.name beside elsewhere done
  apply (ends_resolveBody moving₁.decided (fellows.staged p there) sound (moving₁.grouped.each p there) moved).mono
  · rintro _ v₂ ⟨beside, elsewhere, done⟩
    exact next beside elsewhere done
  · rintro v₂ ⟨beside, store⟩
    exact stop beside store
  · rintro v₂ ⟨beside, store | ⟨elsewhere, done⟩⟩
    · exact stop beside store
    · exact (next beside elsewhere done).recorded

omit fellows in
theorem settled_of_dropped {s : Store P} (none : s.records.get txnid = none) :
    ∀ r, s.records.get txnid = some r → r.status ≠ some .staging := by
  intro r there
  rw [none] at there
  cases there

omit fellows in
theorem settled_of_committed {s : Store P}
    (committed : ∃ r, s.records.get txnid = some r ∧ r.status = some Status.committed) :
    ∀ r, s.records.get txnid = some r → r.status ≠ some .staging := by
  obtain ⟨r, there, status⟩ := committed
  intro r' there' staging
  rw [there] at there'
  cases there'
  rw [status] at staging
  cases staging

omit fellows in
/-- Every head has moved, and the record has changed. -/
theorem Moving.ended {v v' : Vfs P} (moving : Moving txnid ps s₀ [] v) (beside : Beside v v')
    (filed : Filed txnid v.store v'.store)
    (settled : ∀ r, v'.store.records.get txnid = some r → r.status ≠ some .staging) :
    Recorded txnid ps s₀ v' ∧ Over txnid ps v'.store := by
  have ended : Over txnid ps v'.store := by
    refine ⟨?_, settled⟩
    rw [filed.dbs]
    intro p there
    rcases moving.left p there with done | ⟨c, none, _⟩
    · exact done
    · cases none
  exact ⟨⟨moving.grouped.filed filed, Or.inr ended, beside.decided, beside.reads ▸ moving.whole⟩, ended⟩

omit fellows in
/-- The record goes. -/
theorem Moving.drop {v v' : Vfs P} (moving : Moving txnid ps s₀ [] v) (beside : Beside v v')
    (filed : Filed txnid v.store v'.store)
    (settled : ∀ r, v'.store.records.get txnid = some r → r.status ≠ some .staging) :
    Ends (runTxn .ioerrWrite (dropRecordBody txnid))
      (fun _ v'' => Recorded txnid ps s₀ v'' ∧ Over txnid ps v''.store) (Recorded txnid ps s₀)
      (Recorded txnid ps s₀) v' := by
  apply (ends_dropRecord beside.decided).mono
  · rintro _ v'' ⟨beside', filed', none⟩
    exact moving.ended (beside.trans beside') (filed.trans filed') (settled_of_dropped none)
  · rintro v'' ⟨beside', store⟩
    exact (moving.ended (beside.trans beside') (store ▸ filed) (store ▸ settled)).1
  · rintro v'' ⟨beside', store | ⟨filed', none⟩⟩
    · exact (moving.ended (beside.trans beside') (store ▸ filed) (store ▸ settled)).1
    · exact (moving.ended (beside.trans beside') (filed.trans filed') (settled_of_dropped none)).1

omit fellows in
/-- The record says committed, and then it goes. -/
theorem ends_finishRecord {v : Vfs P} (moving : Moving txnid ps s₀ [] v) :
    Ends (do runTxn .ioerrWrite (setStatusBody txnid .committed); runTxn .ioerrWrite (dropRecordBody txnid))
      (fun _ v' => Recorded txnid ps s₀ v' ∧ Over txnid ps v'.store) (Recorded txnid ps s₀)
      (Recorded txnid ps s₀) v := by
  apply (ends_setStatus moving.decided .committed).andThen
  · rintro _ v₁ ⟨beside, filed, committed⟩
    exact moving.drop beside filed (settled_of_committed committed)
  · rintro v₁ ⟨beside, store⟩
    exact (moving.beside beside store).recorded
  · rintro v₁ ⟨beside, store | ⟨filed, committed⟩⟩
    · exact (moving.beside beside store).recorded
    · exact (moving.ended beside filed (settled_of_committed committed)).1

/-- A group of which every intent is there is finished, or stays as committed as it was. -/
theorem ends_finishGroup {intents : List Intent} {v : Vfs P} (moving : Moving txnid ps s₀ intents v) :
    Ends (finishGroup txnid intents) (fun _ v' => Recorded txnid ps s₀ v' ∧ Over txnid ps v'.store)
      (Recorded txnid ps s₀) (Recorded txnid ps s₀) v := by
  unfold finishGroup
  apply (ends_resolveAll fellows moving).andThen _ (fun _ h => h) fun _ h => h
  exact fun _ v₁ moved => ends_finishRecord moved

omit fellows in
theorem Recorded.asked {v v' : Vfs P} (recorded : Recorded txnid ps s₀ v) (asked : Asked v v') :
    Recorded txnid ps s₀ v' := by
  refine ⟨asked.store ▸ recorded.grouped, ?_, asked.attempts ▸ recorded.decided,
    recorded.whole.suffix asked.reads⟩
  rw [asked.store]
  exact recorded.record

omit fellows in
theorem recoverOne_eq : recoverOne (P := P) txnid = (do
    let parts ← runQuery .ioerrRead (readParts txnid)
    decideGroup txnid parts) := rfl

/-- A group is finished when every query finds its intent. -/
theorem ends_decideGroup {v : Vfs P} (empty : ps = [] → Moving txnid ps s₀ [] v)
    (queries : Ends (queryIntents (shares ps).rows)
      (fun intents v' => (∀ c ∈ intents, c.present = true) ∧ Moving txnid ps s₀ intents v')
      (Recorded txnid ps s₀) (fun _ => False) v) :
    Ends (decideGroup txnid (shares ps).rows) (fun _ v' => Recorded txnid ps s₀ v' ∧ Over txnid ps v'.store)
      (Recorded txnid ps s₀) (Recorded txnid ps s₀) v := by
  unfold decideGroup
  apply Ends.ite
  · intro none
    have nobody : ps = [] := by
      apply List.eq_nil_iff_forall_not_mem.mpr
      intro p there
      have mem := (mem_shares fellows).mpr ⟨p, there, rfl⟩
      rw [List.length_eq_zero_iff.mp none] at mem
      cases mem
    have moving := empty nobody
    apply (ends_dropRecord moving.decided).mono
    · rintro _ v₂ ⟨beside, filed, none⟩
      exact moving.ended beside filed (settled_of_dropped none)
    · rintro v₂ ⟨beside, store⟩
      exact (moving.beside beside store).recorded
    · rintro v₂ ⟨beside, store | ⟨filed, none⟩⟩
      · exact (moving.beside beside store).recorded
      · exact (moving.ended beside filed (settled_of_dropped none)).1
  · intro _
    apply queries.andThen _ (fun _ h => h) fun _ h => h.elim
    rintro intents v₂ ⟨present, moving⟩
    rw [if_pos (List.all_eq_true.mpr present)]
    exact ends_finishGroup fellows moving

/-- A recovery that finds the record moves every head, or stops with the group as committed as before. -/
theorem ends_recoverOne (offered : ∀ p ∈ ps, p.Offered) {v : Vfs P} (recorded : Recorded txnid ps s₀ v)
    (staging : Staging txnid ps v.store) :
    Ends (recoverOne txnid) (fun _ v' => Recorded txnid ps s₀ v' ∧ Over txnid ps v'.store)
      (Recorded txnid ps s₀) (Recorded txnid ps s₀) v := by
  rw [recoverOne_eq]
  apply (ends_readParts fellows staging recorded.whole).andThen _ (fun _ asked => recorded.asked asked)
    fun _ h => h.elim
  rintro parts v₁ ⟨rfl, asked⟩
  have recorded₁ := recorded.asked asked
  have staging₁ : Staging txnid ps v₁.store := by
    unfold Staging
    rw [asked.store]
    exact staging
  apply ends_decideGroup fellows
  · rintro rfl
    exact ⟨recorded₁.grouped, staging₁, recorded₁.decided, recorded₁.whole, fun _ none => (by cases none),
      fun _ none => (by cases none)⟩
  have named : ∀ row ∈ (shares ps).rows, ∃ p ∈ ps, row = (p.name, p.part) :=
    fun row mem => (mem_shares fellows).mp mem
  apply (ends_queryIntents fellows offered named recorded₁.grouped recorded₁.whole).mono _
    (fun _ asked' => recorded₁.asked asked') fun _ h => h
  rintro intents v₂ ⟨asked', sounds, all⟩
  have recorded₂ := recorded₁.asked asked'
  refine ⟨?_, recorded₂.grouped, ?_, recorded₂.decided, recorded₂.whole, ?_, ?_⟩
  · intro c mem
    obtain ⟨_, _, sound, _⟩ := sounds c mem
    exact sound.present
  · unfold Staging
    rw [asked'.store]
    exact staging₁
  · rw [asked'.store]
    exact sounds
  · intro p there
    obtain ⟨c, mem, same⟩ := all _ ((mem_shares fellows).mpr ⟨p, there, rfl⟩)
    exact Or.inr ⟨c, mem, same⟩

/-- No other group is staging. -/
def OnlyGroup (txnid : Nat) (s : Store P) : Prop := ∀ t, t ≠ txnid → t ∉ stagingRecords s

omit fellows in
/-- What a sweep finds of a group that is committed. -/
theorem Recorded.sweep {v : Vfs P} (recorded : Recorded txnid ps s₀ v) (only : OnlyGroup txnid s₀) :
    (Staging txnid ps v.store ∧ stagingRecords v.store = [txnid]) ∨
      (Over txnid ps v.store ∧ stagingRecords v.store = []) := by
  have others : ∀ t ∈ stagingRecords v.store, t = txnid := by
    intro t mem
    apply Classical.byContradiction
    intro other
    obtain ⟨r, there, staging⟩ := mem_stagingRecords.mp mem
    rw [recorded.grouped.records t other] at there
    exact only t other (mem_stagingRecords.mpr ⟨r, there, staging⟩)
  rcases recorded.record with staging | ended
  · refine Or.inl ⟨staging, stagingRecords_eq_singleton ?_ others⟩
    exact mem_stagingRecords.mpr ⟨_, staging, rfl⟩
  · refine Or.inr ⟨ended, List.eq_nil_iff_forall_not_mem.mpr fun t mem => ?_⟩
    cases others t mem
    obtain ⟨r, there, staging⟩ := mem_stagingRecords.mp mem
    exact ended.settled r there staging

/-- A recovery that comes back has moved every head, and one that does not leaves the group committed. -/
theorem Recorded.recovers (offered : ∀ p ∈ ps, p.Offered) {v : Vfs P} (recorded : Recorded txnid ps s₀ v)
    (only : OnlyGroup txnid s₀) :
    Ends weftTxnRecover (fun _ v' => Recorded txnid ps s₀ v' ∧ Over txnid ps v'.store) (Recorded txnid ps s₀)
      (Recorded txnid ps s₀) v := by
  have query : Ends (runQuery .ioerrRead sweepBody)
      (fun found v' => found = (stagingRecords v.store).take txnMaxRecover ∧ Asked v v') (Asked v)
      (fun _ => False) v := by
    apply ends_runQuery (I := fun a => ∀ n, Reply.cut n ∉ a.index) recorded.whole (fun n mem => by cases mem)
    intro a whole
    unfold sweepBody
    apply (ends_queryRange_whole _ whole).andThen _ (fun _ h => h) fun _ h => h
    rintro found _ rfl
    rfl
  unfold weftTxnRecover
  apply Ends.bind
  rw [Ends.read_iff, recoverPasses]
  apply query.andThen _ (fun _ asked => recorded.asked asked) fun _ h => h.elim
  rintro found v₁ ⟨rfl, asked⟩
  have recorded₁ := recorded.asked asked
  rcases recorded.sweep only with ⟨staging, one⟩ | ⟨ended, none⟩
  · rw [one]
    apply Ends.ite
    · intro empty
      cases empty
    · intro _
      have staging₁ : Staging txnid ps v₁.store := by
        unfold Staging
        rw [asked.store]
        exact staging
      have first : Ends (Action.forEach [txnid] recoverOne)
          (fun _ v' => Recorded txnid ps s₀ v' ∧ Over txnid ps v'.store) (Recorded txnid ps s₀)
          (Recorded txnid ps s₀) v₁ := by
        apply Ends.bind
        exact ends_recoverOne fellows offered recorded₁ staging₁
      apply first.andThen _ (fun _ h => h) fun _ h => h
      intro _ v₂ done
      apply Ends.ite
      · exact fun _ => done
      · intro full
        have less : ([txnid].take txnMaxRecover).length < txnMaxRecover := by simp [txnMaxRecover]
        exact absurd less full
  · rw [none]
    apply Ends.ite
    · intro _
      refine ⟨recorded₁, ?_⟩
      rw [asked.store]
      exact ended
    · intro some
      exact absurd rfl some

/-- Recoveries that may stop or fail, one after another. -/
def Recoveries (v v' : Vfs P) : Prop :=
  Relation.ReflTransGen (fun v v' => ∃ o, weftTxnRecover v = (o, v')) v v'

/-- However many recoveries stop or fail, the group stays committed. -/
theorem Recorded.survives (offered : ∀ p ∈ ps, p.Offered) {v v' : Vfs P} (recorded : Recorded txnid ps s₀ v)
    (only : OnlyGroup txnid s₀) (later : Recoveries v v') : Recorded txnid ps s₀ v' := by
  induction later with
  | refl => exact recorded
  | tail _ step ih =>
      obtain ⟨o, ran⟩ := step
      have ends := ih.recovers fellows offered only
      cases o with
      | ret done => exact (ends.ret ran).1
      | fail => exact ends.err ran
      | halt => exact ends.died ran

end Deciding

end GyreWard.Fdb
