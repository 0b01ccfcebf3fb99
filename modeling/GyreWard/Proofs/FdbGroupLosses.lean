/-
Module: GyreWard.Proofs.FdbGroupLosses
Purpose: What a commit across several databases loses: what a recovery is not told of an intent, what was committed
  while a recovery was on its way, and the other files of a group that is given up.
Trusted boundary: none
Main exports: Participant.told, ends_recoverOne_told, a_recovery_commits_what_it_is_told, ends_finishGroup_late,
  a_late_recovery_takes_commits_back, an_abandoned_group_is_committed_in_part
-/
import GyreWard.Proofs.FdbGroupCommit

namespace GyreWard.Fdb

open Lib
open Lib.Action (Ends)

variable {P α : Type}

/-! ### An intent that is read in part -/

/-- There are pages under the commit after the head, whether they are those of the buffer or not, or there is nothing
to commit. -/
structure Participant.Intended (p : Participant P) : Prop where
  synced : Synced p.file p.rows
  sane : Sane p.rows
  either :
    (p.txid = p.file.head + 1 ∧ (p.rows.delta p.txid).rows ≠ [] ∧ (p.rows.delta p.txid).rows.length ≤ 4096) ∨
      p.txid = p.file.head

/-- The pages that a recovery knows of when the read of the intent gives `n` rows. -/
def Participant.toldPages (n : Nat) (p : Participant P) : List (Nat × P) :=
  if p.file.head < p.txid then (p.rows.delta p.txid).rows.take n else []

/-- The participant that it finishes: it knows nothing of the buffer, nor of a truncate. -/
def Participant.told (n : Nat) (p : Participant P) : Participant P :=
  { p with file := { p.file with dirty := p.toldPages n, truncPages := none } }

/-- A recovery of which the read of each intent gives so many rows. -/
def cutReads (told : DbName → Nat) (rows : List (DbName × Part)) : List ReadAttempt :=
  rows.map fun row => { index := [.cut (told row.1)] }

section Told

variable {p : Participant P} {n : Nat}

theorem Participant.Intended.pages (intended : p.Intended) (above : p.file.head < p.txid) :
    (p.rows.delta p.txid).rows ≠ [] ∧ (p.rows.delta p.txid).rows.length ≤ 4096 := by
  rcases intended.either with ⟨_, pages⟩ | same
  · exact pages
  · omega

theorem Participant.Intended.told (intended : p.Intended) (n : Nat) : (p.told n).Staged where
  synced := by
    obtain ⟨fence, head, size, newest, logn, window, sorted⟩ := intended.synced
    refine ⟨fence, head, size, newest, logn, window, ?_⟩
    change Sorted (p.toldPages n)
    unfold Participant.toldPages
    split
    · exact (p.rows.delta p.txid).sorted.sublist (List.take_sublist _ _)
    · exact List.Pairwise.nil
  sane := intended.sane
  uncut := rfl
  landed := by
    intro above q page row
    have known : (p.told n).file.dirty = (p.rows.delta p.txid).rows.take n := if_pos above
    rw [known] at row
    exact Table.get_of_mem (List.mem_of_mem_take (mem_of_rowOf row))
  idle := fun within => if_neg (Nat.not_lt.mpr within)

/-- The intent that a recovery reads of a participant that is pending. -/
theorem ends_queryIntent_told {s : Store P} (intended : p.Intended) (some : 0 < n)
    (pending : p.Pending (s.dbs p.name)) :
    Ends (queryIntent p.name p.part s)
      (fun c _ => c.Sound (p.told n) ∧ (p.txid ≤ c.head → (p.told n).Done (s.dbs p.name))) (fun _ => False)
      (fun _ => False) { index := [.cut n] } := by
  have synced := intended.synced
  have head : (s.dbs p.name).head.getD 0 = p.file.head := by
    rw [pending]
    exact synced.head
  have still : (p.told n).Pending (s.dbs p.name) := pending
  unfold queryIntent
  apply Ends.bind
  apply Ends.ite
  · intro within
    refine ⟨⟨rfl, rfl, rfl, fun above => absurd within (Nat.not_le.mpr above)⟩, fun _ => still.done ?_⟩
    rw [head] at within
    exact within
  · intro above
    have beyond : p.file.head < p.txid := by
      rw [head] at above
      exact Nat.lt_of_not_le above
    obtain ⟨pages, short⟩ := intended.pages beyond
    have known : (p.told n).file.dirty = (p.rows.delta p.txid).rows.take n := if_pos beyond
    apply Ends.bind
    change Intent.Sound ⟨p.name, p.part, decide (0 < (((s.dbs p.name).delta p.txid).rows.take n).length), _,
      ((((s.dbs p.name).delta p.txid).rows.take n).map (·.1)).take 4096⟩ (p.told n) ∧ _
    have rows : s.dbs p.name = p.rows := pending
    rw [rows] at above ⊢
    refine ⟨⟨rfl, rfl, ?_, fun _ => ⟨beyond, ?_⟩⟩, fun within => absurd within above⟩
    · apply decide_eq_true
      rw [List.length_take]
      exact Nat.lt_min.mpr ⟨some, List.length_pos_iff.mpr pages⟩
    · rw [known]
      apply List.take_of_length_le
      rw [List.length_map, List.length_take]
      exact Nat.le_trans (Nat.min_le_right _ _) short

/-- A query gives what its first attempt gives when that goes well. -/
theorem ends_runQuery_first {v : Vfs P} {code : Code} {body : Store P → Action ReadAttempt α} {Q : α → Prop}
    {a : ReadAttempt} {rest : List ReadAttempt} (reads : v.reads = a :: rest)
    (spec : Ends (body v.store) (fun x _ => Q x) (fun _ => False) (fun _ => False) a) :
    Ends (runQuery code body) (fun x v' => Q x ∧ Asked v v' ∧ v'.reads = rest) (fun _ => False) (fun _ => False)
      v := by
  unfold Ends runQuery
  rw [reads, tryQuery]
  unfold Ends at spec
  rcases ran : body v.store a with ⟨_ | _ | _, left⟩ <;> rw [ran] at spec
  · refine ⟨spec, ⟨rfl, rfl, rfl, rfl, ?_⟩, rfl⟩
    rw [reads]
    exact List.suffix_cons _ _
  · exact spec.elim
  · exact spec.elim

end Told

section Recovery

variable {txnid : Nat} {ps : List (Participant P)} {told : DbName → Nat}

/-- What a recovery knows of the files of a group. -/
def toldOf (told : DbName → Nat) (ps : List (Participant P)) : List (Participant P) :=
  ps.map fun p => p.told (told p.name)

theorem shares_toldOf (told : DbName → Nat) (ps : List (Participant P)) : shares (toldOf told ps) = shares ps :=
  shares_map (fun p => p.told (told p.name)) (fun _ => rfl) (fun _ => rfl) ps

/-- The intents of a group whose reads are cut. -/
theorem ends_queryIntents_told {rows : List (DbName × Part)}
    (named : ∀ row ∈ rows, ∃ p ∈ ps, row = (p.name, p.part)) (intended : ∀ p ∈ ps, p.Intended)
    (some : ∀ p ∈ ps, 0 < told p.name) :
    ∀ {v : Vfs P}, (∀ p ∈ ps, p.Pending (v.store.dbs p.name)) → v.reads = cutReads told rows →
      Ends (queryIntents rows)
        (fun intents v' => (Asked v v' ∧ v'.reads = []) ∧
          (∀ c ∈ intents, ∃ p ∈ toldOf told ps, c.Sound p ∧ (p.txid ≤ c.head → p.Done (v.store.dbs p.name))) ∧
            ∀ row ∈ rows, ∃ c ∈ intents, c.name = row.1)
        (fun _ => False) (fun _ => False) v := by
  induction rows with
  | nil =>
      intro v _ reads
      exact ⟨⟨Asked.refl v, reads⟩, fun _ none => (by cases none), fun _ none => (by cases none)⟩
  | cons row rest ih =>
      intro v pending reads
      obtain ⟨p, there, rfl⟩ := named row List.mem_cons_self
      have spec := ends_queryIntent_told (intended p there) (some p there) (pending p there)
      have known : p.told (told p.name) ∈ toldOf told ps := List.mem_map_of_mem there
      rw [queryIntents]
      apply (ends_runQuery_first reads spec).andThen _ (fun _ h => h) fun _ h => h
      rintro c v₁ ⟨sound, asked, reads₁⟩
      rw [← asked.store] at pending
      have later := ih (fun row mem => named row (List.mem_cons_of_mem _ mem)) pending reads₁
      apply later.andThen _ (fun _ h => h) fun _ h => h
      rintro found v₂ ⟨⟨asked', reads₂⟩, sounds, all⟩
      rw [asked.store] at sounds
      refine ⟨⟨asked.trans asked', reads₂⟩, ?_, ?_⟩
      · intro c' mem
        rcases List.mem_cons.mp mem with rfl | mem
        · exact ⟨_, known, sound⟩
        · exact sounds c' mem
      · intro row mem
        rcases List.mem_cons.mp mem with rfl | mem
        · exact ⟨c, List.mem_cons_self, sound.1.name⟩
        · obtain ⟨c', mem', same⟩ := all row mem
          exact ⟨c', List.mem_cons_of_mem _ mem', same⟩

/-- What the rows hold when a recovery has finished a participant of which it was told. -/
theorem Participant.Intended.recovered {p : Participant P} {n : Nat} {db : Db P} (intended : p.Intended)
    (done : (p.told n).Done db) :
    Holds db (fun q => (rowOf (p.toldPages n) q).or (image p.rows q))
      (if p.file.head < p.txid then p.file.size else p.file.sentSize) := by
  have staged := intended.told n
  unfold Participant.Done at done
  by_cases within : p.txid ≤ p.file.head
  · have below : ¬ p.file.head < p.txid := Nat.not_lt.mpr within
    have clean : p.toldPages n = [] := if_neg below
    rw [if_pos (show (p.told n).txid ≤ (p.told n).file.head by exact within)] at done
    rw [done, if_neg below, clean]
    exact ⟨fun _ => rfl, intended.synced.size⟩
  · rw [if_neg (show ¬ (p.told n).txid ≤ (p.told n).file.head by exact within)] at done
    obtain ⟨logn, rfl⟩ := done
    have above : p.file.head < p.txid := Nat.lt_of_not_le within
    rw [if_pos above]
    exact ⟨image_putHead staged.sane staged.sorted (staged.fresh above) (staged.landed above), rfl⟩

section Finishing

variable (intended : ∀ p ∈ ps, p.Intended) (apart : ps.Pairwise fun p q => p.name ≠ q.name)
  (few : ps.length ≤ txnMaxParts)

include intended apart few

theorem fellows_toldOf : Fellows (toldOf told ps) := by
  refine ⟨fun p' there => ?_, List.pairwise_map.mpr apart, ?_⟩
  · obtain ⟨p, mem, rfl⟩ := List.mem_map.mp there
    exact (intended p mem).told _
  · rw [toldOf, List.length_map]
    exact few

/-- Every intent has been read, in part or as a whole. -/
theorem moving_toldOf {v v₁ : Vfs P} {intents : List Intent} (pending : ∀ p ∈ ps, p.Pending (v.store.dbs p.name))
    (staging : Staging txnid ps v.store) (decided : Decided v.attempts) (asked : Asked v v₁) (reads : v₁.reads = [])
    (sounds : ∀ c ∈ intents, ∃ p ∈ toldOf told ps, c.Sound p ∧ (p.txid ≤ c.head → p.Done (v.store.dbs p.name)))
    (all : ∀ row ∈ (shares ps).rows, ∃ c ∈ intents, c.name = row.1) :
    Moving txnid (toldOf told ps) v.store intents v₁ := by
  refine ⟨⟨fun _ _ => by rw [asked.store], ?_, fun _ _ => by rw [asked.store]⟩, ?_, ?_, ?_, ?_, ?_⟩
  · intro p' there
    obtain ⟨p, mem, rfl⟩ := List.mem_map.mp there
    rw [asked.store]
    exact Or.inl (pending p mem)
  · unfold Staging
    rw [asked.store, shares_toldOf]
    exact staging
  · rw [asked.attempts]
    exact decided
  · rw [reads]
    exact fun _ none => (by cases none)
  · rw [asked.store]
    exact sounds
  · intro p' there
    have row := (mem_shares (fellows_toldOf intended apart few)).mpr ⟨p', there, rfl⟩
    rw [shares_toldOf] at row
    exact Or.inr (all _ row)

/-- A recovery finishes the participants of which it was told. -/
theorem ends_recoverOne_told {v : Vfs P} (pending : ∀ p ∈ ps, p.Pending (v.store.dbs p.name))
    (staging : Staging txnid ps v.store) (decided : Decided v.attempts) (some : ∀ p ∈ ps, 0 < told p.name)
    (reads : v.reads = {} :: cutReads told (shares ps).rows) :
    Ends (recoverOne txnid) (fun _ v' => Over txnid (toldOf told ps) v'.store) (fun _ => True) (fun _ => True)
      v := by
  have fellows : Fellows (toldOf told ps) := fellows_toldOf intended apart few
  have parts : Ends (readParts txnid v.store) (fun rows _ => rows = (shares (toldOf told ps)).rows)
      (fun _ => False) (fun _ => False) {} := by
    change (((v.store.records.get txnid).getD {}).parts.rows).take txnMaxParts = _
    rw [staging]
    change (shares ps).rows.take txnMaxParts = _
    rw [← shares_toldOf told]
    exact List.take_of_length_le (length_shares fellows)
  have named : ∀ row ∈ (shares (toldOf told ps)).rows, ∃ p ∈ ps, row = (p.name, p.part) := by
    intro row mem
    obtain ⟨p', there, rfl⟩ := (mem_shares fellows).mp mem
    obtain ⟨p, mem', rfl⟩ := List.mem_map.mp there
    exact ⟨p, mem', rfl⟩
  rw [recoverOne_eq]
  apply (ends_runQuery_first reads parts).andThen _ (fun _ h => h.elim) fun _ h => h.elim
  rintro rows v₁ ⟨rfl, asked, reads₁⟩
  rw [← shares_toldOf told] at reads₁
  apply (@ends_decideGroup P txnid (toldOf told ps) v.store fellows v₁ _ _).mono (fun _ _ h => h.2)
    (fun _ _ => trivial) fun _ _ => trivial
  · intro nobody
    have none : (shares (toldOf told ps)).rows = [] := by
      rw [nobody]
      rfl
    rw [none] at reads₁
    apply moving_toldOf intended apart few pending staging decided asked reads₁ fun _ none => (by cases none)
    rw [← shares_toldOf told, none]
    exact fun _ none => (by cases none)
  · have pending₁ := pending
    rw [← asked.store] at pending₁
    apply (ends_queryIntents_told named intended some pending₁ reads₁).mono _ (fun _ h => h.elim) fun _ h => h
    rintro intents v₂ ⟨⟨asked', reads₂⟩, sounds, all⟩
    rw [asked.store] at sounds
    rw [shares_toldOf] at all
    refine ⟨fun c mem => ?_, moving_toldOf intended apart few pending staging decided (asked.trans asked') reads₂
      sounds all⟩
    obtain ⟨_, _, sound, _⟩ := sounds c mem
    exact sound.present

end Finishing

/-- A recovery that comes back has dropped the record. -/
theorem ends_recoverOne_dropped (txnid : Nat) (v : Vfs P) :
    Ends (recoverOne txnid) (fun _ v' => v'.store.records.get txnid = none) (fun _ => True) (fun _ => True) v := by
  have drops : ∀ v : Vfs P, Ends (runTxn .ioerrWrite (dropRecordBody txnid))
      (fun _ v' => v'.store.records.get txnid = none) (fun _ => True) (fun _ => True) v := by
    intro v
    apply (ends_anyTxn (I := fun _ => True) (Q := fun _ s => s.records.get txnid = none) trivial _).mono
    · exact fun _ _ h => h.2.2
    · exact fun _ _ => trivial
    · exact fun _ _ => trivial
    · rintro s _ s' - landed
      cases landed
      refine ⟨trivial, ?_⟩
      simp [Table.get_clear]
  unfold recoverOne
  apply Ends.last
  intro parts v₁
  apply Ends.ite
  · exact fun _ => drops v₁
  · intro _
    apply Ends.last
    intro intents v₂
    apply Ends.ite
    · exact fun _ => Ends.last fun _ _ => Ends.last fun _ v₃ => drops v₃
    · exact fun _ => Ends.last fun _ _ => Ends.last fun _ v₃ => drops v₃

/-- A recovery that comes back has dropped the record, and given each file the pages that it was told of, with the
size that goes with all of them.  Where the read of an intent is cut short the pages after it are lost, pages that
an earlier group left under the same commit come along, and what lies past a truncate stays. -/
theorem a_recovery_commits_what_it_is_told {v v' : Vfs P} (intended : ∀ p ∈ ps, p.Intended)
    (apart : ps.Pairwise fun p q => p.name ≠ q.name) (few : ps.length ≤ txnMaxParts)
    (pending : ∀ p ∈ ps, p.Pending (v.store.dbs p.name)) (staging : Staging txnid ps v.store)
    (decided : Decided v.attempts) (some : ∀ p ∈ ps, 0 < told p.name)
    (reads : v.reads = {} :: cutReads told (shares ps).rows) (ran : recoverOne txnid v = (.ret (), v')) :
    v'.store.records.get txnid = none ∧ ∀ p ∈ ps,
      Holds (v'.store.dbs p.name) (fun q => (rowOf (p.toldPages (told p.name)) q).or (image p.rows q))
        (if p.file.head < p.txid then p.file.size else p.file.sentSize) := by
  have ended := (ends_recoverOne_told intended apart few pending staging decided some reads).ret ran
  refine ⟨(ends_recoverOne_dropped txnid v).ret ran, fun p mem => ?_⟩
  exact (intended p mem).recovered (ended.done _ (List.mem_map_of_mem mem))

/-- A file of a group that has staged two pages. -/
def twoPages (name : DbName) : Participant Nat where
  file := { name, fence := 1, groupTxnid := 7, size := 2 * pageSize, dirty := [(0, 5), (1, 6)] }
  rows := { fence := some 1, delta := fun t => if t = 1 then (∅ : Table Nat Nat).setAll [(0, 5), (1, 6)] else ∅ }
  txid := 1

/-- What a committer left that stopped once the record was written. -/
def interrupted : Vfs Nat where
  store :=
    { dbs := fun n => (twoPages n).rows
      next := some 7
      records := (∅ : Table Nat Record).set 7
        { status := some .staging, parts := shares [twoPages world, twoPages attic] } }
  reads := {} :: cutReads (fun _ => 1) (shares [twoPages world, twoPages attic]).rows
  files := fun _ => { name := world }

def recoveredInPart : Vfs Nat := (recoverOne 7 interrupted).2

theorem intended_twoPages (name : DbName) : (twoPages name).Intended where
  synced := ⟨rfl, rfl, rfl, rfl, rfl, window_empty _ rfl, by simp [Sorted, twoPages]⟩
  sane := by
    apply (sane_fenced (some 1)).delta
    intro t below
    exact if_neg fun one => absurd (one ▸ below) (by decide)
  either := by
    have pages : ((twoPages name).rows.delta 1).rows = [(0, 5), (1, 6)] := rfl
    refine Or.inl ⟨rfl, ?_, ?_⟩
    · exact pages ▸ List.cons_ne_nil _ _
    · exact pages ▸ (by decide : 2 ≤ 4096)

theorem a_page_of_each_file_is_lost :
    (image (recoveredInPart.store.dbs world) 0 = some 5 ∧ image (recoveredInPart.store.dbs world) 1 = none) ∧
      recoveredInPart.store.records.get 7 = none := by
  have comes : recoverOne 7 interrupted = (.ret (), recoveredInPart) := ran (by decide +kernel) rfl
  have staging : Staging 7 [twoPages world, twoPages attic] interrupted.store := Table.get_set_self _ _ _
  have intended : ∀ p ∈ [twoPages world, twoPages attic], p.Intended := by
    intro p mem
    rcases List.mem_pair.mp mem with rfl | rfl
    · exact intended_twoPages _
    · exact intended_twoPages _
  have pending : ∀ p ∈ [twoPages world, twoPages attic], p.Pending (interrupted.store.dbs p.name) := by
    intro p mem
    rcases List.mem_pair.mp mem with rfl | rfl
    · rfl
    · rfl
  have apart : [twoPages world, twoPages attic].Pairwise fun p q => p.name ≠ q.name := by
    simp [Participant.name, twoPages, world, attic]
  have told : ∀ p ∈ [twoPages world, twoPages attic], 0 < (fun _ : DbName => 1) p.name := fun _ _ => Nat.one_pos
  obtain ⟨dropped, holds⟩ := a_recovery_commits_what_it_is_told intended apart (by decide) pending staging trivial
    told rfl comes
  have pages := (holds (twoPages world) List.mem_cons_self).pages
  exact ⟨⟨(pages 0).trans rfl, (pages 1).trans rfl⟩, dropped⟩

end Recovery

/-! ### A recovery that comes late -/

/-- What a recovery makes of the rows of a participant, whatever they are. -/
structure TakenBack (c : Intent) (db db' : Db P) : Prop where
  head : db'.head = some c.part.txid
  size : db'.size = some c.part.size
  fence : db'.fence = db.fence
  delta : db'.delta = db.delta
  index : ∀ q, db'.pidx.get q = if q ∈ c.pgnos then some c.part.txid else db.pidx.get q

section Late

variable {v v₁ v₂ : Vfs P} {c : Intent}

/-- It does not look at what has happened since the intent was read. -/
theorem ends_resolveBody_late (decided : Decided v.attempts) (c : Intent) :
    Ends (runTxn .ioerrWrite (resolveBody c))
      (fun _ v' => Beside v v' ∧ Elsewhere c.name v.store v'.store ∧
        (c.head < c.part.txid → TakenBack c (v.store.dbs c.name) (v'.store.dbs c.name)))
      (fun _ => True) (fun _ => True) v := by
  let After : Unit → Store P → Prop := fun _ s => Elsewhere c.name v.store s ∧
    (c.head < c.part.txid → TakenBack c (v.store.dbs c.name) (s.dbs c.name))
  have lands : ∀ s : Store P, Elsewhere c.name v.store s →
      (c.head < c.part.txid → (s.dbs c.name).fence = (v.store.dbs c.name).fence ∧
        (s.dbs c.name).delta = (v.store.dbs c.name).delta ∧
        ∀ q, q ∉ c.pgnos → (s.dbs c.name).pidx.get q = (v.store.dbs c.name).pidx.get q) →
      ∃ s', resolveBody c s = .ok ((), s') ∧ After () s' := by
    intro s elsewhere rows
    unfold resolveBody
    by_cases within : c.part.txid ≤ c.head
    · rw [if_pos within]
      exact ⟨s, rfl, elsewhere, fun stale => absurd within (Nat.not_le.mpr stale)⟩
    · rw [if_neg within]
      refine ⟨_, rfl, elsewhere.trans (Elsewhere.onDb _ _ _), fun stale => ?_⟩
      obtain ⟨fence, delta, index⟩ := rows stale
      rw [onDb_same]
      refine ⟨rfl, rfl, fence, delta, fun q => ?_⟩
      dsimp only
      rw [Table.get_setAll_const]
      split
      · rfl
      · exact index q ‹_›
  have run : ∀ a s', resolveBody c v.store = .ok (a, s') → After a s' := by
    intro _ s' landed
    obtain ⟨s, landed', after⟩ := lands v.store (Elsewhere.refl _ _) fun _ => ⟨rfl, rfl, fun _ _ => rfl⟩
    rw [landed'] at landed
    cases landed
    exact after
  have again : ∀ a s, After a s → ∃ a' s', resolveBody c s = .ok (a', s') ∧ After a' s' := by
    rintro _ s ⟨elsewhere, back⟩
    obtain ⟨s', landed, after⟩ := lands s elsewhere fun stale =>
      ⟨(back stale).fence, (back stale).delta, fun q other => by rw [(back stale).index, if_neg other]⟩
    exact ⟨(), s', landed, after⟩
  exact (ends_runTxn decided run again).mono (fun _ _ h => h) (fun _ _ => trivial) fun _ _ => trivial

/-- The participants of the intents `rest` are as they were. -/
structure Trailing (intents : List Intent) (v : Vfs P) (rest : List Intent) (v' : Vfs P) : Prop where
  decided : Decided v'.attempts
  records : v'.store.records = v.store.records
  apart : rest.Pairwise fun c d => c.name ≠ d.name
  within : ∀ c ∈ rest, c ∈ intents
  rows : ∀ c ∈ rest, v'.store.dbs c.name = v.store.dbs c.name
  done : ∀ c ∈ intents, c ∈ rest ∨
    (c.head < c.part.txid → TakenBack c (v.store.dbs c.name) (v'.store.dbs c.name))

theorem Trailing.next {intents rest : List Intent} {v' v'' : Vfs P}
    (apart : ∀ d ∈ intents, d.name = c.name → d = c) (trailing : Trailing intents v (c :: rest) v')
    (beside : Beside v' v'') (elsewhere : Elsewhere c.name v'.store v''.store)
    (back : c.head < c.part.txid → TakenBack c (v'.store.dbs c.name) (v''.store.dbs c.name)) :
    Trailing intents v rest v'' := by
  obtain ⟨others, later⟩ := List.pairwise_cons.mp trailing.apart
  refine ⟨beside.decided, elsewhere.records.trans trailing.records, later,
    fun d mem => trailing.within d (List.mem_cons_of_mem _ mem), ?_, ?_⟩
  · intro d mem
    rw [elsewhere.dbs _ (Ne.symm (others d mem))]
    exact trailing.rows d (List.mem_cons_of_mem _ mem)
  · intro d there
    by_cases here : d.name = c.name
    · cases apart d there here
      rw [← trailing.rows c List.mem_cons_self]
      exact Or.inr back
    · rw [elsewhere.dbs _ here]
      rcases trailing.done d there with mem | done
      · rcases List.mem_cons.mp mem with rfl | mem
        · exact absurd rfl here
        · exact Or.inl mem
      · exact Or.inr done

/-- A recovery that has read its intents takes back what it finds. -/
theorem ends_finishGroup_late {txnid : Nat} {intents : List Intent} (decided : Decided v.attempts)
    (apart : intents.Pairwise fun c d => c.name ≠ d.name) (settled : stagingRecords v.store = []) :
    Ends (finishGroup txnid intents)
      (fun _ v' => Decided v'.attempts ∧ stagingRecords v'.store = [] ∧ ∀ c ∈ intents, c.head < c.part.txid →
        TakenBack c (v.store.dbs c.name) (v'.store.dbs c.name))
      (fun _ => True) (fun _ => True) v := by
  have same : ∀ c ∈ intents, ∀ d ∈ intents, d.name = c.name → d = c := by
    intro c first d second here
    have symm : Std.Symm fun c d : Intent => c.name ≠ d.name := ⟨fun _ _ => Ne.symm⟩
    apply Classical.byContradiction
    intro other
    exact apart.forall second first other here
  have resolves : Ends (Action.forEach intents fun c => runTxn .ioerrWrite (resolveBody c))
      (fun _ => Trailing intents v []) (fun _ => True) (fun _ => True) v := by
    have start : Trailing intents v intents v :=
      ⟨decided, rfl, apart, fun _ mem => mem, fun _ _ => rfl, fun _ mem => Or.inl mem⟩
    apply Ends.forEach start
    intro c rest v' trailing
    apply (ends_resolveBody_late trailing.decided c).mono _ (fun _ h => h) fun _ h => h
    rintro _ v'' ⟨beside, elsewhere, back⟩
    exact trailing.next (same c (trailing.within c List.mem_cons_self)) beside elsewhere back
  unfold finishGroup
  apply resolves.andThen _ (fun _ h => h) fun _ h => h
  intro _ v' trailing
  apply (ends_setStatus trailing.decided .committed).andThen _ (fun _ _ => trivial) fun _ _ => trivial
  rintro _ v'' ⟨beside, filed, -⟩
  apply (ends_dropRecord beside.decided).mono _ (fun _ _ => trivial) fun _ _ => trivial
  rintro _ v₃ ⟨beside', filed', none⟩
  refine ⟨beside'.decided, List.eq_nil_iff_forall_not_mem.mpr fun t mem => ?_, ?_⟩
  · obtain ⟨r, there, status⟩ := mem_stagingRecords.mp mem
    by_cases this : t = txnid
    · rw [this, none] at there
      cases there
    · rw [filed'.records t this, filed.records t this, trailing.records] at there
      have staging := mem_stagingRecords.mpr ⟨r, there, status⟩
      rw [settled] at staging
      cases staging
  · intro c mem stale
    rw [filed'.dbs, filed.dbs]
    exact (trailing.done c mem).resolve_left (fun none => by cases none) stale

/-- What opening a database makes of its rows, whatever they are. -/
structure Reopens (db : Db P) (g : FdbFile P) (db' : Db P) : Prop where
  head : g.head = headOf db
  size : g.size = db.size.getD 0
  rows : ∃ fence, db' = { dropUnfinishedCommit db with fence }

theorem dropUnfinishedCommit_twice (db : Db P) (fence : Option Nat) :
    dropUnfinishedCommit { dropUnfinishedCommit db with fence } = { dropUnfinishedCommit db with fence } := by
  unfold dropUnfinishedCommit
  dsimp only
  congr 1
  funext t
  split
  · rfl
  · rfl

theorem reopens_openBody {db : Db P} {name : DbName} {s : Store P}
    (rows : s.dbs name = db ∨ ∃ fence, s.dbs name = { dropUnfinishedCommit db with fence }) :
    ∃ g s', openBody name s = .ok (g, s') ∧ Reopens db g (s'.dbs name) := by
  have same : headOf (s.dbs name) = headOf db ∧ (s.dbs name).size = db.size := by
    rcases rows with rows | ⟨_, rows⟩
    · rw [rows]
      exact ⟨rfl, rfl⟩
    · rw [rows]
      exact ⟨rfl, rfl⟩
  refine ⟨_, _, rfl, same.1, congrArg (Option.getD · 0) same.2, some (raisedFence (s.dbs name)), ?_⟩
  rw [onDb_same]
  rcases rows with rows | ⟨_, rows⟩
  · rw [rows]
  · rw [rows, dropUnfinishedCommit_twice]

theorem ends_vfsOpen_any {k : Nat} {name : DbName} (decided : Decided v.attempts)
    (settled : stagingRecords v.store = []) :
    Ends (vfsOpen k name) (fun _ v' => Reopens (v.store.dbs name) (v'.files k) (v'.store.dbs name))
      (fun _ => True) (fun _ => True) v := by
  unfold vfsOpen
  apply (ends_weftTxnRecover settled).andThen _ (fun _ _ => trivial) fun _ h => h.elim
  intro _ v₁ asked
  let After : FdbFile P → Store P → Prop := fun g s => Reopens (v.store.dbs name) g (s.dbs name)
  have start : Decided v₁.attempts := by
    rw [asked.attempts]
    exact decided
  have run : ∀ g s', openBody name v₁.store = .ok (g, s') → After g s' := by
    intro g s' opened
    have rows : v₁.store.dbs name = v.store.dbs name := by rw [asked.store]
    obtain ⟨g', s, opened', reopens⟩ := reopens_openBody (Or.inl rows)
    rw [opened'] at opened
    cases opened
    exact reopens
  have again : ∀ g s, After g s → ∃ g' s', openBody name s = .ok (g', s') ∧ After g' s' :=
    fun g s reopens => reopens_openBody (Or.inr reopens.rows)
  apply (ends_runTxn start run again).andThen _ (fun _ _ => trivial) fun _ _ => trivial
  rintro g v₂ ⟨-, reopens⟩
  change Reopens _ ((v₂.onFile k fun _ => g).files k) (v₂.store.dbs name)
  rw [onFile_self]
  exact reopens

end Late

/-- The intents that a recovery reads of the group that was interrupted. -/
def lateIntents : List Intent :=
  [twoPages world, twoPages attic].map fun p => ⟨p.name, p.part, true, 0, [0, 1]⟩

example :
    (queryIntents (shares [twoPages world, twoPages attic]).rows { interrupted with reads := [] }).1 =
      .ret lateIntents := rfl

/-- Another process opens one of the files, which finishes the group, writes a third page and syncs. -/
def openAndWrite : Action (Vfs Nat) Unit := do
  vfsOpen 0 world
  setFile 0 fun f => { f with dirty := [(2, 9)], size := 3 * pageSize }
  flush 0

def recommitted : Vfs Nat := (openAndWrite { interrupted with reads := [] }).2

/-- The first recovery goes on. -/
def takenBack : Vfs Nat := (finishGroup 7 lateIntents recommitted).2

def reopenedLate : Vfs Nat := (vfsOpen 1 world takenBack).2

theorem finished_late : finishGroup 7 lateIntents recommitted = (.ret (), takenBack) :=
  ran (by decide +kernel) rfl

theorem opened_late : vfsOpen 1 world takenBack = (.ret (), reopenedLate) :=
  ran (by decide +kernel) rfl

section Abandoned

variable {hs : List Nat} {v v₁ v₂ : Vfs P} {h : Nat}

/-- What giving a group up leaves of it. -/
structure Closed (v v' : Vfs P) : Prop where
  store : v'.store = v.store
  attempts : v'.attempts = v.attempts
  reads : v'.reads = v.reads
  files : ∀ i, v'.files i =
    if v.group.parts.any fun part => part.1 = i then { v.files i with groupTxnid := 0 } else v.files i

theorem ends_weftTxnAbort_closed (isOpen : v.group.isOpen = true) :
    Ends (weftTxnAbort v.group.txnid) (fun _ => Closed v) (fun _ => False) (fun _ => False) v := by
  unfold weftTxnAbort
  apply Ends.bind
  rw [Ends.read_iff]
  apply Ends.ite
  · rintro (closed | other)
    · exact closed isOpen
    · exact other rfl
  · exact fun _ => ⟨rfl, rfl, rfl, fun _ => rfl⟩

/-- A file whose group is given up is one that is owned, with its buffer as it was. -/
theorem Syncing.closed {done : List Nat} (joined : Joined hs v) (syncing : Syncing hs v done v₁) (mem : h ∈ hs)
    (closed : Closed v₁ v₂) : Owns v₂ h ∧ v₂.files h = { v.files h with groupTxnid := 0 } := by
  have owns := joined.owns h mem
  have there : (v₁.group.parts.any fun part => part.1 = h) = true := by
    rw [syncing.parts]
    apply List.any_eq_true.mpr
    exact ⟨_, List.mem_map_of_mem mem, decide_eq_true rfl⟩
  have file : v₂.files h = { v.files h with groupTxnid := 0 } := by
    rw [closed.files, if_pos there, syncing.files]
  have both : Synced (v.files h) (v₂.store.dbs (v.files h).name) ∧ Sane (v₂.store.dbs (v.files h).name) := by
    rw [closed.store, syncing.rows h mem]
    split
    · exact ⟨owns.synced.staged owns.sane, owns.sane.staged owns.synced⟩
    · exact ⟨owns.synced, owns.sane⟩
  obtain ⟨⟨fence, head, size, newest, logn, window, sorted⟩, sane⟩ := both
  refine ⟨⟨?_, ?_, ?_, ?_⟩, file⟩
  · rw [file]
    exact ⟨fence, head, size, newest, logn, window, sorted⟩
  · rw [file]
    exact sane
  · rw [closed.attempts]
    exact syncing.decided
  · rw [closed.reads, syncing.reads]
    exact owns.shards

/-- A group whose files have been synced and that is given up leaves their buffers: the next sync of one of the files
commits what it wrote in the group, and the others have what they had. -/
theorem an_abandoned_group_is_committed_in_part {syncs : List Nat} (joined : Joined hs v)
    (within : ∀ i ∈ syncs, i ∈ hs)
    (gaveUp : (do Action.forEach syncs flush; weftTxnAbort v.group.txnid) v = (.ret (), v₁)) (mem : h ∈ hs)
    (synced : flush h v₁ = (.ret (), v₂)) :
    Holds (v₂.store.dbs (v.files h).name) (view (v.files h) (v.store.dbs (v.files h).name)) (v.files h).size ∧
      ∀ i ∈ hs, i ≠ h → Holds (v₂.store.dbs (v.files i).name) (image (v.store.dbs (v.files i).name))
        (v.files i).sentSize := by
  have ends : Ends (do Action.forEach syncs flush; weftTxnAbort v.group.txnid)
      (fun _ v' => ∃ done v₀, Syncing hs v done v₀ ∧ Closed v₀ v') (fun _ => True) (fun _ => True) v := by
    apply (ends_syncs joined within).andThen _ (fun _ _ => trivial) fun _ _ => trivial
    rintro _ v₀ ⟨done, -, syncing⟩
    rw [← syncing.txnid]
    apply (ends_weftTxnAbort_closed syncing.isOpen).mono _ (fun _ h => h.elim) fun _ h => h.elim
    exact fun _ v' closed => ⟨done, v₀, syncing, closed⟩
  obtain ⟨done, v₀, syncing, closed⟩ := ends.ret gaveUp
  have before := (syncing.unrecorded joined).rows
  rw [← closed.store] at before
  obtain ⟨owns, file⟩ := syncing.closed joined mem closed
  have alone : (v₁.files h).groupTxnid = 0 := by rw [file]
  obtain ⟨aside, -, -, after⟩ := (ends_flush owns alone).ret synced
  have mine := joined.owns h mem
  constructor
  · unfold After at after
    rw [file] at after
    have merges : ∀ q, merged { v.files h with groupTxnid := 0 } (v₁.store.dbs (v.files h).name) q =
        view (v.files h) (v.store.dbs (v.files h).name) q := by
      intro q
      have kept : ¬ Dropped { v.files h with groupTxnid := 0 } q := by simp [Dropped, joined.uncut h mem]
      unfold merged
      rw [if_neg kept]
      change (rowOf (v.files h).dirty q).or _ = (rowOf (v.files h).dirty q).or _
      congr 1
      rcases before h mem with same | staged
      · rw [same]
      · rw [staged, image_stagedRows mine.synced mine.sane]
    exact ⟨fun q => (after.pages q).trans (merges q), after.size⟩
  · intro i there other
    have apart : (v.files i).name ≠ (v₁.files h).name := by
      rw [file]
      exact fun same => other (joined.same there mem same)
    have theirs := joined.owns i there
    rw [aside.store.dbs _ apart]
    rcases before i there with same | staged
    · rw [same]
      exact ⟨fun _ => rfl, theirs.synced.size⟩
    · rw [staged]
      exact ⟨image_stagedRows theirs.synced theirs.sane, by rw [size_stagedRows, theirs.synced.size]⟩

def abandoned : Vfs Nat := ((do Action.forEach [0, 1] flush; weftTxnAbort 7 : Action (Vfs Nat) Unit) (pair [])).2

def halfCommitted : Vfs Nat := (flush 0 abandoned).2

theorem abandons : (do Action.forEach [0, 1] flush; weftTxnAbort 7 : Action (Vfs Nat) Unit) (pair []) =
    (.ret (), abandoned) :=
  ran (by decide +kernel) rfl

theorem half_commits : flush 0 abandoned = (.ret (), halfCommitted) := ran (by decide +kernel) rfl

theorem one_of_a_pair_is_committed :
    image (halfCommitted.store.dbs world) 0 = some 5 ∧ image (halfCommitted.store.dbs attic) 0 = none := by
  have joined : Joined [0, 1] (pair []) := joined_pair (show Decided [] by trivial)
  have committed := an_abandoned_group_is_committed_in_part joined (fun i mem => mem) abandons
    List.mem_cons_self half_commits
  have other := committed.2 1 (by decide) (by decide)
  exact ⟨(committed.1.pages 0).trans rfl, (other.pages 0).trans rfl⟩

end Abandoned

end GyreWard.Fdb
