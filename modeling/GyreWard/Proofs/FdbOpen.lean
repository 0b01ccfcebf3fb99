/-
Module: GyreWard.Proofs.FdbOpen
Purpose: Opening a database gives the file that its rows hold, and takes it from whoever had it.
Trusted boundary: none
Main exports: Opens, Opened, ends_vfsOpen
-/
import GyreWard.Proofs.FdbStrangers

namespace GyreWard.Fdb

open Lib
open Lib.Action (Ends)

variable {P α : Type}

/-! ### Queries -/

/-- What a transaction that only asks leaves alone. -/
structure Asked (v v' : Vfs P) : Prop where
  store : v'.store = v.store
  files : v'.files = v.files
  group : v'.group = v.group
  attempts : v'.attempts = v.attempts
  reads : v'.reads <:+ v.reads

theorem Asked.refl (v : Vfs P) : Asked v v := ⟨rfl, rfl, rfl, rfl, List.suffix_refl _⟩

theorem Asked.trans {v v' v'' : Vfs P} (first : Asked v v') (second : Asked v' v'') : Asked v v'' where
  store := second.store.trans first.store
  files := second.files.trans first.files
  group := second.group.trans first.group
  attempts := second.attempts.trans first.attempts
  reads := second.reads.trans first.reads

theorem Asked.shards {v v' : Vfs P} (asked : Asked v v') (shards : ShardsRead v.reads) : ShardsRead v'.reads :=
  fun a mem => shards a (asked.reads.subset mem)

theorem tryQuery_gives {body : Action ReadAttempt α} {Q : α → Prop} {I : ReadAttempt → Prop} (whole : I {})
    (spec : ∀ a, I a → Ends body (fun x _ => Q x) (fun _ => True) (fun _ => False) a) :
    ∀ reads : List ReadAttempt, (∀ a ∈ reads, I a) →
      match tryQuery body reads with
      | (.ret x, rest) => Q x ∧ rest <:+ reads
      | (.fail, rest) => rest <:+ reads
      | (.halt, _) => False := by
  intro reads
  induction reads with
  | nil =>
      intro _
      have given := spec {} whole
      unfold Ends at given
      rw [tryQuery]
      rcases ran : body {} with ⟨o, left⟩
      rw [ran] at given
      cases o with
      | ret x => exact ⟨given, List.suffix_refl _⟩
      | fail => exact List.suffix_refl _
      | halt => exact given
  | cons a rest ih =>
      intro all
      have given := spec a (all a List.mem_cons_self)
      have later := ih fun b mem => all b (List.mem_cons_of_mem _ mem)
      unfold Ends at given
      rw [tryQuery]
      rcases ran : body a with ⟨_ | _ | _, left⟩ <;> rw [ran] at given
      · exact ⟨given, List.suffix_cons _ _⟩
      · dsimp only
        by_cases fatal : a.fatal = true
        · rw [if_pos fatal]
          exact List.suffix_cons _ _
        · rw [if_neg fatal]
          rcases again : tryQuery body rest with ⟨_ | _ | _, left'⟩ <;> rw [again] at later
          · exact ⟨later.1, later.2.trans (List.suffix_cons _ _)⟩
          · exact later.trans (List.suffix_cons _ _)
          · exact later
      · exact given

/-- A transaction that only asks gives what its body gives, or fails. -/
theorem ends_runQuery {v : Vfs P} {code : Code} {body : Store P → Action ReadAttempt α} {Q : α → Prop}
    {I : ReadAttempt → Prop} (all : ∀ a ∈ v.reads, I a) (whole : I {})
    (spec : ∀ a, I a → Ends (body v.store) (fun x _ => Q x) (fun _ => True) (fun _ => False) a) :
    Ends (runQuery code body) (fun x v' => Q x ∧ Asked v v') (Asked v) (fun _ => False) v := by
  have given := tryQuery_gives whole spec v.reads all
  unfold Ends runQuery
  rcases asked : tryQuery (body v.store) v.reads with ⟨_ | _ | _, rest⟩ <;> rw [asked] at given
  · exact ⟨given.1, rfl, rfl, rfl, rfl, given.2⟩
  · exact ⟨rfl, rfl, rfl, rfl, given⟩
  · exact given

theorem ends_queryRow (value : Option α) (a : ReadAttempt) :
    Ends (queryRow value) (fun x a' => x = value ∧ a'.index = a.index) (fun _ => True) (fun _ => False) a := by
  unfold Ends queryRow
  rcases a.gets with _ | ⟨_ | _, rest⟩
  · exact ⟨rfl, rfl⟩
  · exact ⟨rfl, rfl⟩
  · trivial

theorem rows_of_answer {rows found : List α} {replies rest : List Reply} {more : Bool}
    (said : answer rows replies = (some (found, more), rest)) : found.Sublist rows := by
  unfold answer at said
  split at said
  · cases said
    exact List.Sublist.refl _
  · cases said
    exact List.Sublist.refl _
  · cases said
    exact List.take_sublist _ _
  · cases said

theorem ends_queryRange (rows : List α) (a : ReadAttempt) :
    Ends (queryRange rows) (fun found _ => found.Sublist rows) (fun _ => True) (fun _ => False) a := by
  unfold Ends queryRange
  rcases said : answer rows a.index with ⟨_ | ⟨found, more⟩, rest⟩
  · trivial
  · exact rows_of_answer said

/-! ### Nothing to recover -/

/-- The groups that are staging. -/
def stagingRecords (s : Store P) : List Nat := (sweptRows s).filterMap id

theorem stagingRecords_eq (s : Store P) :
    stagingRecords s = (s.records.rows.flatMap fun r => sweptRecord r.1 r.2).filterMap id := by
  unfold stagingRecords sweptRows
  cases s.next <;> simp

theorem settled_of_records {s s' : Store P} (records : s'.records = s.records) (settled : stagingRecords s = []) :
    stagingRecords s' = [] := by
  rw [stagingRecords_eq, records, ← stagingRecords_eq]
  exact settled

/-- Where no group is staging there is nothing to recover, however little of the rows a sweep is given. -/
theorem ends_weftTxnRecover {v : Vfs P} (settled : stagingRecords v.store = []) :
    Ends weftTxnRecover (fun _ => Asked v) (Asked v) (fun _ => False) v := by
  have sweep : ∀ a : ReadAttempt, True → Ends (sweepBody v.store) (fun found _ => found = []) (fun _ => True)
      (fun _ => False) a := by
    intro a _
    apply (ends_queryRange (sweptRows v.store) a).andThen _ (fun _ h => h) fun _ h => h
    intro found _ less
    have none : found.filterMap id = [] := by
      apply List.sublist_nil.mp
      rw [← settled]
      exact less.filterMap id
    change (found.filterMap id).take _ = []
    rw [none]
    rfl
  unfold weftTxnRecover
  apply Ends.bind
  rw [Ends.read_iff, recoverPasses]
  apply (ends_runQuery (fun _ _ => trivial) trivial sweep).andThen _ (fun _ h => h) fun _ h => h
  rintro staging v₁ ⟨rfl, asked⟩
  exact asked

/-! ### Opening -/

/-- What opening a database may have done to the store: another owner, and the file as it was. -/
structure Opens (name : DbName) (s s' : Store P) : Prop where
  elsewhere : Elsewhere name s s'
  sane : Sane (s'.dbs name)
  image : ∀ p, image (s'.dbs name) p = image (s.dbs name) p
  size : (s'.dbs name).size = (s.dbs name).size
  fence : ∀ n, (s.dbs name).fence = some n → ∃ m, (s'.dbs name).fence = some m ∧ n ≤ m

theorem Opens.refl {name : DbName} {s : Store P} (sane : Sane (s.dbs name)) : Opens name s s :=
  ⟨Elsewhere.refl _ _, sane, fun _ => rfl, rfl, fun n there => ⟨n, there, Nat.le_refl _⟩⟩

/-- The file that opening gives. -/
structure Opened (name : DbName) (s s' : Store P) (g : FdbFile P) : Prop where
  opens : Opens name s s'
  synced : Synced g (s'.dbs name)
  named : g.name = name
  size : g.size = (s.dbs name).size.getD 0
  clean : g.dirty = []
  uncut : g.truncPages = none
  alone : g.groupTxnid = 0
  newer : ∀ n, (s.dbs name).fence = some n → n < g.fence

/-- Opening from a store that opening may have left. -/
theorem opened_openBody {name : DbName} {s s₀ s' : Store P} {g : FdbFile P} (before : Opens name s s₀)
    (ran : openBody name s₀ = .ok (g, s')) : Opened name s s' g := by
  obtain ⟨synced, same⟩ := synced_open ran
  unfold openBody at ran
  simp only [Except.ok.injEq, Prod.mk.injEq] at ran
  obtain ⟨rfl, rfl⟩ := ran
  have raised : ∀ n, (s.dbs name).fence = some n → n < raisedFence (s₀.dbs name) := by
    intro n there
    obtain ⟨m, found, le⟩ := before.fence n there
    unfold raisedFence
    rw [found]
    exact Nat.lt_succ_of_le le
  refine ⟨⟨before.elsewhere.trans (Elsewhere.onDb _ _ _), ?_, ?_, ?_, ?_⟩, synced, same, ?_, rfl, rfl, rfl,
    raised⟩
  · rw [onDb_same]
    exact before.sane.opened _
  · intro p
    rw [onDb_same, image_dropUnfinishedCommit before.sane, before.image]
  · rw [onDb_same]
    exact before.size
  · intro n there
    rw [onDb_same]
    exact ⟨_, rfl, Nat.le_of_lt (raised n there)⟩
  · exact congrArg (Option.getD · 0) before.size

theorem openBody_ok (name : DbName) (s : Store P) : ∃ g s', openBody name s = .ok (g, s') := ⟨_, _, rfl⟩

/-- Opening a database that no group is staging on. -/
theorem ends_vfsOpen {v : Vfs P} {k : Nat} {name : DbName} (sane : Sane (v.store.dbs name))
    (decided : Decided v.attempts) (shards : ShardsRead v.reads) (settled : stagingRecords v.store = []) :
    Ends (vfsOpen k name)
      (fun _ v' => Opened name v.store v'.store (v'.files k) ∧ (∀ i, i ≠ k → v'.files i = v.files i) ∧
        v'.group = v.group ∧ Decided v'.attempts ∧ ShardsRead v'.reads)
      (fun v' => v'.store = v.store ∧ v'.files = v.files ∧ v'.group = v.group ∧ Decided v'.attempts ∧
        ShardsRead v'.reads)
      (fun v' => (v'.store = v.store ∨ ∃ g, Opened name v.store v'.store g) ∧ v'.files = v.files ∧
        v'.group = v.group ∧ Decided v'.attempts ∧ ShardsRead v'.reads) v := by
  unfold vfsOpen
  apply (ends_weftTxnRecover settled).andThen
  · intro _ v₁ asked
    have later := asked.shards shards
    have run : ∀ g s', openBody name v₁.store = .ok (g, s') → Opened name v.store s' g := by
      rw [asked.store]
      exact fun g s' ran => opened_openBody (Opens.refl sane) ran
    have again : ∀ g s, Opened name v.store s g →
        ∃ g' s', openBody name s = .ok (g', s') ∧ Opened name v.store s' g' := by
      intro g s opened
      obtain ⟨g', s', ran⟩ := openBody_ok name s
      exact ⟨g', s', ran, opened_openBody opened.opens ran⟩
    have start : Decided v₁.attempts := by
      rw [asked.attempts]
      exact decided
    apply (@ends_runTxn P _ _ _ v₁ (fun g s => Opened name v.store s g) start run again).andThen
    · rintro g v₂ ⟨beside, opened⟩
      change Opened name v.store v₂.store ((v₂.onFile k fun _ => g).files k) ∧ _
      rw [onFile_self]
      refine ⟨opened, fun i other => ?_, beside.group.trans asked.group, beside.decided, ?_⟩
      · have kept : (v₂.onFile k fun _ => g).files i = v₂.files i := onFile_other other _ v₂
        exact kept.trans (congrFun (beside.files.trans asked.files) i)
      · change ShardsRead v₂.reads
        rw [beside.reads]
        exact later
    · rintro v₂ ⟨beside, store⟩
      refine ⟨store.trans asked.store, beside.files.trans asked.files, beside.group.trans asked.group,
        beside.decided, ?_⟩
      rw [beside.reads]
      exact later
    · rintro v₂ ⟨beside, landed⟩
      refine ⟨?_, beside.files.trans asked.files, beside.group.trans asked.group, beside.decided, ?_⟩
      · exact landed.imp (fun same => same.trans asked.store) id
      · rw [beside.reads]
        exact later
  · intro v₁ asked
    refine ⟨asked.store, asked.files, asked.group, ?_, asked.shards shards⟩
    rw [asked.attempts]
    exact decided
  · exact fun _ h => h.elim

end GyreWard.Fdb
