/-
Module: GyreWard.Proofs.FdbDurability
Purpose: What a maintainer of the store plane can count on after a crash, and what not.
Trusted boundary: none
Main exports: reopened, a_commit_is_all_or_nothing, a_fold_changes_no_page, read_ahead_changes_no_byte,
  a_page_past_a_truncate_is_lost, a_deleted_database_forgets_its_fences
-/
import GyreWard.Proofs.FdbVolume

namespace GyreWard.Fdb

open Lib
open Lib.Action (Ends)

/-! ### Opening again -/

section Reopening

variable {P : Type} {v' v'' : Vfs P} {k : Nat} {name : DbName}

/-- Whoever opens a database reads what its rows hold. -/
theorem reopened (sane : Sane (v'.store.dbs name)) (decided : Decided v'.attempts)
    (shards : ShardsRead v'.reads) (settled : stagingRecords v'.store = [])
    (ran : vfsOpen k name v' = (.ret (), v'')) :
    Owns v'' k ∧ (∀ p, view (v''.files k) (v''.store.dbs name) p = image (v'.store.dbs name) p) ∧
      (v''.files k).size = (v'.store.dbs name).size.getD 0 := by
  obtain ⟨opened, -, -, decided', shards'⟩ := (ends_vfsOpen sane decided shards settled).ret ran
  refine ⟨?_, ?_, opened.size⟩
  · constructor
    · rw [opened.named]
      exact opened.synced
    · rw [opened.named]
      exact opened.opens.sane
    · exact decided'
    · exact shards'
  · intro p
    unfold view
    rw [opened.clean]
    exact opened.opens.image p

end Reopening

theorem sane_fenced {P : Type} (fence : Option Nat) : Sane ({ fence } : Db P) := by
  constructor <;> intros <;> simp_all

/-- A database that its first owner is writing to, who has sent nothing. -/
def drafted (attempts : List Attempt) : Vfs Nat where
  store := { dbs := fun _ => { fence := some 1 } }
  attempts
  files := fun _ => { name := world, fence := 1, size := 3 * pageSize, dirty := [(0, 5), (2, 7)] }

theorem owns_drafted {attempts : List Attempt} (decided : Decided attempts) : Owns (drafted attempts) 0 where
  synced := ⟨rfl, rfl, rfl, rfl, rfl, window_empty _ rfl, by simp [drafted, Sorted]⟩
  sane := sane_fenced _
  decided := decided
  shards := fun _ none => (by cases none)

section Crashes

variable {P : Type} {v v' v'' : Vfs P} {h k : Nat}

/-- The pages and the size that a handle reads. -/
structure Shown (v : Vfs P) (k : Nat) (name : DbName) (pages : Nat → Option P) (size : Nat) : Prop where
  pages : ∀ p, view (v.files k) (v.store.dbs name) p = pages p
  size : (v.files k).size = size

/-- A sync of any number of pages, in one transaction or in many, that returns, fails or stops at any point, with
transactions that are tried again and land without a word: whoever opens the database next reads all of the buffer
or none of it, all where the sync returned and none where it failed. -/
theorem a_commit_is_all_or_nothing (owns : Owns v h) (alone : (v.files h).groupTxnid = 0)
    (settled : stagingRecords v.store = []) {o : Lib.Result Unit} (ran : flush h v = (o, v'))
    (again : vfsOpen k (v.files h).name v' = (.ret (), v'')) :
    match o with
    | .ret () => Shown v'' k (v.files h).name (merged (v.files h) (v.store.dbs (v.files h).name))
        (v.files h).size
    | .fail => Shown v'' k (v.files h).name (image (v.store.dbs (v.files h).name)) (v.files h).sentSize
    | .halt =>
        Shown v'' k (v.files h).name (image (v.store.dbs (v.files h).name)) (v.files h).sentSize ∨
          Shown v'' k (v.files h).name (merged (v.files h) (v.store.dbs (v.files h).name))
            (v.files h).size := by
  have ends := ends_flush owns alone
  have shown : ∀ {pages : Nat → Option P} {size : Nat}, Left v v' h →
      Holds (v'.store.dbs (v.files h).name) pages size → Shown v'' k (v.files h).name pages size := by
    intro pages size left holds
    obtain ⟨-, same, sizes⟩ := reopened left.sane left.decided left.shards
      (settled_of_records left.aside.store.records settled) again
    exact ⟨fun p => (same p).trans (holds.pages p), sizes.trans holds.size⟩
  cases o with
  | ret done =>
      obtain ⟨aside, owner, flushed, after⟩ := ends.ret ran
      exact shown (owns.left aside owner flushed.fence) after
  | fail =>
      obtain ⟨aside, owner, file, before⟩ := ends.err ran
      exact shown (owns.left aside owner (by rw [file])) before
  | halt =>
      have torn := ends.died ran
      rcases torn.either with before | after
      · exact Or.inl (shown torn.left before)
      · exact Or.inr (shown torn.left after)

/-- The process stops with its commit gone through and no word of it. -/
theorem a_commit_without_word :
    ∃ v' v'', flush 0 (drafted [.again, .unknown, .dies]) = (.halt, v') ∧
      vfsOpen 1 world v' = (.ret (), v'') ∧
        (Shown v'' 1 world (image ((drafted []).store.dbs world)) 0 ∨
          Shown v'' 1 world (merged ((drafted []).files 0) ((drafted []).store.dbs world)) (3 * pageSize)) := by
  have decided : Decided [.again, .unknown, .dies] := ⟨trivial, trivial⟩
  exact ⟨_, _, rfl, rfl, a_commit_is_all_or_nothing (owns_drafted decided) rfl rfl rfl rfl⟩

/-- A handle reads the pages and the size that another had sent, and no page that was not there. -/
structure Reread (v v'' : Vfs P) (h k : Nat) : Prop where
  size : (v''.files k).size = (v.files h).sentSize
  kept : ∀ {p}, p < pagesFor (v.files h).size →
    view (v''.files k) (v''.store.dbs (v.files h).name) p = image (v.store.dbs (v.files h).name) p
  less : ∀ {p page}, view (v''.files k) (v''.store.dbs (v.files h).name) p = some page →
    image (v.store.dbs (v.files h).name) p = some page

/-- What is sent is due to be folded, and the process stops before the fold is done. -/
def due : Vfs Nat := (flush 0 (drafted [.unknown, .lands, .again, .lands, .dies])).2

end Crashes

/-! ### Reading -/

section Reading

variable {v v' w w' : Vfs Page} {h k amt off : Nat}

/-- Whatever is in the window of a handle, however deep it reads ahead and however its reads are cut short and tried
again, a read that returns gives the bytes of the file, and the word that there were fewer exactly when a page of
the range is not there. -/
theorem read_ahead_changes_no_byte (owns : Owns v h) (other : Owns w k) (same : seen w k = seen v h)
    {r r' : List UInt8 × Bool} (ran : fdbRead h amt off v = (.ret r, v'))
    (ran' : fdbRead k amt off w = (.ret r', w')) :
    r.1 = bytesOf (seen v h) off amt ∧
      (r.2 = true ↔ ∃ j, j < amt ∧ seen v h ((off + j) / pageSize) = none) ∧ r' = r := by
  obtain ⟨⟨bytes, short⟩, -⟩ := (ends_fdbRead owns amt off).ret ran
  obtain ⟨⟨bytes', short'⟩, -⟩ := (ends_fdbRead other amt off).ret ran'
  have shown : view (w.files k) (w.store.dbs (w.files k).name) =
      view (v.files h) (v.store.dbs (v.files h).name) := same
  rw [shown] at bytes' short'
  refine ⟨bytes, short, Prod.ext (bytes'.trans bytes.symm) ?_⟩
  rw [Bool.eq_iff_iff, short', short]

/-- A handle that has read nothing, or one that is in the middle of a scan. -/
def scanned (score : Nat) (reads : List ReadAttempt) : Vfs Page where
  store := { dbs := fun _ => { fence := some 1 } }
  reads
  files := fun _ => { name := world, fence := 1, raScore := score }

theorem owns_scanned {score : Nat} {reads : List ReadAttempt} (shards : ShardsRead reads) :
    Owns (scanned score reads) 0 :=
  ⟨⟨rfl, rfl, rfl, rfl, rfl, window_empty _ rfl, by simp [scanned, Sorted]⟩, sane_fenced _, trivial, shards⟩

theorem a_scan_of_nothing : ∃ v' w', fdbRead 0 2 0 (scanned 0 []) = (.ret ([0, 0], true), v') ∧
    fdbRead 0 2 0 (scanned 12 [{ index := [.error] }]) = (.ret ([0, 0], true), w') ∧
      [0, 0] = bytesOf (seen (scanned 0 []) 0) 0 2 ∧
        ∃ j, j < 2 ∧ seen (scanned 0 []) 0 ((0 + j) / pageSize) = none := by
  have plain : Owns (scanned 0 []) 0 := owns_scanned fun _ none => (by cases none)
  have ahead : Owns (scanned 12 [{ index := [.error] }]) 0 := owns_scanned (by simp [ShardsRead])
  have read : fdbRead 0 2 0 (scanned 0 []) = (.ret ([0, 0], true), (fdbRead 0 2 0 (scanned 0 [])).2) :=
    Prod.ext rfl rfl
  have again : fdbRead 0 2 0 (scanned 12 [{ index := [.error] }]) =
      (.ret ([0, 0], true), (fdbRead 0 2 0 (scanned 12 [{ index := [.error] }])).2) := Prod.ext rfl rfl
  obtain ⟨bytes, short, -⟩ := read_ahead_changes_no_byte plain ahead rfl read again
  exact ⟨_, _, read, again, bytes, short.mp rfl⟩

end Reading

/-! ### Limits -/

section Limits

variable {v v₁ v₂ v₃ : Vfs Page} {h size off : Nat} {data : List UInt8}

theorem owns_fdbTruncate (owns : Owns v h) (ran : fdbTruncate h size v = (.ret (), v₁)) :
    Aside h v v₁ ∧ Owns v₁ h ∧ v₁.store = v.store ∧ (v₁.files h).groupTxnid = (v.files h).groupTxnid ∧
      (v₁.files h).size = size ∧ ∃ n, (v₁.files h).truncPages = some n ∧ n ≤ pagesFor size := by
  unfold fdbTruncate setFile Action.modify at ran
  simp only [Prod.mk.injEq, true_and] at ran
  subst ran
  have synced := owns.synced
  refine ⟨aside_onFile rfl, ?_, rfl, by rw [onFile_self]; rfl, by rw [onFile_self]; rfl, ?_⟩
  · constructor
    · rw [onFile_self]
      refine ⟨synced.fence, synced.head, synced.size, synced.newest, synced.logn, window_empty _ rfl, ?_⟩
      exact List.Pairwise.sublist (List.take_sublist _ _) synced.sorted
    · rw [onFile_self]
      exact owns.sane
    · exact owns.decided
    · exact owns.shards
  · rw [onFile_self]
    cases trunc : (v.files h).truncPages with
    | none =>
        refine ⟨pagesFor size, ?_, Nat.le_refl _⟩
        simp only [raReset, cutBelow]
    | some n =>
        refine ⟨if pagesFor size < n then pagesFor size else n, ?_, ?_⟩
        · simp only [raReset, cutBelow]
        · split <;> omega

/-- What is written past a truncate that has not been sent can be read back until it is sent, and is gone when the
sync has returned: every page past the truncate is then what the newest shard holds. -/
theorem a_page_past_a_truncate_is_lost (owns : Owns v h) (alone : (v.files h).groupTxnid = 0)
    (cut : fdbTruncate h size v = (.ret (), v₁)) (wrote : fdbWrite h data off v₁ = (.ret (), v₂))
    (sent : flush h v₂ = (.ret (), v₃)) :
    (∀ j, j < data.length → byteOf (seen v₂ h) (off + j) = data.getD j 0) ∧
      (v₃.files h).size = max size (off + data.length) ∧
      ∀ p, pagesFor size ≤ p → seen v₃ h p = base (v.store.dbs (v.files h).name) p := by
  obtain ⟨aside₁, owns₁, store₁, group₁, size₁, n, trunc, low⟩ := owns_fdbTruncate owns cut
  have written := (ends_fdbWrite owns₁ data off).ret wrote
  have group₂ : (v₂.files h).groupTxnid = 0 := by rw [written.group, group₁, alone]
  obtain ⟨aside₃, owns₃, flushed, after⟩ := (ends_flush written.owns group₂).ret sent
  have name₂ : (v₂.files h).name = (v.files h).name := written.aside.name.trans aside₁.name
  refine ⟨?_, ?_, ?_⟩
  · intro j inside
    rw [written.bytes, if_pos ⟨Nat.le_add_right _ _, Nat.add_lt_add_left inside _⟩, Nat.add_sub_cancel_left]
  · rw [flushed.size, written.size, size₁]
  · intro p past
    have dropped : Dropped (v₂.files h) p := ⟨n, written.cut.trans trunc, Nat.le_trans low past⟩
    have shown := after.pages p
    rw [merged, if_pos dropped, name₂, written.store, store₁] at shown
    unfold seen view
    rw [flushed.clean, flushed.name, name₂]
    exact shown

/-- A page that is written past a cut, in a database that has never been folded. -/
def cutting : Vfs Page where
  store := { dbs := fun _ => { fence := some 1 } }
  files := fun _ => { name := world, fence := 1 }

def cutOff : Vfs Page := (fdbTruncate 0 0 cutting).2

def overwritten : Vfs Page := (fdbWrite 0 [7] pageSize cutOff).2

theorem a_page_is_lost : byteOf (seen overwritten 0) pageSize = 7 ∧ seen (flush 0 overwritten).2 0 1 = none := by
  have owns : Owns cutting 0 :=
    ⟨⟨rfl, rfl, rfl, rfl, rfl, window_empty _ rfl, by simp [cutting, Sorted]⟩, sane_fenced _, trivial,
      fun _ none => (by cases none)⟩
  have wrote : fdbWrite 0 [7] pageSize cutOff = (.ret (), overwritten) := Prod.ext rfl rfl
  have sent : flush 0 overwritten = (.ret (), (flush 0 overwritten).2) := Prod.ext rfl rfl
  obtain ⟨there, -, gone⟩ := a_page_past_a_truncate_is_lost owns rfl rfl wrote sent
  exact ⟨there 0 Nat.one_pos, gone 1 (Nat.zero_le 1)⟩

end Limits

section Deleted

variable {P : Type} {v : Vfs P} {name : DbName} {k : Nat}

/-- Nothing fails and nothing is to be recovered. -/
structure Quiet (v : Vfs P) : Prop where
  attempts : v.attempts = []
  reads : v.reads = []
  settled : stagingRecords v.store = []

theorem Quiet.recover (quiet : Quiet v) :
    Ends weftTxnRecover (fun _ v' => Quiet v' ∧ v'.store = v.store) (fun _ => False) (fun _ => False) v := by
  have query : runQuery .ioerrRead sweepBody v = (.ret [], { v with reads := [], rc := .ioerrRead }) := by
    have sweep : tryQuery (sweepBody v.store) v.reads = (.ret ((stagingRecords v.store).take txnMaxRecover), []) := by
      rw [quiet.reads]
      rfl
    unfold runQuery
    rw [sweep, quiet.settled]
    rfl
  unfold weftTxnRecover
  apply Ends.bind
  rw [Ends.read_iff, recoverPasses]
  apply Ends.bind
  exact .of_ret query ⟨⟨quiet.attempts, rfl, quiet.settled⟩, rfl⟩

theorem openBody_fence {s s' : Store P} {g : FdbFile P} (ran : openBody name s = .ok (g, s')) :
    g.name = name ∧ g.fence = raisedFence (s.dbs name) ∧ (s'.dbs name).fence = some (raisedFence (s.dbs name)) ∧
      s'.records = s.records := by
  unfold openBody at ran
  simp only [Except.ok.injEq, Prod.mk.injEq] at ran
  obtain ⟨rfl, rfl⟩ := ran
  exact ⟨rfl, rfl, congrArg Db.fence (onDb_same _ _ _), rfl⟩

/-- Opening a database makes one more owner. -/
theorem Quiet.open (quiet : Quiet v) :
    Ends (vfsOpen k name)
      (fun _ v' => Quiet v' ∧ (v'.store.dbs name).fence = some (raisedFence (v.store.dbs name)) ∧
        (v'.files k).fence = raisedFence (v.store.dbs name) ∧ (v'.files k).name = name)
      (fun _ => False) (fun _ => False) v := by
  unfold vfsOpen
  apply quiet.recover.andThen _ (fun _ h => h) fun _ h => h
  rintro _ v' ⟨quiet, same⟩
  rw [← same]
  obtain ⟨g, s', ran⟩ := openBody_ok name v'.store
  obtain ⟨named, fence, raised, records⟩ := openBody_fence ran
  have landed : runTxn .ioerr (openBody name) v' = (.ret g, { v' with store := s', rc := .ok, attempts := [] }) := by
    unfold runTxn
    rw [quiet.attempts, tryTxn, ran]
  apply Ends.bind
  apply Ends.of_ret landed
  refine ⟨⟨rfl, quiet.reads, settled_of_records records quiet.settled⟩, raised, ?_, ?_⟩
  · exact (congrArg FdbFile.fence (onFile_self k (fun _ => g) _)).trans fence
  · exact (congrArg FdbFile.name (onFile_self k (fun _ => g) _)).trans named

/-- Delete a database, and then open it as often as this. -/
def deleteAndOpen (name : DbName) (k times : Nat) : Action (Vfs P) Unit := do
  vfsDelete name
  Action.forEach (List.replicate times k) fun k => vfsOpen k name

/-- A database that is deleted counts its owners from one again: whatever its fence was, when it has been deleted
and opened as often as a handle from before has its fence, that handle is no stranger, and there are two writers. -/
theorem a_deleted_database_forgets_its_fences (quiet : Quiet v) (stale : FdbFile P) (given : 0 < stale.fence)
    (k : Nat) :
    ∃ v', deleteAndOpen stale.name k stale.fence v = (.ret (), v') ∧ checkFence stale v'.store = .ok () ∧
      (v'.files k).name = stale.name ∧ checkFence (v'.files k) v'.store = .ok () := by
  let Opened : Nat → Vfs P → Prop := fun n v' =>
    Quiet v' ∧ (v'.store.dbs stale.name).fence = (if n = 0 then none else some n) ∧
      (n ≠ 0 → (v'.files k).fence = n ∧ (v'.files k).name = stale.name)
  have opens : ∀ times n v', Opened n v' →
      Ends (Action.forEach (List.replicate times k) fun k => vfsOpen k stale.name)
        (fun _ => Opened (n + times)) (fun _ => False) (fun _ => False) v' := by
    intro times
    induction times with
    | zero => exact fun n v' opened => opened
    | succ times ih =>
        intro n v' opened
        obtain ⟨still, fence, -⟩ := opened
        have next : raisedFence (v'.store.dbs stale.name) = n + 1 := by
          unfold raisedFence
          rw [fence]
          cases n <;> rfl
        rw [List.replicate_succ]
        apply Ends.bind
        apply still.open.mono _ (fun _ h => h) fun _ h => h
        rintro _ v'' ⟨still', raised, mine, named⟩
        rw [next] at raised mine
        rw [← Nat.succ_add_eq_add_succ]
        exact ih (n + 1) v'' ⟨still', raised, fun _ => ⟨mine, named⟩⟩
  have ends : Ends (deleteAndOpen stale.name k stale.fence) (fun _ => Opened stale.fence) (fun _ => False)
      (fun _ => False) v := by
    have gone : vfsDelete stale.name v =
        (.ret (), { v with store := v.store.onDb stale.name fun _ => {}, rc := .ok, attempts := [] }) := by
      unfold vfsDelete runTxn
      rw [quiet.attempts]
      rfl
    unfold deleteAndOpen
    apply Ends.bind
    apply Ends.of_ret gone
    have start := opens stale.fence 0
    rw [Nat.zero_add] at start
    apply start
    refine ⟨⟨rfl, quiet.reads, quiet.settled⟩, ?_, fun no => absurd rfl no⟩
    change ((v.store.onDb stale.name fun _ => {}).dbs stale.name).fence = none
    rw [onDb_same]
  unfold Ends at ends
  rcases ran : deleteAndOpen stale.name k stale.fence v with ⟨_ | _ | _, v'⟩ <;> rw [ran] at ends
  · obtain ⟨-, fence, mine⟩ := ends
    rw [if_neg (Nat.ne_of_gt given)] at fence
    obtain ⟨same, named⟩ := mine (Nat.ne_of_gt given)
    refine ⟨v', rfl, if_pos fence, named, if_pos ?_⟩
    rw [named, same, fence]
  · exact ends.elim
  · exact ends.elim

theorem two_owners_at_once :
    ∃ v', deleteAndOpen world 1 3 { files := fun _ => { name := world } : Vfs Nat } = (.ret (), v') ∧
      checkFence { name := world, fence := 3 } v'.store = .ok () ∧ (v'.files 1).name = world ∧
        checkFence (v'.files 1) v'.store = .ok () :=
  a_deleted_database_forgets_its_fences ⟨rfl, rfl, rfl⟩ { name := world, fence := 3 } (by decide) 1

end Deleted

end GyreWard.Fdb
