/-
Module: GyreWard.Proofs.FdbOneWriter
Purpose: Of all the handles on one database one at most passes the fence check, whatever fails, is given up or
  stops: the fence of the rows only grows, and whoever opens the database has a fence that nobody had.
Trusted boundary: none
Main exports: Abides, Abiding, abiding_runCall, abiding_weftTxnRecover, OneHolder, oneHolder_step, oneHolder_run,
  one_writer
-/
import GyreWard.Proofs.FdbVolume

namespace GyreWard.Fdb

open Lib
open Lib.Action (Ends Keeps MadeOf)

variable {P α : Type}

/-! ### What takes the database from nobody and gives it to nobody -/

/-- The fence of the rows has not fallen. -/
def Grown (name : DbName) (s s' : Store P) : Prop :=
  ∀ n, (s.dbs name).fence = some n → ∃ m, (s'.dbs name).fence = some m ∧ n ≤ m

theorem Grown.refl (name : DbName) (s : Store P) : Grown name s s := fun n there => ⟨n, there, Nat.le_refl n⟩

theorem Grown.of_eq {name : DbName} {s s' : Store P} (same : (s'.dbs name).fence = (s.dbs name).fence) :
    Grown name s s' := by
  intro n there
  rw [same]
  exact ⟨n, there, Nat.le_refl n⟩

theorem Grown.trans {name : DbName} {s s' s'' : Store P} (first : Grown name s s') (second : Grown name s' s'') :
    Grown name s s'' := by
  intro n there
  obtain ⟨m, there', le⟩ := first n there
  obtain ⟨l, there'', le'⟩ := second m there'
  exact ⟨l, there'', Nat.le_trans le le'⟩

/-- What a handle is known by: the name of its database, its fence, and the group it is in. -/
def FdbFile.badge (f : FdbFile P) : DbName × Nat × Nat := (f.name, f.fence, f.groupTxnid)

/-- The fence has not fallen and every handle is what it was. -/
structure Abides (name : DbName) (v v' : Vfs P) : Prop where
  grown : Grown name v.store v'.store
  badges : ∀ i, (v'.files i).badge = (v.files i).badge

theorem Abides.refl (name : DbName) (v : Vfs P) : Abides name v v := ⟨.refl name _, fun _ => rfl⟩

theorem Abides.trans {name : DbName} {v v' v'' : Vfs P} (first : Abides name v v') (second : Abides name v' v'') :
    Abides name v v'' :=
  ⟨first.grown.trans second.grown, fun i => (second.badges i).trans (first.badges i)⟩

theorem Idle.abides {name : DbName} {k : Nat} {v v' : Vfs P} (idle : Idle k v v') : Abides name v v' := by
  refine ⟨.of_eq (by rw [idle.store]), ?_⟩
  intro i
  by_cases here : i = k
  · rw [here]
    unfold FdbFile.badge
    rw [idle.name, idle.fence, idle.group]
  · rw [idle.files i here]

/-- Code put together from calls that the others abide. -/
abbrev Abiding (name : DbName) (α : Type) (x : Action (Vfs P) α) : Prop :=
  MadeOf (fun _ y => ∀ v, Abides name v (y v).2) α x

theorem Abiding.after {name : DbName} {x : Action (Vfs P) α} (abiding : Abiding name α x) (v : Vfs P) :
    Abides name v (x v).2 := by
  have keeps : Keeps (Abides name v) x :=
    abiding.keeps fun _ _ each v' sofar => sofar.trans (each v')
  exact keeps v (.refl name v)

section Moves

variable {name : DbName} {k : Nat}

/-- A transaction that lets no fence fall. -/
theorem abiding_runTxn {code : Code} {body : Store P → Except Code (α × Store P)}
    (grows : ∀ s a s', body s = .ok (a, s') → Grown name s s') : Abiding name α (runTxn code body) := by
  apply MadeOf.move
  intro v
  have ends : Ends (runTxn code body) _ _ _ v :=
    ends_anyTxn (I := Grown name v.store) (Q := fun _ _ => True) (.refl name _) fun s a s' sofar ran =>
      ⟨sofar.trans (grows s a s' ran), trivial⟩
  have kept : ∀ {v' : Vfs P}, v'.files = v.files → Grown name v.store v'.store → Abides name v v' :=
    fun files grown => ⟨grown, fun i => by rw [files]⟩
  unfold Ends at ends
  rcases run : runTxn code body v with ⟨_ | _ | _, v'⟩ <;> rw [run] at ends
  · exact kept ends.1 ends.2.1
  · exact kept ends.1 ends.2
  · exact kept ends.1 ends.2

theorem abiding_fenced {code : Code} {f : FdbFile P} {change : Db P → Db P}
    (same : ∀ db, (change db).fence = db.fence) : Abiding name Unit (runTxn code (fenced f change)) := by
  apply abiding_runTxn
  intro s _ s' ran
  by_cases own : (s.dbs f.name).fence = some f.fence
  · rw [fenced_ok own] at ran
    cases ran
    apply Grown.of_eq
    by_cases here : name = f.name
    · rw [here, onDb_same, same]
    · rw [onDb_other here]
  · rw [fenced_refused own] at ran
    cases ran

theorem abiding_idle {x : Action (Vfs P) α} (ends : ∀ v, Ends x (fun _ => Idle k v) (Idle k v) (Idle k v) v) :
    Abiding name α x :=
  .move fun v => (ends v).keeps.abides

theorem abiding_setFile {f : FdbFile P → FdbFile P} (same : ∀ g, (f g).badge = g.badge) :
    Abiding name Unit (setFile k f) := by
  apply MadeOf.move
  intro v
  refine ⟨.refl name _, ?_⟩
  intro i
  change (if i = k then f (v.files i) else v.files i).badge = _
  split
  · exact same _
  · rfl

theorem abiding_refuse (code : Code) : Abiding name α (refuse (P := P) code) :=
  .move fun _ => ⟨.refl name _, fun _ => rfl⟩

/-! ### The calls of a handle -/

theorem abiding_sendCommit (f : FdbFile P) (txid : Nat) : Abiding name Unit (sendCommit f txid) := by
  unfold sendCommit
  apply MadeOf.ite
  · intro _
    exact abiding_fenced fun _ => rfl
  · intro _
    apply MadeOf.bind
    · exact .forEach fun lo _ => abiding_fenced fun _ => rfl
    · intro _
      exact abiding_fenced fun _ => rfl

theorem abiding_txnStageHere : Abiding name Unit (txnStageHere (P := P) k) := by
  apply MadeOf.bind (.read _)
  intro f
  apply MadeOf.ite
  · intro _
    exact abiding_refuse _
  · intro _
    apply MadeOf.bind
    · exact .ite (fun _ => abiding_fenced fun _ => rfl) fun _ => .pure _
    · intro _
      apply MadeOf.bind (.read _)
      intro parts
      apply MadeOf.ite
      · intro _
        exact .move fun _ => ⟨.refl name _, fun _ => rfl⟩
      · intro _
        exact abiding_refuse _

theorem abiding_flush : Abiding name Unit (flush (P := P) k) := by
  apply MadeOf.bind (.read _)
  intro f
  apply MadeOf.ite
  · intro _
    exact .pure _
  · intro _
    apply MadeOf.ite
    · intro _
      exact abiding_txnStageHere
    · intro _
      apply MadeOf.bind (abiding_sendCommit f _)
      intro _
      apply abiding_setFile
      intro g
      dsimp only
      split <;> rfl

theorem abiding_foldWindows (asOf npages window : Nat) :
    ∀ (rest : List Nat) (kept : Nat), Abiding name Nat (foldWindows (P := P) k asOf npages window rest kept)
  | [], _ => .pure _
  | lo :: rest, kept => by
      rw [foldWindows]
      apply MadeOf.bind (.read _)
      intro f
      apply MadeOf.bind
      · exact abiding_idle fun _ => idle_runRead (made_foldRead _ _)
      · intro pages
        apply MadeOf.bind
        · exact abiding_fenced fun _ => rfl
        · exact fun _ => abiding_foldWindows asOf npages window rest _

theorem abiding_weftCompactDue : Abiding name Unit (weftCompactDue (P := P) k) := by
  have compacts : Abiding name Unit (compact (P := P) k) := by
    apply MadeOf.bind (.read _)
    intro f
    apply MadeOf.ite
    · intro _
      exact .pure _
    · intro _
      apply MadeOf.bind (abiding_foldWindows _ _ _ _ _)
      intro kept
      apply MadeOf.bind
      · exact abiding_fenced fun _ => rfl
      · exact fun _ => abiding_setFile fun _ => rfl
  apply MadeOf.bind (.read _)
  intro f
  apply MadeOf.ite
  · intro _
    exact .pure _
  · intro _
    apply MadeOf.ite
    · intro _
      exact .pure _
    · intro _
      exact .bind (abiding_setFile fun _ => rfl) fun _ => compacts

theorem abiding_fdbClose : Abiding name Unit (fdbClose (P := P) k) := by
  apply MadeOf.bind
  · exact .attempt (.bind abiding_flush fun _ => abiding_weftCompactDue)
  · intro done
    apply MadeOf.bind
    · exact abiding_setFile fun _ => rfl
    · intro _
      cases done with
      | none => exact .fail
      | some _ => exact .pure _

/-- Whoever makes a call that opens nothing, every handle is what it was. -/
theorem abiding_runCall (name : DbName) (k : Nat) (c : FileCall UInt8) (other : opens c = false) :
    Abiding name (List UInt8) (runCall k name c) := by
  cases c with
  | write off data => exact .bind (abiding_idle fun _ => idle_fdbWrite data off) fun _ => .pure _
  | truncate size => exact .bind (abiding_idle fun _ => idle_fdbTruncate size) fun _ => .pure _
  | read off amt => exact .bind (abiding_idle fun _ => idle_fdbRead amt off) fun _ => .pure _
  | sync => exact .bind abiding_flush fun _ => .pure _
  | fold => exact .bind abiding_weftCompactDue fun _ => .pure _
  | close => exact .bind abiding_fdbClose fun _ => .pure _
  | reopen => cases other

/-! ### Recovery -/

theorem abiding_runQuery {code : Code} {body : Store P → Action ReadAttempt α} :
    Abiding name α (runQuery code body) := by
  apply MadeOf.move
  intro v
  unfold runQuery
  rcases tryQuery (body v.store) v.reads with ⟨result, rest⟩
  exact ⟨.refl name _, fun _ => rfl⟩

/-- A change to the rows of a database lets no fence fall that it leaves where it was or raises. -/
theorem grown_onDb {other : DbName} {change : Db P → Db P} {s : Store P}
    (grows : ∀ n, (s.dbs other).fence = some n → ∃ m, (change (s.dbs other)).fence = some m ∧ n ≤ m) :
    Grown name s (s.onDb other change) := by
  intro n there
  by_cases here : name = other
  · subst here
    rw [onDb_same]
    exact grows n there
  · rw [onDb_other here]
    exact ⟨n, there, Nat.le_refl n⟩

theorem raised_after {db : Db P} {n : Nat} (there : db.fence = some n) : n < raisedFence db := by
  unfold raisedFence
  rw [there]
  exact Nat.lt_succ_self n

theorem abiding_resolve (c : Intent) : Abiding (P := P) name Unit (runTxn .ioerrWrite (resolveBody c)) := by
  apply abiding_runTxn
  intro s _ s' ran
  unfold resolveBody at ran
  split at ran
  · cases ran
    exact .refl name s
  · cases ran
    exact grown_onDb fun n there => ⟨n, there, Nat.le_refl n⟩

/-- Where an intent is missing, recovery takes the database from whoever has it. -/
theorem abiding_prevent (c : Intent) : Abiding (P := P) name Unit (runTxn .ioerrWrite (preventBody c)) := by
  apply abiding_runTxn
  intro s _ s' ran
  cases ran
  apply grown_onDb
  intro n there
  dsimp only
  split
  · exact ⟨n, there, Nat.le_refl n⟩
  · exact ⟨_, rfl, Nat.le_of_lt (raised_after there)⟩

theorem abiding_setStatus (txnid : Nat) (status : Status) :
    Abiding (P := P) name Unit (runTxn .ioerrWrite (setStatusBody txnid status)) := by
  apply abiding_runTxn
  intro s _ s' ran
  cases ran
  exact .of_eq rfl

theorem abiding_dropRecord (txnid : Nat) :
    Abiding (P := P) name Unit (runTxn .ioerrWrite (dropRecordBody txnid)) := by
  apply abiding_runTxn
  intro s _ s' ran
  cases ran
  exact .of_eq rfl

theorem abiding_queryIntents : ∀ parts, Abiding (P := P) name (List Intent) (queryIntents parts)
  | [] => .pure _
  | part :: rest => by
      rw [queryIntents]
      apply MadeOf.bind abiding_runQuery
      intro intent
      apply MadeOf.bind (abiding_queryIntents rest)
      intro later
      exact .pure _

theorem abiding_recoverOne (txnid : Nat) : Abiding (P := P) name Unit (recoverOne txnid) := by
  apply MadeOf.bind abiding_runQuery
  intro parts
  apply MadeOf.ite
  · intro _
    exact abiding_dropRecord txnid
  · intro _
    apply MadeOf.bind (abiding_queryIntents parts)
    intro intents
    apply MadeOf.ite
    · intro _
      apply MadeOf.bind (.forEach fun c _ => abiding_resolve c)
      intro _
      exact .bind (abiding_setStatus txnid .committed) fun _ => abiding_dropRecord txnid
    · intro _
      apply MadeOf.bind (.forEach fun c _ => abiding_prevent c)
      intro _
      exact .bind (abiding_setStatus txnid .aborted) fun _ => abiding_dropRecord txnid

theorem abiding_recoverPasses : ∀ n, Abiding (P := P) name Unit (recoverPasses n)
  | 0 => .halt
  | n + 1 => by
      rw [recoverPasses]
      apply MadeOf.bind abiding_runQuery
      intro staging
      apply MadeOf.ite
      · intro _
        exact .pure _
      · intro _
        apply MadeOf.bind (.forEach fun txnid _ => abiding_recoverOne txnid)
        intro _
        exact .ite (fun _ => .pure _) fun _ => abiding_recoverPasses n

theorem abiding_weftTxnRecover (name : DbName) : Abiding (P := P) name Unit weftTxnRecover :=
  .bind (.read _) fun _ => abiding_recoverPasses _

end Moves

/-! ### Opening -/

/-- What opening a database leaves when it comes back: the fence of the handle is the one of the rows, and nobody
had it. -/
structure Taken (name : DbName) (k : Nat) (v v' : Vfs P) : Prop where
  named : (v'.files k).name = name
  alone : (v'.files k).groupTxnid = 0
  fence : (v'.store.dbs name).fence = some (v'.files k).fence
  newer : ∀ n, (v.store.dbs name).fence = some n → n < (v'.files k).fence
  badges : ∀ i, i ≠ k → (v'.files i).badge = (v.files i).badge

theorem ends_taking {v : Vfs P} {k : Nat} {name : DbName} :
    Ends (vfsOpen k name) (fun _ => Taken name k v) (Abides name v) (Abides name v) v := by
  have recovered := (abiding_weftTxnRecover (P := P) name).after v
  have opens : ∀ {v₁ : Vfs P}, Abides name v v₁ →
      Ends (do
        let f ← runTxn .ioerr (openBody name)
        setFile k fun _ => f) (fun _ => Taken name k v) (Abides name v) (Abides name v) v₁ := by
    intro v₁ sofar
    have kept : ∀ {v₂ : Vfs P}, v₂.files = v₁.files ∧ Grown name v.store v₂.store → Abides name v v₂ := by
      rintro v₂ ⟨files, grown⟩
      refine ⟨grown, ?_⟩
      intro i
      rw [files]
      exact sofar.badges i
    apply (ends_anyTxn (I := Grown name v.store)
      (Q := fun (f : FdbFile P) s => f.name = name ∧ f.groupTxnid = 0 ∧ (s.dbs name).fence = some f.fence ∧
        ∀ n, (v.store.dbs name).fence = some n → n < f.fence) sofar.grown _).andThen
    · rintro f v₂ ⟨files, -, named, alone, fence, newer⟩
      refine ⟨?_, ?_, ?_, ?_, ?_⟩
      · rw [onFile_self, named]
      · rw [onFile_self, alone]
      · rw [onFile_self]
        exact fence
      · rw [onFile_self]
        exact newer
      · intro i other
        rw [onFile_other other, files]
        exact sofar.badges i
    · exact fun v₂ => kept
    · exact fun v₂ => kept
    · intro s f s' grown ran
      have raised : ∀ n, (v.store.dbs name).fence = some n → n < raisedFence (s.dbs name) := by
        intro n there
        obtain ⟨m, found, le⟩ := grown n there
        exact Nat.lt_of_le_of_lt le (raised_after found)
      unfold openBody at ran
      simp only [Except.ok.injEq, Prod.mk.injEq] at ran
      obtain ⟨rfl, rfl⟩ := ran
      refine ⟨grown.trans (grown_onDb fun n there => ⟨_, rfl, Nat.le_of_lt (raised_after there)⟩), rfl, rfl, ?_,
        raised⟩
      rw [onDb_same]
  unfold vfsOpen
  apply Ends.bind
  unfold Ends
  rcases ran : weftTxnRecover v with ⟨_ | _ | _, v₁⟩ <;> rw [ran] at recovered
  · exact opens recovered
  · exact recovered
  · exact recovered

/-! ### Runs -/

/-- Has the handle the fence that the rows have? -/
def Holder (name : DbName) (s : System) (k : Nat) : Prop :=
  (s.vfs.store.dbs name).fence = some (s.vfs.files k).fence

/-- Something of the file has not been sent. -/
def Unsent (f : FdbFile Page) : Prop := ¬ (f.dirty = [] ∧ f.truncPages = none ∧ f.size = f.sentSize)

/-- The handle is open on the database, in no group, and its fence is one that the rows have had. -/
structure Handed (name : DbName) (v : Vfs Page) (k : Nat) : Prop where
  named : (v.files k).name = name
  alone : (v.files k).groupTxnid = 0
  given : ∃ n, (v.store.dbs name).fence = some n ∧ (v.files k).fence ≤ n

/-- Of the open handles one at most has the fence that the rows have. -/
structure OneHolder (name : DbName) (s : System) : Prop where
  handed : ∀ k, s.live k = true → Handed name s.vfs k
  one : ∀ j k, s.live j = true → s.live k = true → Holder name s j → Holder name s k → j = k

section Steps

variable {name : DbName} {s : System} {k : Nat} {v' : Vfs Page} {stay : Bool}

theorem fence_of_badge {f g : FdbFile P} (same : f.badge = g.badge) : f.fence = g.fence :=
  congrArg (fun b => b.2.1) same

theorem Handed.abides {i : Nat} (handed : Handed name s.vfs i) (grown : Grown name s.vfs.store v'.store)
    (same : (v'.files i).badge = (s.vfs.files i).badge) : Handed name v' i := by
  refine ⟨?_, ?_, ?_⟩
  · exact (congrArg (fun b => b.1) same).trans handed.named
  · exact (congrArg (fun b => b.2.2) same).trans handed.alone
  · obtain ⟨n, there, le⟩ := handed.given
    obtain ⟨m, there', le'⟩ := grown n there
    rw [fence_of_badge same]
    exact ⟨m, there', Nat.le_trans le le'⟩

/-- Whoever has the fence of the rows had it before, unless they have been given a new one. -/
theorem Holder.before {i : Nat} (holder : Holder name (after s v' k stay) i) (handed : Handed name s.vfs i)
    (grown : Grown name s.vfs.store v'.store) (same : (v'.files i).badge = (s.vfs.files i).badge) :
    Holder name s i := by
  obtain ⟨n, there, le⟩ := handed.given
  obtain ⟨m, there', le'⟩ := grown n there
  have now : (v'.store.dbs name).fence = some (v'.files i).fence := holder
  rw [there', fence_of_badge same] at now
  cases now
  unfold Holder
  rw [there, Nat.le_antisymm le' le]

/-- A call that opens nothing gives the database to nobody. -/
theorem OneHolder.abides (one : OneHolder name s) (abides : Abides name s.vfs v')
    (stays : stay = true → s.live k = true) : OneHolder name (after s v' k stay) := by
  have live : ∀ i, (after s v' k stay).live i = true → s.live i = true := by
    intro i alive
    by_cases here : i = k
    · subst here
      rw [live_self] at alive
      exact stays alive
    · rw [live_after here] at alive
      exact alive
  constructor
  · intro i alive
    exact (one.handed i (live i alive)).abides abides.grown (abides.badges i)
  · intro i j first second mine yours
    exact one.one i j (live i first) (live j second)
      (mine.before (one.handed i (live i first)) abides.grown (abides.badges i))
      (yours.before (one.handed j (live j second)) abides.grown (abides.badges j))

/-- Whoever opens the database has it, and nobody else. -/
theorem OneHolder.taken (one : OneHolder name s) (taken : Taken name k s.vfs v') :
    OneHolder name (after s v' k true) := by
  have grown : Grown name s.vfs.store v'.store := fun n there =>
    ⟨_, taken.fence, Nat.le_of_lt (taken.newer n there)⟩
  have other : ∀ i, i ≠ k → (after s v' k true).live i = true → ¬ Holder name (after s v' k true) i := by
    intro i apart alive holder
    rw [live_after apart] at alive
    have now : (v'.store.dbs name).fence = some (v'.files i).fence := holder
    obtain ⟨n, there, le⟩ := (one.handed i alive).given
    have newer := taken.newer n there
    rw [taken.fence, fence_of_badge (taken.badges i apart)] at now
    have same := Option.some.inj now
    omega
  constructor
  · intro i alive
    by_cases here : i = k
    · subst here
      exact ⟨taken.named, taken.alone, _, taken.fence, Nat.le_refl _⟩
    · rw [live_after here] at alive
      exact (one.handed i alive).abides grown (taken.badges i here)
  · intro i j first second mine yours
    have mine_is : i = k := by
      by_contra apart
      exact other i apart first mine
    have yours_is : j = k := by
      by_contra apart
      exact other j apart second yours
    exact mine_is.trans yours_is.symm

/-- One call more. -/
theorem oneHolder_step (one : OneHolder name s) {c : FileCall UInt8} (may : s.live k = true ∨ opens c = true) :
    OneHolder name (s.step name k c).2 := by
  cases again : opens c with
  | true =>
      cases c with
      | reopen =>
          have ends : Ends (runCall k name .reopen) (fun _ => Taken name k s.vfs) (Abides name s.vfs)
              (Abides name s.vfs) s.vfs := Ends.bind (ends_taking)
          unfold Ends at ends
          unfold System.step
          rcases ran : runCall k name .reopen s.vfs with ⟨_ | _ | _, v'⟩ <;> rw [ran] at ends
          · exact one.taken ends
          · exact one.abides ends fun stay => by cases stay
          · exact one.abides ends fun stay => by cases stay
      | _ => cases again
  | false =>
      have live : s.live k = true := by
        rcases may with live | open_
        · exact live
        · rw [again] at open_
          cases open_
      have abides := (abiding_runCall name k c again).after s.vfs
      unfold System.step
      rcases ran : runCall k name c s.vfs with ⟨_ | _ | _, v'⟩ <;> rw [ran] at abides
      · exact one.abides abides fun _ => live
      · exact one.abides abides fun _ => live
      · exact one.abides abides fun _ => live

theorem oneHolder_run (calls : List (Nat × FileCall UInt8)) :
    ∀ {s : System}, OneHolder name s → OneHolder name (s.run name calls).2 := by
  induction calls with
  | nil => exact fun one => one
  | cons call rest ih =>
      intro s one
      obtain ⟨k, c⟩ := call
      rw [System.run]
      split
      · rename_i may
        rw [Bool.or_eq_true] at may
        exact ih (oneHolder_step one may)
      · exact ih one

/-- An open handle that has not the fence of the rows has lost the database. -/
theorem Handed.lost (handed : Handed name s.vfs k) (other : ¬ Holder name s k) : Lost s.vfs k where
  fence := by
    rw [handed.named]
    exact other
  alone := handed.alone

/-- What a handle can do that has lost the file. -/
theorem Lost.step (lost : Lost s.vfs k) (c : FileCall UInt8) (other : opens c = false) :
    (s.step name k c).2.vfs.store = s.vfs.store := by
  have ends : Ends (runCall k name c) (fun _ => Idle k s.vfs) (Idle k s.vfs) (Idle k s.vfs) s.vfs :=
    ends_stranger lost c other
  unfold Ends at ends
  unfold System.step
  rcases ran : runCall k name c s.vfs with ⟨_ | _ | _, v'⟩ <;> rw [ran] at ends <;> exact ends.store

theorem Lost.sync (lost : Lost s.vfs k) (unsent : Unsent (s.vfs.files k)) :
    (s.step name k .sync).1 = .failed := by
  have ends := lost_flush lost
  unfold Ends at ends
  have call : runCall k name .sync s.vfs = (flush k >>= fun _ => pure []) s.vfs := rfl
  unfold System.step
  rw [call, Action.bind_apply]
  rcases ran : flush k s.vfs with ⟨_ | _ | _, v'⟩ <;> rw [ran] at ends
  · exact absurd ends.2 unsent
  · exact ends.elim

end Steps

/-- Processes open one database, read, write, cut, sync, fold and close it in any order, over any store and whatever
comes of their transactions, those that are given up with their outcome unknown among them.  One open handle at
most has the fence of the rows.  Each of the others changes nothing of the store by reading, writing, cutting,
syncing, folding or closing, and a sync of what it has not sent fails. -/
theorem one_writer {name : DbName} (v : Vfs Page) (calls : List (Nat × FileCall UInt8)) {s : System}
    (reached : s = (System.run name { vfs := v, live := fun _ => false } calls).2) :
    (∀ j k, s.live j = true → s.live k = true → Holder name s j → Holder name s k → j = k) ∧
      ∀ k, s.live k = true → ¬ Holder name s k →
        (∀ c, opens c = false → (s.step name k c).2.vfs.store = s.vfs.store) ∧
          (Unsent (s.vfs.files k) → (s.step name k .sync).1 = .failed) := by
  have start : OneHolder name { vfs := v, live := fun _ => false } :=
    ⟨fun _ alive => (by cases alive), fun _ _ alive => (by cases alive)⟩
  have one := oneHolder_run calls start
  rw [← reached] at one
  refine ⟨one.one, ?_⟩
  intro k live other
  have lost := (one.handed k live).lost other
  exact ⟨lost.step, lost.sync⟩

/-- Two processes that take a file from each other. -/
def raced : System := (System.run world { vfs := unopened, live := fun _ => false } takeovers).2

theorem one_writer_of_a_race :
    (∀ j k, raced.live j = true → raced.live k = true → Holder world raced j → Holder world raced k → j = k) ∧
      ∀ k, raced.live k = true → ¬ Holder world raced k →
        (∀ c, opens c = false → (raced.step world k c).2.vfs.store = raced.vfs.store) ∧
          (Unsent (raced.vfs.files k) → (raced.step world k .sync).1 = .failed) :=
  one_writer unopened takeovers rfl

end GyreWard.Fdb
