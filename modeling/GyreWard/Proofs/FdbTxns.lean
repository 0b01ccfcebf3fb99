/-
Module: GyreWard.Proofs.FdbTxns
Purpose: What a write transaction leaves behind: all of its rows or none of them, none when the fence has moved.
Trusted boundary: none
Main exports: Settles, Decided, Beside, ends_runTxn, ends_anyTxn, ends_fenced, Untouched, ends_refused
-/
import GyreWard.Lib.Crash
import GyreWard.Model.FdbGroups

namespace GyreWard.Fdb

open Lib
open Lib.Action (Ends)

variable {P α : Type}

/-! ### Attempts -/

/-- A transaction whose outcome is not known is tried until it is. -/
def Settles : List Attempt → Prop
  | .again :: rest | .unknown :: rest => Settles rest
  | .fatal :: _ => False
  | _ => True

/-- No transaction is given up while its outcome is not known. -/
def Decided : List Attempt → Prop
  | [] => True
  | .unknown :: rest => Settles rest ∧ Decided rest
  | _ :: rest => Decided rest

theorem Decided.tail {a : Attempt} {rest : List Attempt} (decided : Decided (a :: rest)) : Decided rest := by
  cases a with
  | unknown => exact decided.2
  | _ => exact decided

/-- What a write transaction leaves alone. -/
structure Beside (v v' : Vfs P) : Prop where
  files : v'.files = v.files
  reads : v'.reads = v.reads
  group : v'.group = v.group
  decided : Decided v'.attempts

theorem Beside.trans {v v' v'' : Vfs P} (first : Beside v v') (second : Beside v' v'') : Beside v v'' where
  files := second.files.trans first.files
  reads := second.reads.trans first.reads
  group := second.group.trans first.group
  decided := second.decided

/-- Attempts at a body that lands again where it has landed once. -/
theorem tryTxn_landed (code : Code) {body : Store P → Except Code (α × Store P)} {After : α → Store P → Prop}
    (again : ∀ a s, After a s → ∃ a' s', body s = .ok (a', s') ∧ After a' s') :
    ∀ (attempts : List Attempt) (a : α) (s : Store P), Decided attempts → Settles attempts → After a s →
      match tryTxn code body attempts s with
      | (.ret a', _, rest, s') => After a' s' ∧ Decided rest
      | (.fail, _, _, _) => False
      | (.halt, _, rest, s') => (∃ a', After a' s') ∧ Decided rest := by
  intro attempts
  induction attempts with
  | nil =>
      intro a s _ _ after
      obtain ⟨a', s', ran, after'⟩ := again a s after
      simp only [tryTxn, ran]
      exact ⟨after', trivial⟩
  | cons attempt rest ih =>
      intro a s decided settles after
      obtain ⟨a', s', ran, after'⟩ := again a s after
      cases attempt with
      | lands =>
          simp only [tryTxn, ran]
          exact ⟨after', decided⟩
      | again => exact ih a s decided settles after
      | unknown =>
          simp only [tryTxn, ran]
          exact ih a' s' decided.2 settles after'
      | fatal => exact absurd settles id
      | dies =>
          simp only [tryTxn, ran]
          exact ⟨⟨a, after⟩, decided⟩

/-- A write transaction lands once or more, or it leaves no trace; a process that stops in it may have done
either. -/
theorem ends_runTxn {code : Code} {body : Store P → Except Code (α × Store P)} {v : Vfs P}
    {After : α → Store P → Prop} (decided : Decided v.attempts)
    (run : ∀ a s', body v.store = .ok (a, s') → After a s')
    (again : ∀ a s, After a s → ∃ a' s', body s = .ok (a', s') ∧ After a' s') :
    Ends (runTxn code body) (fun a v' => Beside v v' ∧ After a v'.store)
      (fun v' => Beside v v' ∧ v'.store = v.store)
      (fun v' => Beside v v' ∧ (v'.store = v.store ∨ ∃ a, After a v'.store)) v := by
  have runs : ∀ attempts, Decided attempts →
      match tryTxn code body attempts v.store with
      | (.ret a, _, rest, s') => After a s' ∧ Decided rest
      | (.fail, _, rest, s') => s' = v.store ∧ Decided rest
      | (.halt, _, rest, s') => (s' = v.store ∨ ∃ a, After a s') ∧ Decided rest := by
    intro attempts
    induction attempts with
    | nil =>
        intro _
        rw [tryTxn]
        cases ran : body v.store with
        | error final => exact ⟨rfl, trivial⟩
        | ok result => exact ⟨run _ _ ran, trivial⟩
    | cons attempt rest ih =>
        intro decided
        cases attempt with
        | lands =>
            rw [tryTxn]
            cases ran : body v.store with
            | error final => exact ⟨rfl, decided⟩
            | ok result => exact ⟨run _ _ ran, decided⟩
        | again => exact ih decided
        | unknown =>
            rw [tryTxn]
            cases ran : body v.store with
            | error final => exact ⟨rfl, decided.2⟩
            | ok result =>
                have landed := tryTxn_landed code again rest _ _ decided.2 decided.1 (run _ _ ran)
                dsimp only
                rcases ran' : tryTxn code body rest result.2 with ⟨_ | _ | _, _, _, s'⟩ <;> rw [ran'] at landed
                · exact landed
                · exact landed.elim
                · exact ⟨Or.inr landed.1, landed.2⟩
        | fatal => exact ⟨rfl, decided⟩
        | dies =>
            rw [tryTxn]
            cases ran : body v.store with
            | error final => exact ⟨rfl, decided⟩
            | ok result => exact ⟨Or.inl rfl, decided⟩
  have ran := runs v.attempts decided
  unfold Ends runTxn
  rcases run : tryTxn code body v.attempts v.store with ⟨_ | _ | _, rc, rest, s'⟩ <;> rw [run] at ran
  · exact ⟨⟨rfl, rfl, rfl, ran.2⟩, ran.1⟩
  · exact ⟨⟨rfl, rfl, rfl, ran.2⟩, ran.1⟩
  · exact ⟨⟨rfl, rfl, rfl, ran.2⟩, ran.1⟩

/-- A transaction, however often it lands and wherever it is given up, leaves what its body does any number of
times. -/
theorem ends_anyTxn {code : Code} {body : Store P → Except Code (α × Store P)} {v : Vfs P} {I : Store P → Prop}
    {Q : α → Store P → Prop} (start : I v.store)
    (run : ∀ s a s', I s → body s = .ok (a, s') → I s' ∧ Q a s') :
    Ends (runTxn code body) (fun a v' => v'.files = v.files ∧ I v'.store ∧ Q a v'.store)
      (fun v' => v'.files = v.files ∧ I v'.store) (fun v' => v'.files = v.files ∧ I v'.store) v := by
  have runs : ∀ (attempts : List Attempt) (s : Store P), I s →
      match tryTxn code body attempts s with
      | (.ret a, _, _, s') => I s' ∧ Q a s'
      | (.fail, _, _, s') => I s'
      | (.halt, _, _, s') => I s' := by
    intro attempts
    induction attempts with
    | nil =>
        intro s here
        rw [tryTxn]
        cases ran : body s with
        | error final => exact here
        | ok result => exact run s _ _ here ran
    | cons attempt rest ih =>
        intro s here
        cases attempt with
        | lands =>
            rw [tryTxn]
            cases ran : body s with
            | error final => exact here
            | ok result => exact run s _ _ here ran
        | again => exact ih s here
        | unknown =>
            rw [tryTxn]
            cases ran : body s with
            | error final => exact here
            | ok result => exact ih result.2 (run s _ _ here ran).1
        | fatal => exact here
        | dies =>
            rw [tryTxn]
            cases body s <;> exact here
  have ran := runs v.attempts v.store start
  unfold Ends runTxn
  rcases run : tryTxn code body v.attempts v.store with ⟨_ | _ | _, rc, rest, s'⟩ <;> rw [run] at ran
  · exact ⟨rfl, ran⟩
  · exact ⟨rfl, ran⟩
  · exact ⟨rfl, ran⟩

/-! ### Fenced transactions -/

@[simp] theorem onDb_same (s : Store P) (name : DbName) (change : Db P → Db P) :
    (s.onDb name change).dbs name = change (s.dbs name) := if_pos rfl

theorem onDb_other {s : Store P} {name n : DbName} {change : Db P → Db P} (other : n ≠ name) :
    (s.onDb name change).dbs n = s.dbs n := if_neg other

theorem fenced_ok {f : FdbFile P} {change : Db P → Db P} {s : Store P}
    (own : (s.dbs f.name).fence = some f.fence) : fenced f change s = .ok ((), s.onDb f.name change) := by
  unfold fenced checkFence
  rw [if_pos own]
  rfl

theorem fenced_refused {f : FdbFile P} {change : Db P → Db P} {s : Store P}
    (lost : (s.dbs f.name).fence ≠ some f.fence) : fenced f change s = .error .readonly := by
  unfold fenced checkFence
  rw [if_neg lost]
  rfl

theorem onDb_onDb {s : Store P} {name : DbName} {change : Db P → Db P}
    (twice : change (change (s.dbs name)) = change (s.dbs name)) :
    (s.onDb name change).onDb name change = s.onDb name change := by
  have dbs : ((s.onDb name change).onDb name change).dbs = (s.onDb name change).dbs := by
    funext n
    by_cases here : n = name
    · rw [here, onDb_same, onDb_same, twice]
    · rw [onDb_other here]
  calc (s.onDb name change).onDb name change
      = { s.onDb name change with dbs := ((s.onDb name change).onDb name change).dbs } := rfl
    _ = s.onDb name change := by rw [dbs]

/-- The owner's write transaction changes its rows, all of them or none. -/
theorem ends_fenced {f : FdbFile P} {change : Db P → Db P} {code : Code} {v : Vfs P}
    (decided : Decided v.attempts) (own : (v.store.dbs f.name).fence = some f.fence)
    (keeps : (change (v.store.dbs f.name)).fence = (v.store.dbs f.name).fence)
    (twice : change (change (v.store.dbs f.name)) = change (v.store.dbs f.name)) :
    Ends (runTxn code (fenced f change))
      (fun _ v' => Beside v v' ∧ v'.store = v.store.onDb f.name change)
      (fun v' => Beside v v' ∧ v'.store = v.store)
      (fun v' => Beside v v' ∧ (v'.store = v.store ∨ v'.store = v.store.onDb f.name change)) v := by
  let After : Unit → Store P → Prop := fun _ s => s = v.store.onDb f.name change
  have run : ∀ a s', fenced f change v.store = .ok (a, s') → After a s' := by
    intro _ s' ran
    rw [fenced_ok own] at ran
    cases ran
    rfl
  have again : ∀ a s, After a s → ∃ a' s', fenced f change s = .ok (a', s') ∧ After a' s' := by
    intro _ s after
    have still : (s.dbs f.name).fence = some f.fence := by
      rw [after, onDb_same, keeps, own]
    refine ⟨(), _, fenced_ok still, ?_⟩
    change _ = _
    rw [after, onDb_onDb twice]
  apply (ends_runTxn decided run again).mono (fun _ _ h => h) (fun _ h => h)
  rintro v' ⟨beside, same | ⟨_, landed⟩⟩
  · exact ⟨beside, Or.inl same⟩
  · exact ⟨beside, Or.inr landed⟩

/-- What a transaction that is refused leaves alone: everything but what will come of the next. -/
structure Untouched (v v' : Vfs P) : Prop where
  store : v'.store = v.store
  files : v'.files = v.files
  reads : v'.reads = v.reads
  group : v'.group = v.group
  decided : Decided v.attempts → Decided v'.attempts

/-- A writer that has lost the database changes nothing, and is told so unless its transaction failed first. -/
theorem ends_refused {f : FdbFile P} {change : Db P → Db P} {code : Code} {v : Vfs P}
    (lost : (v.store.dbs f.name).fence ≠ some f.fence) :
    Ends (runTxn code (fenced f change)) (fun _ _ => False)
      (fun v' => Untouched v v' ∧ (v'.rc = .readonly ∨ v'.rc = code)) (fun _ => False) v := by
  have runs : ∀ attempts,
      match tryTxn code (fenced f change) attempts v.store with
      | (.ret _, _, _, _) => False
      | (.fail, rc, rest, s') =>
          s' = v.store ∧ (Decided attempts → Decided rest) ∧ (rc = .readonly ∨ rc = code)
      | (.halt, _, _, _) => False := by
    intro attempts
    induction attempts with
    | nil =>
        simp only [tryTxn, fenced_refused lost]
        exact ⟨trivial, id, Or.inl trivial⟩
    | cons attempt rest ih =>
        cases attempt with
        | again => exact ih
        | unknown =>
            simp only [tryTxn, fenced_refused lost]
            exact ⟨trivial, Decided.tail, Or.inl trivial⟩
        | fatal => exact ⟨rfl, Decided.tail, Or.inr rfl⟩
        | lands =>
            simp only [tryTxn, fenced_refused lost]
            exact ⟨trivial, Decided.tail, Or.inl trivial⟩
        | dies =>
            simp only [tryTxn, fenced_refused lost]
            exact ⟨trivial, Decided.tail, Or.inl trivial⟩
  have ran := runs v.attempts
  unfold Ends runTxn
  rcases run : tryTxn code (fenced f change) v.attempts v.store with ⟨_ | _ | _, rc, rest, s'⟩ <;>
    rw [run] at ran
  · exact ran
  · exact ⟨⟨ran.1, rfl, rfl, rfl, ran.2.1⟩, ran.2.2⟩
  · exact ran

end GyreWard.Fdb
