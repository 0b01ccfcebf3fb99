/-
Module: GyreWard.Proofs.Payment
Purpose: A payment by hand, one fallible operation at a time: what each failure leaves of the
  treasury, the purse, the ledger and the Spark's row.
Trusted boundary: none
Main exports: PayReady, Paying, Stopped, Refused, LeftBy, Gyre.withPayment, payAlone_outcome
-/
import GyreWard.Proofs.Building
import GyreWard.Proofs.Sound

namespace GyreWard

open Lib
open Lib.Action (Finishes wp)

/-! ### The parts of a ward a payment touches -/

/-- The ward with another connection to its database, another Spark at place `i`, and another
treasury. -/
def Gyre.put (i : Nat) (c : Conn WardTables) (s : Spark) (treasury : Int) (g : Gyre) : Gyre :=
  { g with ward := c, sparks := g.sparks.set i s, treasury := treasury }

section Put

variable {g : Gyre} {i : Nat} {c c' : Conn WardTables} {s s' : Spark} {t t' : Int}

theorem put_self (here : g.sparks[i]? = some s) : g.put i g.ward s g.treasury = g := by
  have same : g.sparks.set i s = g.sparks := by
    refine List.ext_getElem? fun k => ?_
    rw [List.getElem?_set]
    split
    · rename_i place
      subst place
      rw [here]
      simp [(List.getElem?_eq_some_iff.mp here).1]
    · rfl
  rw [Gyre.put, same]

theorem put_at (here : i < g.sparks.length) : (g.put i c s t).sparks[i]? = some s := by
  simp [Gyre.put, here]

theorem put_onWard {f : Conn WardTables → Option (Conn WardTables)} (effect : f c = some c') :
    Gyre.onWard f (g.put i c s t) = some (g.put i c' s t) := by
  rw [Gyre.onWard, show (g.put i c s t).ward = c from rfl, effect]
  rfl

theorem put_setSpark (here : i < g.sparks.length) (f : Spark → Spark) :
    (g.put i c s t).setSpark i f = g.put i c (f s) t := by
  have same : (g.sparks.set i s).modify i f = g.sparks.set i (f s) := by
    refine List.ext_getElem? fun k => ?_
    rw [List.getElem?_modify, List.getElem?_set, List.getElem?_set]
    split
    · simp_all
    · cases g.sparks[k]? <;> rfl
  rw [Gyre.setSpark, Gyre.put]
  exact congrArg (fun sparks => { g with ward := c, sparks := sparks, treasury := t }) same

theorem put_onSpark (here : i < g.sparks.length)
    {f : Conn SparkTables → Option (Conn SparkTables)} {db : Conn SparkTables}
    (effect : f s.db = some db) :
    Gyre.onSpark i f (g.put i c s t) = some (g.put i c { s with db := db } t) := by
  rw [Gyre.onSpark, put_at here]
  dsimp only
  rw [effect, Option.map_some, put_setSpark here]

theorem put_paid (here : i < g.sparks.length) (amount : Int) :
    (g.put i c s t).paid i amount =
      g.put i c { s with purse := s.purse + amount } (t - amount) :=
  put_setSpark (t := t - amount) here _

end Put

/-! ### What can happen to a payment -/

/-- A Spark whose database has one row, theirs, outside any transaction, in a ward that is open,
founded, and outside any transaction. -/
structure PayReady (g : Gyre) (i : Nat) (s : Spark) (r : SparkRow) : Prop where
  here : g.sparks[i]? = some s
  wardOpen : g.ward.isOpen = true
  wardCreated : g.ward.now.created = true
  wardFree : g.ward.saved = none
  sparkOpen : s.db.isOpen = true
  sparkCreated : s.db.now.created = true
  sparkFree : s.db.saved = none
  rows : s.db.now.spark = [r]
  named : r.id = s.id

/-- A sound ward can pay any of its Sparks. -/
theorem Sound.payReady {g : Gyre} (sound : Sound g) {i : Nat} (here : i < g.sparks.length) :
    ∃ s r, PayReady g i s r := by
  obtain ⟨isOpen, tables⟩ := sound.steady.housed (List.ne_nil_of_length_pos (by omega))
  have at_i : g.sparks[i]? = some g.sparks[i] := List.getElem?_eq_getElem here
  obtain ⟨sparkOpen, rows⟩ := sound.steady.spark i _ at_i
  obtain ⟨created, r, row, named⟩ := rows.now
  refine ⟨g.sparks[i], r, at_i, isOpen, tables.now, ?_, sparkOpen, created, ?_, row, named⟩
  · by_contra inside
    exact sound.settled .ward inside
  · by_contra inside
    exact sound.settled (.spark i) ⟨_, at_i, inside⟩

/-- The ledger row of a payment. -/
def wagesRow (g : Gyre) (amount spark : Int) : LedgerRow :=
  { cycle := g.cycle, what := .wages, amount := -amount, spark }

/-- The tables of a Spark who was paid. -/
def SparkTables.paid (id amount : Int) (t : SparkTables) : SparkTables :=
  { t with
    spark := t.spark.map fun r => if r.id = id then { r with purse := r.purse + amount } else r }

/-! ### A payment under way -/

/-- The payment that began in `w` has run `k` fallible operations, none of which failed; its
participants are `dbs`, and in the ward it is at `c`, `s` and `t`. -/
structure Paying (w : World) (i k : Nat) (dbs : List Handle) (c : Conn WardTables) (s : Spark)
    (t : Int) (w' : World) : Prop where
  clean : ∀ j < k, w.plane.faults (w.plane.tick + j) = false
  faults : w'.plane.faults = w.plane.faults
  tick : w'.plane.tick = w.plane.tick + k
  group : w'.grp.dbs = dbs
  parts : w'.plane.parts = dbs
  isOpen : w'.plane.isOpen = true
  mine : w'.plane.txn = w'.grp.txn
  txn : w'.grp.txn = w.plane.lastTxn + 1
  ward : w'.g = w.g.put i c s t

/-- The payment that began in `w` has been stopped by a failure. -/
structure Stopped (w : World) (i : Nat) (dbs : List Handle) (c : Conn WardTables) (s : Spark)
    (t : Int) (w' : World) : Prop where
  group : w'.grp.dbs = dbs
  ward : w'.g = w.g.put i c s t

/-- The plane fails one of the next `n` operations. -/
def FaultBefore (n : Nat) (w : World) : Prop :=
  ∃ j < n, w.plane.faults (w.plane.tick + j) = true

theorem FaultBefore.mono {n m : Nat} {w : World} (fault : FaultBefore n w) (more : n ≤ m) :
    FaultBefore m w := by
  obtain ⟨j, before, word⟩ := fault
  exact ⟨j, Nat.lt_of_lt_of_le before more, word⟩

section Stages

variable {w w' : World} {i k : Nat} {dbs : List Handle} {c c' : Conn WardTables} {s s' : Spark}
  {t t' : Int} {Q : Unit → World → Prop} {E : World → Prop}

theorem Paying.word (paying : Paying w i k dbs c s t w') :
    w'.plane.faults w'.plane.tick = w.plane.faults (w.plane.tick + k) := by
  rw [paying.faults, paying.tick]

theorem Paying.one_more (paying : Paying w i k dbs c s t w')
    (fine : w.plane.faults (w.plane.tick + k) = false) :
    ∀ j < k + 1, w.plane.faults (w.plane.tick + j) = false := by
  intro j before
  rcases Nat.lt_succ_iff_lt_or_eq.mp before with earlier | rfl
  · exact paying.clean j earlier
  · exact fine

/-- One statement of the payment. -/
theorem Paying.statement (paying : Paying w i k dbs c s t w') {f : Gyre → Option Gyre}
    (effect : f (w.g.put i c s t) = some (w.g.put i c' s' t'))
    (ran : ∀ w'', Paying w i (k + 1) dbs c' s' t' w'' → Q () w'')
    (failed : ∀ w'', w.plane.faults (w.plane.tick + k) = true → Stopped w i dbs c s t w'' →
      E w'') :
    wp (fallible >>= fun _ => update f) Q E w' := by
  rw [← paying.ward] at effect
  refine wp_statement_word effect (fun word => ?_) fun word => ?_
  · rw [paying.word] at word
    exact failed _ word ⟨paying.group, paying.ward⟩
  · rw [paying.word] at word
    exact ran _
      { clean := paying.one_more word
        faults := paying.faults
        tick := congrArg (· + 1) paying.tick
        group := paying.group
        parts := paying.parts
        isOpen := paying.isOpen
        mine := paying.mine
        txn := paying.txn
        ward := rfl }

/-- A participant joining the payment's group. -/
theorem Paying.join (paying : Paying w i k dbs c s t w') {h : Handle} (few : dbs.length < txnMaxParts)
    (fresh : h ∉ dbs) (can : (w.g.put i c s t).CanBegin h)
    (effect : (w.g.put i c s t).began h = w.g.put i c' s' t')
    (ran : ∀ w'', Paying w i (k + 2) (dbs ++ [h]) c' s' t' w'' → Q () w'')
    (failed : ∀ w'', FaultBefore (k + 2) w → Stopped w i dbs c s t w'' → E w'') :
    wp (groupJoin h) Q E w' := by
  have room : HasRoomFor h w' :=
    { isOpen := paying.isOpen
      mine := paying.mine
      notMember := by rwa [paying.group]
      notPart := by rwa [paying.parts]
      members := by rwa [paying.group]
      parts := by rwa [paying.parts] }
  have can' : w'.g.CanBegin h := by rwa [paying.ward]
  by_cases fine : w'.plane.faults w'.plane.tick = false ∧
      w'.plane.faults (w'.plane.tick + 1) = false
  · have lands := groupJoin_lands room can' fine.1 fine.2
    unfold Action.wp
    rw [lands]
    refine ran _
      { clean := ?_
        faults := paying.faults
        tick := congrArg (· + 2) paying.tick
        group := congrArg (· ++ [h]) paying.group
        parts := congrArg (· ++ [h]) paying.parts
        isOpen := paying.isOpen
        mine := paying.mine
        txn := paying.txn
        ward := ?_ }
    · obtain ⟨first, second⟩ := fine
      rw [paying.faults, paying.tick] at first second
      intro j before
      rcases Nat.lt_succ_iff_lt_or_eq.mp before with earlier | rfl
      · exact paying.one_more first j earlier
      · exact second
    · rw [← effect, ← paying.ward]
      rfl
  · obtain ⟨w'', refused, same_g, same_grp⟩ := groupJoin_refused room fun all =>
      fine ⟨all.1, all.2.1⟩
    have fault : FaultBefore (k + 2) w := by
      rw [not_and_or, paying.faults, paying.tick] at fine
      rcases fine with first | second
      · exact ⟨k, by omega, Bool.eq_true_of_not_eq_false first⟩
      · exact ⟨k + 1, by omega, Bool.eq_true_of_not_eq_false second⟩
    unfold Action.wp
    rw [refused]
    refine failed w'' fault ⟨?_, same_g.trans paying.ward⟩
    rw [same_grp, paying.group]

/-- Aborting with only the ward in the group. -/
theorem Stopped.abort_ward (stopped : Stopped w i [.ward] c s t w') :
    wp groupAbort (fun _ w'' => w''.g = w.g.put i c.rollback s t) E w' := by
  unfold groupAbort
  rw [Action.wp_bind, Action.wp_read, stopped.group, Action.wp_bind]
  change wp (weftTxnAbort _) _ _ (w'.setGyre fun g => { g with ward := g.ward.rollback })
  refine Action.wp_mono (wp_weftTxnAbort_same _) (fun _ w'' same => ?_) fun _ h => h
  rw [same]
  change ({ w'.g with ward := w'.g.ward.rollback } : Gyre) = _
  rw [stopped.ward]
  rfl

/-- Aborting with the ward and the Spark in the group. -/
theorem Stopped.abort_both (here : i < w.g.sparks.length)
    (stopped : Stopped w i [.ward, .spark i] c s t w') :
    wp groupAbort
      (fun _ w'' => w''.g = w.g.put i c.rollback { s with db := s.db.rollback } t) E w' := by
  unfold groupAbort
  rw [Action.wp_bind, Action.wp_read, stopped.group, Action.wp_bind]
  change wp (weftTxnAbort _) _ _ ((w'.setGyre fun g => { g with ward := g.ward.rollback }).setGyre
    (Gyre.setSpark i fun s => { s with db := s.db.rollback }))
  refine Action.wp_mono (wp_weftTxnAbort_same _) (fun _ w'' same => ?_) fun _ h => h
  rw [same]
  change Gyre.setSpark i _ { w'.g with ward := w'.g.ward.rollback } = _
  rw [stopped.ward]
  exact put_setSpark (c := c.rollback) here _

end Stages

/-! ### The stages of a payment -/

/-- A connection in a transaction that began on what it reads now. -/
def Conn.begun {T : Type} (c : Conn T) : Conn T := { c with saved := some c.now }

/-- A connection on other tables. -/
def Conn.on {T : Type} (now : T) (c : Conn T) : Conn T := { c with now := now }

theorem rollback_begun {T : Type} {c : Conn T} (free : c.saved = none) (now : T) :
    (c.begun.on now).rollback = c := by
  obtain ⟨name, isOpen, was, saved⟩ := c
  obtain rfl : saved = none := free
  rfl

section Payment

variable {w : World} {i : Nat} {s : Spark} {r : SparkRow} (amount : Int)

/-- The ward's connection, with the payment in its ledger. -/
def Gyre.booked (g : Gyre) (s : Spark) (amount : Int) : Conn WardTables :=
  g.ward.on (g.ward.now.withRow (wagesRow g amount s.id))

/-- The Spark, with the payment in their row. -/
def Spark.credited (s : Spark) (amount : Int) : Spark :=
  { s with db := s.db.on (s.db.now.paid s.id amount) }

/-- A failure before the commits: everything the payment did is undone when its group is
aborted. -/
def Undone (w w' : World) : Prop :=
  FaultBefore 8 w ∧ ∀ E : World → Prop, wp groupAbort (fun _ w'' => w''.g = w.g) E w'

theorem undone_ward (ready : PayReady w.g i s r) {w' : World}
    (fault : FaultBefore 8 w) (stopped : Stopped w i [.ward] w.g.ward.begun s w.g.treasury w') :
    Undone w w' := by
  refine ⟨fault, fun E => ?_⟩
  refine Action.wp_mono stopped.abort_ward (fun _ w'' undone => ?_) fun _ h => h
  rw [undone, show w.g.ward.begun.rollback = w.g.ward from rollback_begun ready.wardFree _]
  exact put_self ready.here

theorem undone_both (ready : PayReady w.g i s r) {w' : World} {now : WardTables}
    {rows : SparkTables} (fault : FaultBefore 8 w)
    (stopped : Stopped w i [.ward, .spark i] (w.g.ward.begun.on now)
      { s with db := s.db.begun.on rows } w.g.treasury w') : Undone w w' := by
  have here : i < w.g.sparks.length := (List.getElem?_eq_some_iff.mp ready.here).1
  refine ⟨fault, fun E => ?_⟩
  refine Action.wp_mono (stopped.abort_both here) (fun _ w'' undone => ?_) fun _ h => h
  rw [undone, rollback_begun ready.wardFree]
  dsimp only
  rw [rollback_begun ready.sparkFree]
  exact put_self ready.here

/-- The ward's connection and the Spark, with both sides of the payment written and nothing
committed. -/
def Gyre.staged (g : Gyre) (s : Spark) (amount : Int) : Conn WardTables :=
  g.ward.begun.on (g.ward.now.withRow (wagesRow g amount s.id))

def Spark.staged (s : Spark) (amount : Int) : Spark :=
  { s with db := s.db.begun.on (s.db.now.paid s.id amount), purse := s.purse + amount }

/-- `pay` in a group that has just begun: both sides are written, or everything is undone by an
abort. -/
theorem wp_pay_by_hand (ready : PayReady w.g i s r) {w₁ : World}
    (paying : Paying w i 3 [.ward] w.g.ward.begun s w.g.treasury w₁) :
    wp (pay i amount none)
      (fun _ => Paying w i 7 [.ward, .spark i] (w.g.staged s amount) (s.staged amount)
        (w.g.treasury - amount))
      (Undone w) w₁ := by
  have here : i < w.g.sparks.length := (List.getElem?_eq_some_iff.mp ready.here).1
  have can : (w.g.put i w.g.ward.begun s w.g.treasury).CanBegin (.spark i) :=
    ⟨s, put_at here, ready.sparkOpen, ready.sparkFree⟩
  unfold pay
  rw [Action.wp_bind]
  have began : (w.g.put i w.g.ward.begun s w.g.treasury).began (.spark i) =
      w.g.put i w.g.ward.begun { s with db := s.db.begun } w.g.treasury := put_setSpark here _
  refine paying.join (by decide) (by simp) can began (fun w₂ paying => ?_)
    fun _ fault stopped => undone_ward ready (fault.mono (by omega)) stopped
  have id : (w₂.g.sparks[i]?.map (·.id)).getD 0 = s.id := by
    rw [paying.ward, put_at here]
    rfl
  have cycle : w₂.g.cycle = w.g.cycle := by
    rw [paying.ward]
    rfl
  rw [Action.wp_bind, Action.wp_read, id, Action.wp_bind]
  unfold book
  rw [Action.wp_bind, Action.wp_read, cycle]
  have booked : Conn.execute (insertLedger (wagesRow w.g amount s.id)) w.g.ward.begun =
      some (w.g.staged s amount) := by
    simp [Conn.execute, Conn.begun, Gyre.staged, Conn.on, insertLedger, WardTables.existing,
      ready.wardOpen, ready.wardCreated, WardTables.withRow]
  refine paying.statement (put_onWard booked) (fun w₃ paying => ?_)
    fun w₃ fault stopped => ?_
  rotate_left
  · have before : Stopped w i [.ward, .spark i] (w.g.ward.begun.on w.g.ward.now)
        { s with db := s.db.begun.on s.db.now } w.g.treasury w₃ := stopped
    exact undone_both ready ⟨5, by omega, fault⟩ before
  have credited : Conn.execute (updatePurse s.id amount) s.db.begun =
      some (s.db.begun.on (s.db.now.paid s.id amount)) := by
    simp [Conn.execute, Conn.begun, Conn.on, updatePurse, updateSparkRow, SparkTables.existing,
      ready.sparkOpen, ready.sparkCreated, SparkTables.paid]
  rw [Action.wp_bind]
  refine paying.statement (put_onSpark here credited) (fun w₄ paying => ?_)
    fun w₄ fault stopped => ?_
  · exact
      { clean := paying.clean
        faults := paying.faults
        tick := paying.tick
        group := paying.group
        parts := paying.parts
        isOpen := paying.isOpen
        mine := paying.mine
        txn := paying.txn
        ward := (congrArg (Gyre.paid i amount) paying.ward).trans (put_paid here amount) }
  · have before : Stopped w i [.ward, .spark i] (w.g.staged s amount)
        { s with db := s.db.begun.on s.db.now } w.g.treasury w₄ := stopped
    exact undone_both ready ⟨6, by omega, fault⟩ before

/-- `group_begin` for a payment. -/
theorem wp_begin_by_hand (ready : PayReady w.g i s r) :
    wp groupBegin (fun _ => Paying w i 3 [.ward] w.g.ward.begun s w.g.treasury)
      (fun w' => FaultBefore 8 w ∧ w'.g = w.g) w := by
  unfold Action.wp
  rw [groupBegin_eq]
  cases w.plane.locked with
  | true => trivial
  | false =>
    cases first : w.plane.faults w.plane.tick with
    | true => exact ⟨⟨0, by omega, first⟩, rfl⟩
    | false =>
      have same : w.g = w.g.put i w.g.ward s w.g.treasury := (put_self ready.here).symm
      have paying : Paying w i 1 [] w.g.ward s w.g.treasury w.begun :=
        { clean := fun j before => by
            obtain rfl : j = 0 := Nat.lt_one_iff.mp before
            exact first
          faults := rfl
          tick := rfl
          group := rfl
          parts := rfl
          isOpen := rfl
          mine := rfl
          txn := rfl
          ward := same }
      have can : (w.g.put i w.g.ward s w.g.treasury).CanBegin .ward :=
        ⟨ready.wardOpen, ready.wardFree⟩
      exact paying.join (h := .ward) (Nat.zero_lt_succ _) List.not_mem_nil can rfl
        (fun _ paying => paying) fun _ fault stopped =>
          ⟨fault.mono (by omega), stopped.ward.trans same.symm⟩

/-- The Spark of a payment that both databases have committed, before the purse is put back. -/
def Spark.settled (s : Spark) (amount : Int) : Spark :=
  { s.credited amount with purse := s.purse + amount }

/-- How a group that does not land can leave the ward: with everything undone, with the wages in
the ledger alone, or with both databases paid. -/
inductive Refused (w : World) (i : Nat) (s : Spark) (amount : Int) : Gyre → Prop where
  | undone (early : FaultBefore 8 w) :
      Refused w i s amount (w.g.put i w.g.ward { s with purse := s.purse + amount }
        (w.g.treasury - amount))
  | ledger (clean : ∀ j < 8, w.plane.faults (w.plane.tick + j) = false)
      (fault : w.plane.faults (w.plane.tick + 8) = true) :
      Refused w i s amount (w.g.put i (w.g.booked s amount) { s with purse := s.purse + amount }
        (w.g.treasury - amount))
  | both (clean : ∀ j < 8, w.plane.faults (w.plane.tick + j) = false)
      (fault : w.plane.faults (w.plane.tick + 9) = true) :
      Refused w i s amount (w.g.put i (w.g.booked s amount) (s.settled amount)
        (w.g.treasury - amount))

/-- The group record of a payment. -/
theorem wp_record {w' : World} {c : Conn WardTables} {s' : Spark} {t : Int}
    (paying : Paying w i 9 [.ward, .spark i] c s' t w') :
    wp (weftTxnCommit (w.plane.lastTxn + 1))
      (fun _ w'' => w''.g = w.g.put i c s' t ∧ w.plane.faults (w.plane.tick + 9) = false)
      (fun w'' => w''.g = w.g.put i c s' t ∧ w.plane.faults (w.plane.tick + 9) = true) w' := by
  have stillOpen : ¬ (¬ w'.plane.isOpen = true ∨ w'.plane.txn ≠ w.plane.lastTxn + 1) := by
    simp [paying.isOpen, paying.mine, paying.txn]
  unfold weftTxnCommit observe
  rw [Action.wp_bind, Action.wp_modify, Action.wp_bind, Action.wp_read]
  refine Action.wp_ite (fun closed => absurd closed stillOpen) fun _ => ?_
  rw [Action.wp_bind, Action.wp_attempt]
  refine wp_fallible_word (fun word => ?_) fun word => ?_
  · exact ⟨paying.ward, paying.word.symm.trans word⟩
  · exact ⟨paying.ward, paying.word.symm.trans word⟩

/-- `group_commit` for a payment. -/
theorem wp_commit_by_hand (ready : PayReady w.g i s r) {w₁ : World}
    (paying : Paying w i 7 [.ward, .spark i] (w.g.staged s amount) (s.staged amount)
      (w.g.treasury - amount) w₁) :
    wp groupCommit
      (fun _ w' => w'.g =
        w.g.put i (w.g.booked s amount) (s.settled amount) (w.g.treasury - amount) ∧
        ∀ j < 10, w.plane.faults (w.plane.tick + j) = false)
      (fun w' => Refused w i s amount w'.g) w₁ := by
  have here : i < w.g.sparks.length := (List.getElem?_eq_some_iff.mp ready.here).1
  have wardDone : Conn.commit (w.g.staged s amount) = some (w.g.booked s amount) := by
    simp [Conn.commit, Gyre.staged, Gyre.booked, Conn.begun, Conn.on, ready.wardFree]
  have sparkDone : Conn.commit (s.staged amount).db = some (s.settled amount).db := by
    simp [Conn.commit, Spark.staged, Spark.settled, Spark.credited, Conn.begun, Conn.on,
      ready.sparkFree]
  have wardKept : (w.g.booked s amount).rollback = w.g.booked s amount := by
    simp [Conn.rollback, Gyre.booked, Conn.on, ready.wardFree]
  have sparkBack : (s.staged amount).db.rollback = s.db := rollback_begun ready.sparkFree _
  unfold groupCommit
  rw [Action.wp_bind, Action.wp_read, paying.group, paying.txn, Action.wp_bind, Action.wp_onFail]
  change wp (sqlCommit .ward >>= fun _ => sqlCommit (.spark i) >>= fun _ => pure ()) _ _ _
  rw [Action.wp_bind]
  refine paying.statement (put_onWard wardDone) (fun w₂ paying₂ => ?_) fun w₂ fault stopped => ?_
  · rw [Action.wp_bind]
    refine paying₂.statement (put_onSpark here sparkDone) (fun w₃ paying₃ => ?_)
      fun w₃ fault stopped => ?_
    · rw [Action.wp_pure]
      refine Action.wp_mono (wp_record paying₃) (fun _ w₄ landed => ?_) fun w₄ refused => ?_
      · exact ⟨landed.1, paying₃.one_more landed.2⟩
      · rw [refused.1]
        exact .both (fun j before => paying₃.clean j (Nat.lt_succ_of_lt before)) refused.2
    · refine Action.wp_mono (stopped.abort_both here) (fun _ w₄ aborted => ?_) fun _ h => h
      rw [aborted, wardKept, sparkBack]
      exact .ledger paying₂.clean fault
  · refine Action.wp_mono (stopped.abort_both here) (fun _ w₃ aborted => ?_) fun _ h => h
    rw [aborted, sparkBack, show (w.g.staged s amount).rollback = w.g.ward from
      rollback_begun ready.wardFree _]
    exact .undone ⟨7, by omega, fault⟩

/-- The ward once both sides hold the payment. -/
def Gyre.withPayment (i : Nat) (s : Spark) (amount : Int) (g : Gyre) : Gyre :=
  g.put i (g.booked s amount) (s.settled amount) (g.treasury - amount)

/-- How a payment that is refused can leave the ward: as it was, or with both databases or the
ledger alone holding it, once a late failure has hit it. -/
inductive LeftBy (w : World) (i : Nat) (s : Spark) (amount : Int) : Gyre → Prop where
  | untouched (early : FaultBefore 8 w) : LeftBy w i s amount w.g
  | ledger (clean : ∀ j < 8, w.plane.faults (w.plane.tick + j) = false)
      (fault : w.plane.faults (w.plane.tick + 8) = true) :
      LeftBy w i s amount (w.g.put i (w.g.booked s amount) s w.g.treasury)
  | both (clean : ∀ j < 8, w.plane.faults (w.plane.tick + j) = false)
      (fault : w.plane.faults (w.plane.tick + 9) = true) :
      LeftBy w i s amount (w.g.put i (w.g.booked s amount) (s.credited amount) w.g.treasury)

/-- A payment is only refused when the plane fails something. -/
theorem LeftBy.fault {g : Gyre} (left : LeftBy w i s amount g) :
    ∃ k, w.plane.faults k = true := by
  cases left with
  | untouched early =>
      obtain ⟨j, -, word⟩ := early
      exact ⟨_, word⟩
  | ledger _ fault => exact ⟨_, fault⟩
  | both _ fault => exact ⟨_, fault⟩

/-- The scrip `pay` moved in memory is put back when the group does not land. -/
theorem Refused.restored (ready : PayReady w.g i s r) {g : Gyre}
    (refused : Refused w i s amount g) : LeftBy w i s amount (g.paid i (-amount)) := by
  have here : i < w.g.sparks.length := (List.getElem?_eq_some_iff.mp ready.here).1
  have purse : s.purse + amount + -amount = s.purse := by omega
  have treasury : w.g.treasury - amount - -amount = w.g.treasury := by omega
  cases refused with
  | undone early =>
      rw [put_paid here]
      dsimp only
      rw [purse, treasury, show ({ s with purse := s.purse } : Spark) = s from rfl,
        put_self ready.here]
      exact .untouched early
  | ledger clean fault =>
      rw [put_paid here]
      dsimp only
      rw [purse, treasury]
      exact .ledger clean fault
  | both clean fault =>
      rw [put_paid here]
      dsimp only [Spark.settled]
      rw [purse, treasury]
      exact .both clean fault

/-- What a payment by hand does: it lands on both sides, or it is refused. -/
theorem payAlone_outcome (ready : PayReady w.g i s r) :
    wp (payAlone i amount none)
      (fun _ w' => w'.g = w.g.withPayment i s amount ∧
        ∀ j < 10, w.plane.faults (w.plane.tick + j) = false)
      (fun w' => LeftBy w i s amount w'.g) w := by
  have untouched : FaultBefore 8 w → ∀ g, g = w.g → LeftBy w i s amount g := by
    rintro early g rfl
    exact .untouched early
  unfold payAlone
  rw [Action.wp_bind]
  refine Action.wp_mono (wp_begin_by_hand ready) (fun _ w₁ paying => ?_)
    fun w' refused => untouched refused.1 _ refused.2
  rw [Action.wp_bind, Action.wp_onFail]
  refine Action.wp_mono (wp_pay_by_hand amount ready paying) (fun _ w₂ paying => ?_)
    fun w₂ undone => ?_
  · rw [Action.wp_onFail]
    refine Action.wp_mono (wp_commit_by_hand amount ready paying) (fun _ _ landed => landed)
      fun w₃ refused => ?_
    exact refused.restored amount ready
  · exact Action.wp_mono (undone.2 _) (fun _ w' same => untouched undone.1 _ same) fun _ h => h

end Payment

end GyreWard
