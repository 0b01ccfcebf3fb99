/-
Module: GyreWard.Proofs.Sound
Purpose: The invariant of a ward between two commands, whatever the plane fails: every Spark's
  database is open on that Spark's one row, and no database is left in a transaction.
Trusted boundary: none
Main exports: SparkTables.Of, Steady, Working, Sound, working_made, soundness, Reached.sound
-/
import GyreWard.Proofs.Invariants
import GyreWard.Proofs.Moves
import GyreWard.Proofs.Groups
import GyreWard.Proofs.Founding

namespace GyreWard

open Lib
open Lib.Action (MadeOf Keeps Leaves wp)

/-! ### Transactions -/

/-- A connection of the ward is in a transaction. -/
def Gyre.InTransaction (g : Gyre) : Handle → Prop
  | .ward => g.ward.saved ≠ none
  | .spark i => ∃ s, g.sparks[i]? = some s ∧ s.db.saved ≠ none

/-! ### What every statement keeps -/

/-- The tables of one Spark: they have been created, and hold one row, that Spark's. -/
structure SparkTables.Of (id : Int) (t : SparkTables) : Prop where
  created : t.created = true
  row : ∃ r, t.spark = [r] ∧ r.id = id

theorem WardTables.created_of_existing {f : WardTables → WardTables} {t t' : WardTables}
    (run : WardTables.existing (fun t => some (f t)) t = some t')
    (keeps : ∀ t, (f t).created = t.created) : t'.created = true := by
  unfold WardTables.existing at run
  split at run
  · obtain rfl := Option.some.inj run
    rw [keeps]
    assumption
  · cases run

/-- A statement that takes effect finds the ward's tables created, and leaves them so. -/
theorem WardStatement.created {stmt : WardTables → Option WardTables} (runs : WardStatement stmt)
    {t t' : WardTables} (run : stmt t = some t') : t'.created = true := by
  cases runs <;> exact WardTables.created_of_existing run fun _ => rfl

theorem BoardStatement.created {stmt : WardTables → Option WardTables}
    (runs : BoardStatement stmt) {t t' : WardTables} (run : stmt t = some t') :
    t'.created = true := by
  cases runs with
  | post cycle kind payout risk place => exact WardTables.created_of_existing run fun _ => rfl
  | name id wire owner =>
      cases created : t.created with
      | true =>
          rw [updateContractWire, WardTables.existing, if_pos created] at run
          split at run
          · cases run
          · obtain rfl := Option.some.inj run
            exact created
      | false =>
          rw [updateContractWire, WardTables.existing, created] at run
          cases run

theorem SparkTables.Of.update {id who : Int} {f : SparkRow → SparkRow} {t t' : SparkTables}
    (mine : t.Of id) (run : updateSparkRow who f t = some t') (keeps : ∀ r, (f r).id = r.id) :
    t'.Of id := by
  obtain ⟨created, r, rows, named⟩ := mine
  rw [updateSparkRow, SparkTables.existing, if_pos created] at run
  obtain rfl := Option.some.inj run
  refine ⟨created, if r.id = who then f r else r, by simp [rows], ?_⟩
  split
  · rw [keeps, named]
  · exact named

theorem SparkStatement.keeps {stmt : SparkTables → Option SparkTables}
    (runs : SparkStatement stmt) {id : Int} {t t' : SparkTables} (run : stmt t = some t')
    (mine : t.Of id) : t'.Of id := by
  cases runs with
  | purse who amount => exact mine.update run fun _ => rfl
  | work who wear cycles place => exact mine.update run fun _ => rfl
  | held row =>
      rw [insertHeld, SparkTables.existing, if_pos mine.created] at run
      split at run
      · cases run
      · obtain rfl := Option.some.inj run
        exact ⟨mine.created, mine.row⟩

/-! ### Between commands, and inside a group -/

/-- A Spark whose database is open on their one row, now and after a rollback. -/
structure Spark.Steady (s : Spark) : Prop where
  isOpen : s.db.isOpen = true
  rows : s.db.Holds (SparkTables.Of s.id)

/-- The ward's database is open and founded, now and after a rollback. -/
structure Gyre.Housed (g : Gyre) : Prop where
  isOpen : g.ward.isOpen = true
  tables : g.ward.Holds (·.created = true)

/-- A ward whose Sparks have a house, and each a database. -/
structure Steady (g : Gyre) : Prop where
  housed : g.sparks ≠ [] → g.Housed
  spark : ∀ (i : Nat) (s : Spark), g.sparks[i]? = some s → s.Steady

/-- The participants of the group on the stack are `dbs`, and only connections allowed to be are in a
transaction. -/
structure Within (dbs : List Handle) (allowed : Handle → Prop) (w : World) : Prop where
  group : w.grp.dbs = dbs
  steady : Steady w.g
  member : ∀ h, w.g.InTransaction h → allowed h

/-- Inside a group, every transaction is one of the group's. -/
def Working (w : World) : Prop := Within w.grp.dbs (· ∈ w.grp.dbs) w

/-- Between two commands there is no transaction. -/
structure Sound (g : Gyre) : Prop where
  steady : Steady g
  settled : ∀ h, ¬ g.InTransaction h

theorem Sound.within {w : World} (sound : Sound w.g) (allowed : Handle → Prop) :
    Within w.grp.dbs allowed w :=
  ⟨rfl, sound.steady, fun h inside => absurd inside (sound.settled h)⟩

theorem Sound.working {w : World} (sound : Sound w.g) : Working w := sound.within _

theorem Within.working {w : World} {dbs : List Handle} (within : Within dbs (· ∈ dbs) w) :
    Working w := by
  unfold Working
  rw [within.group]
  exact within

section Parts

variable {g : Gyre}

theorem Steady.of_same (steady : Steady g) {g' : Gyre} (ward : g'.ward = g.ward)
    (sparks : g'.sparks = g.sparks) : Steady g' where
  housed := by
    intro there
    rw [sparks] at there
    obtain ⟨isOpen, tables⟩ := steady.housed there
    exact ⟨by rwa [ward], by rwa [ward]⟩
  spark := by
    rw [sparks]
    exact steady.spark

theorem inTransaction_of_same {g' : Gyre} (ward : g'.ward = g.ward)
    (sparks : g'.sparks = g.sparks) {h : Handle} (inside : g'.InTransaction h) :
    g.InTransaction h := by
  cases h with
  | ward =>
      rw [Gyre.InTransaction, ward] at inside
      exact inside
  | spark i =>
      rw [Gyre.InTransaction, sparks] at inside
      exact inside

theorem Steady.onWard (steady : Steady g) {c : Conn WardTables}
    (isOpen : g.ward.isOpen = true → c.isOpen = true)
    (tables : g.ward.Holds (·.created = true) → c.Holds (·.created = true)) :
    Steady { g with ward := c } where
  housed := fun there =>
    ⟨isOpen (steady.housed there).isOpen, tables (steady.housed there).tables⟩
  spark := steady.spark

theorem Steady.setSpark (steady : Steady g) (i : Nat) {f : Spark → Spark}
    (each : ∀ s : Spark, g.sparks[i]? = some s → s.Steady → (f s).Steady) : Steady (g.setSpark i f) where
  housed := by
    intro there
    obtain ⟨isOpen, tables⟩ := steady.housed fun empty => there (setSpark_nil.mpr empty)
    exact ⟨isOpen, tables⟩
  spark := by
    intro k s at_k
    rw [setSpark_at] at at_k
    split at at_k
    · rename_i same
      subst same
      obtain ⟨s', here, rfl⟩ := Option.map_eq_some_iff.mp at_k
      exact each s' here (steady.spark i s' here)
    · exact steady.spark k s at_k

theorem inTransaction_setSpark {i : Nat} {f : Spark → Spark} {h : Handle}
    (inside : (g.setSpark i f).InTransaction h) :
    g.InTransaction h ∧ h ≠ .spark i ∨
      h = .spark i ∧ ∃ s, g.sparks[i]? = some s ∧ (f s).db.saved ≠ none := by
  cases h with
  | ward => exact Or.inl ⟨inside, nofun⟩
  | spark k =>
      obtain ⟨s, at_k, saved⟩ := inside
      rw [setSpark_at] at at_k
      split at at_k
      · rename_i same
        subst same
        obtain ⟨s', here, rfl⟩ := Option.map_eq_some_iff.mp at_k
        exact Or.inr ⟨rfl, s', here, saved⟩
      · rename_i other
        exact Or.inl ⟨⟨s, at_k, saved⟩, fun same => other (Handle.spark.inj same).symm⟩

end Parts

/-! ### Writing keeps to the group -/

section Writing

variable {dbs : List Handle} {allowed : Handle → Prop}

theorem keeps_within_fallible : Keeps (Within dbs allowed) fallible := by
  intro w within
  rw [fallible_eq]
  split <;> exact ⟨within.group, within.steady, within.member⟩

theorem keeps_within_update {f : Gyre → Option Gyre}
    (steady : ∀ g g', f g = some g' → Steady g → Steady g')
    (settled : ∀ g g', f g = some g' → ∀ h, g'.InTransaction h → g.InTransaction h) :
    Keeps (Within dbs allowed) (update f) := by
  intro w within
  unfold update
  cases run : f w.g with
  | none => exact within
  | some g =>
      exact ⟨within.group, steady _ _ run within.steady, fun h inside =>
        within.member h (settled _ _ run h inside)⟩

/-- A statement on the ward that leaves the tables created, whatever it does. -/
theorem keeps_within_onWard {stmt : WardTables → Option WardTables}
    (creates : ∀ t t', stmt t = some t' → t'.created = true) :
    Keeps (Within dbs allowed) (update (Gyre.onWard (Conn.execute stmt))) := by
  refine keeps_within_update (fun g g' run steady => ?_) fun g g' run h inside => ?_
  · obtain ⟨c, executed, rfl⟩ := onWard_eq_some.mp run
    obtain ⟨isOpen, t, effect, rfl⟩ := Conn.execute_eq_some.mp executed
    exact steady.onWard (fun _ => isOpen) fun tables => ⟨creates _ _ effect, tables.saved⟩
  · obtain ⟨c, executed, rfl⟩ := onWard_eq_some.mp run
    obtain ⟨isOpen, t, effect, rfl⟩ := Conn.execute_eq_some.mp executed
    cases h with
    | ward => exact inside
    | spark i => exact inside

/-- A statement on a Spark that leaves the tables theirs. -/
theorem keeps_within_onSpark (i : Nat) {stmt : SparkTables → Option SparkTables}
    (keeps : ∀ id t t', stmt t = some t' → t.Of id → t'.Of id) :
    Keeps (Within dbs allowed) (update (Gyre.onSpark i (Conn.execute stmt))) := by
  refine keeps_within_update (fun g g' run steady => ?_) fun g g' run h inside => ?_
  · obtain ⟨s, c, here, executed, rfl⟩ := onSpark_eq_some.mp run
    obtain ⟨isOpen, t, effect, rfl⟩ := Conn.execute_eq_some.mp executed
    refine steady.setSpark i fun s' here' steady => ?_
    obtain rfl : s = s' := Option.some.inj (here.symm.trans here')
    exact ⟨isOpen, keeps _ _ _ effect steady.rows.now, steady.rows.saved⟩
  · obtain ⟨s, c, here, executed, rfl⟩ := onSpark_eq_some.mp run
    obtain ⟨isOpen, t, effect, rfl⟩ := Conn.execute_eq_some.mp executed
    rcases inTransaction_setSpark inside with ⟨inside, -⟩ | ⟨rfl, s', here', saved⟩
    · exact inside
    · exact ⟨s, here, saved⟩

/-- What is remembered of a Spark in a cycle leaves their name and their database alone. -/
theorem keeps_within_setSpark (i : Nat) {f : Spark → Spark} (id : ∀ s, (f s).id = s.id)
    (db : ∀ s, (f s).db = s.db) : Keeps (Within dbs allowed) (remember (Gyre.setSpark i f)) := by
  intro w within
  refine ⟨within.group, within.steady.setSpark i fun s _ steady => ?_, fun h inside => ?_⟩
  · constructor
    · rw [db]
      exact steady.isOpen
    · rw [db, id]
      exact steady.rows
  · rcases inTransaction_setSpark inside with ⟨inside, -⟩ | ⟨rfl, s, here, saved⟩
    · exact within.member h inside
    · rw [db] at saved
      exact within.member _ ⟨s, here, saved⟩

/-- What is remembered of the books leaves every connection alone. -/
theorem keeps_within_books {f : Gyre → Gyre} (ward : ∀ g, (f g).ward = g.ward)
    (sparks : ∀ g, (f g).sparks = g.sparks) : Keeps (Within dbs allowed) (remember f) := by
  intro w within
  refine ⟨within.group, within.steady.of_same (ward w.g) (sparks w.g), fun h inside => ?_⟩
  exact within.member h (inTransaction_of_same (ward w.g) (sparks w.g) inside)

theorem Bookkeeping.keeps_within {f : Gyre → Gyre} (keeps : Bookkeeping f) :
    Keeps (Within dbs allowed) (remember f) := by
  cases keeps with
  | spend cost => exact keeps_within_books (fun _ => rfl) fun _ => rfl
  | draw r => exact keeps_within_books (fun _ => rfl) fun _ => rfl
  | earn amount => exact keeps_within_books (fun _ => rfl) fun _ => rfl
  | compound => exact keeps_within_books (fun _ => rfl) fun _ => rfl
  | retire amount => exact keeps_within_books (fun _ => rfl) fun _ => rfl
  | setWear i f => exact keeps_within_setSpark i (fun _ => rfl) fun _ => rfl
  | movePlace i f => exact keeps_within_setSpark i (fun _ => rfl) fun _ => rfl
  | paid i amount =>
      intro w within
      have books := keeps_within_books (f := fun g => { g with treasury := g.treasury - amount })
        (fun _ => rfl) (fun _ => rfl) w within
      exact keeps_within_setSpark i (f := fun s => { s with purse := s.purse + amount })
        (fun _ => rfl) (fun _ => rfl) _ books

theorem ContractMove.keeps_within {α : Type} {x : Action World α} (moves : ContractMove α x) :
    Keeps (Within dbs allowed) x := by
  cases moves with
  | fallible => exact keeps_within_fallible
  | onWard runs => exact keeps_within_onWard fun _ _ => runs.created
  | draw r => exact keeps_within_books (fun _ => rfl) fun _ => rfl

/-- Nothing that writes opens a transaction. -/
theorem Write.keeps_within {α : Type} {x : Action World α} (writes : Write α x) :
    Keeps (Within dbs allowed) x := by
  cases writes with
  | fallible => exact keeps_within_fallible
  | onWard runs => exact keeps_within_onWard fun _ _ => runs.created
  | onSpark i runs => exact keeps_within_onSpark i fun _ _ _ => runs.keeps
  | remember keeps => exact keeps.keeps_within
  | contract i => exact (made_postContract i).keeps fun _ _ moves => moves.keeps_within

end Writing

/-! ### Joining -/

theorem weftTxnJoin_same (h : Handle) (txn : Nat) :
    Leaves (fun w => (w.g, w.grp)) (weftTxnJoin h txn) := by
  have asked : Leaves (fun w : World => (w.g, w.grp)) fallible := by
    intro w
    rw [fallible_eq]
    split <;> rfl
  have made : MadeOf (fun _ y => Leaves (fun w : World => (w.g, w.grp)) y) Unit
      (weftTxnJoin h txn) := by
    refine .bind (.move asked) fun _ => .bind (.read _) fun w => ?_
    refine .ite (fun _ => .fail) fun _ => .ite (fun _ => .fail) fun _ => ?_
    exact .ite (fun _ => .pure _) fun _ => .move fun _ => rfl
  exact made.leaves fun _ _ steady => steady

/-- `BEGIN` opens one transaction, or does nothing. -/
theorem wp_sqlBegin {w : World} (steady : Steady w.g) (h : Handle) :
    wp (sqlBegin h)
      (fun _ w' => w'.grp = w.grp ∧ Steady w'.g ∧
        ∀ k, w'.g.InTransaction k → w.g.InTransaction k ∨ k = h)
      (fun w' => w'.g = w.g ∧ w'.grp = w.grp) w := by
  cases h with
  | ward =>
      refine wp_statement ⟨rfl, rfl⟩ fun g run => ?_
      obtain ⟨c, begun, rfl⟩ := onWard_eq_some.mp run
      obtain ⟨isOpen, -, rfl⟩ := Conn.begin_eq_some.mp begun
      refine ⟨rfl, steady.onWard (fun _ => isOpen) fun tables => tables.begin, fun k inside => ?_⟩
      cases k with
      | ward => exact Or.inr rfl
      | spark i => exact Or.inl inside
  | spark i =>
      refine wp_statement ⟨rfl, rfl⟩ fun g run => ?_
      obtain ⟨s, c, here, begun, rfl⟩ := onSpark_eq_some.mp run
      obtain ⟨isOpen, -, rfl⟩ := Conn.begin_eq_some.mp begun
      refine ⟨rfl, steady.setSpark i fun s' here' known => ?_, fun k inside => ?_⟩
      · obtain rfl : s = s' := Option.some.inj (here.symm.trans here')
        exact ⟨isOpen, known.rows.begin⟩
      · rcases inTransaction_setSpark inside with ⟨inside, -⟩ | ⟨rfl, -⟩
        · exact Or.inl inside
        · exact Or.inr rfl

/-- A join that lands leaves its transaction in the group; one that is refused leaves the ward and
the group as they were. -/
theorem wp_groupJoin {w : World} (working : Working w) (h : Handle) :
    wp (groupJoin h) (fun _ => Working) (fun w' => w'.g = w.g ∧ w'.grp = w.grp) w := by
  unfold groupJoin
  rw [Action.wp_bind, Action.wp_read]
  refine Action.wp_ite (fun _ => working) fun _ => Action.wp_ite (fun _ => ⟨rfl, rfl⟩) fun _ => ?_
  rw [Action.wp_bind]
  refine Action.wp_mono ((weftTxnJoin_same h _).wp w) (fun _ w₁ same => ?_) fun w₁ same => ?_
  · have same_g : w₁.g = w.g := congrArg Prod.fst same
    have same_grp : w₁.grp = w.grp := congrArg Prod.snd same
    rw [Action.wp_bind]
    have steady : Steady w₁.g := by
      rw [same_g]
      exact working.steady
    refine Action.wp_mono (wp_sqlBegin steady h) (fun _ w₂ begun => ?_) fun w₂ refused => ?_
    · obtain ⟨group, steady, opened⟩ := begun
      refine ⟨rfl, steady, fun k inside => List.mem_append.mpr ?_⟩
      rcases opened k inside with before | rfl
      · rw [same_g] at before
        have member := working.member k before
        rw [← same_grp, ← group] at member
        exact Or.inl member
      · exact Or.inr (List.mem_singleton_self _)
    · exact ⟨refused.1.trans same_g, refused.2.trans same_grp⟩
  · exact Prod.mk.inj same

theorem Move.wp_working {α : Type} {x : Action World α} (moves : Move α x) (w : World)
    (working : Working w) : wp x (fun _ => Working) Working w := by
  cases moves with
  | write writes =>
      exact Action.wp_mono (writes.keeps_within.wp working) (fun _ _ within => within.working)
        fun _ within => within.working
  | join h =>
      refine Action.wp_mono (wp_groupJoin working h) (fun _ _ working => working) fun w' same => ?_
      obtain ⟨same_g, same_grp⟩ := same
      unfold Working
      rw [same_grp]
      exact ⟨by rw [same_grp], by rw [same_g]; exact working.steady, by
        rw [same_g]; exact working.member⟩

theorem working_made {α : Type} {x : Action World α} (made : MadeOf Move α x) {w : World}
    (working : Working w) : wp x (fun _ => Working) Working w :=
  made.wp (fun _ _ moves => moves.wp_working) w working

/-! ### Ending a group -/

/-- Only connections still to come are in a transaction. -/
structure Pending (dbs rest : List Handle) (w : World) : Prop where
  within : Within dbs (· ∈ rest) w
  listed : ∀ h ∈ rest, h ∈ dbs

theorem Pending.sound {w : World} {dbs : List Handle} (pending : Pending dbs [] w) :
    Sound w.g :=
  ⟨pending.within.steady, fun h inside => List.not_mem_nil (pending.within.member h inside)⟩

theorem Pending.working {w : World} {dbs rest : List Handle} (pending : Pending dbs rest w) :
    Working w := by
  obtain ⟨⟨group, steady, member⟩, listed⟩ := pending
  exact Within.working ⟨group, steady, fun h inside => listed h (member h inside)⟩

/-- One participant's transaction is over: by a commit or by a rollback. -/
theorem Pending.next {w w' : World} {dbs rest : List Handle} {h : Handle}
    (pending : Pending dbs (h :: rest) w) (group : w'.grp = w.grp) (steady : Steady w'.g)
    (ended : ∀ k, w'.g.InTransaction k → w.g.InTransaction k ∧ k ≠ h) : Pending dbs rest w' where
  within := by
    refine ⟨by rw [group, pending.within.group], steady, fun k inside => ?_⟩
    obtain ⟨before, other⟩ := ended k inside
    exact (List.mem_cons.mp (pending.within.member k before)).resolve_left other
  listed := fun k mem => pending.listed k (List.mem_cons_of_mem _ mem)

theorem wp_sqlRollback {w : World} {dbs rest : List Handle} {h : Handle} {E : World → Prop}
    (pending : Pending dbs (h :: rest) w) :
    wp (sqlRollback h) (fun _ => Pending dbs rest) E w := by
  have steady := pending.within.steady
  cases h with
  | ward =>
      refine pending.next rfl (steady.onWard ?_ fun tables => tables.rollback) fun k inside => ?_
      · exact fun isOpen => Conn.rollback_isOpen.trans isOpen
      · cases k with
        | ward => exact absurd Conn.rollback_saved inside
        | spark i => exact ⟨inside, nofun⟩
  | spark i =>
      refine pending.next rfl (steady.setSpark i fun s _ known => ?_) fun k inside => ?_
      · exact ⟨Conn.rollback_isOpen.trans known.isOpen, known.rows.rollback⟩
      · rcases inTransaction_setSpark inside with before | ⟨-, s, -, saved⟩
        · exact before
        · exact absurd Conn.rollback_saved saved

theorem wp_sqlCommit {w : World} {dbs rest : List Handle} {h : Handle}
    (pending : Pending dbs (h :: rest) w) :
    wp (sqlCommit h) (fun _ => Pending dbs rest) Working w := by
  have steady := pending.within.steady
  have working := pending.working
  have refused : Working (w.after 1) := ⟨rfl, working.steady, working.member⟩
  cases h with
  | ward =>
      refine wp_statement refused fun g run => ?_
      obtain ⟨c, committed, rfl⟩ := onWard_eq_some.mp run
      obtain ⟨-, rfl⟩ := Conn.commit_eq_some.mp committed
      refine pending.next rfl (steady.onWard ?_ fun tables => tables.commit) fun k inside => ?_
      · exact fun isOpen => isOpen
      · cases k with
        | ward => exact absurd rfl inside
        | spark i => exact ⟨inside, nofun⟩
  | spark i =>
      refine wp_statement refused fun g run => ?_
      obtain ⟨s, c, here, committed, rfl⟩ := onSpark_eq_some.mp run
      obtain ⟨-, rfl⟩ := Conn.commit_eq_some.mp committed
      refine pending.next rfl (steady.setSpark i fun s' here' known => ?_) fun k inside => ?_
      · obtain rfl : s = s' := Option.some.inj (here.symm.trans here')
        exact ⟨known.isOpen, known.rows.commit⟩
      · rcases inTransaction_setSpark inside with before | ⟨-, s', -, saved⟩
        · exact before
        · exact absurd rfl saved

theorem wp_weftTxnAbort_same {w : World} (txn : Nat) {E : World → Prop} :
    wp (weftTxnAbort txn) (fun _ w' => w'.g = w.g) E w := by
  unfold weftTxnAbort observe
  rw [Action.wp_bind, Action.wp_modify, Action.wp_bind, Action.wp_read]
  exact Action.wp_ite (fun _ => rfl) fun _ => rfl

theorem weftTxnCommit_same (txn : Nat) : Leaves (fun w => w.g) (weftTxnCommit txn) := by
  have asked : Leaves (fun w : World => w.g) fallible := asks_fallible.leaves _ fun _ _ => rfl
  have made : MadeOf (fun _ y => Leaves (fun w : World => w.g) y) Unit (weftTxnCommit txn) := by
    refine .bind (.move fun _ => rfl) fun _ => .bind (.read _) fun _ => .ite (fun _ => .fail) ?_
    refine fun _ => .bind (.attempt (.move asked)) fun recorded => ?_
    refine .bind (.move fun _ => rfl) fun _ => ?_
    cases recorded with
    | some _ => exact .pure _
    | none => exact .fail
  exact made.leaves fun _ _ steady => steady

/-- `group_abort` leaves no transaction behind. -/
theorem sound_groupAbort {w : World} (working : Working w) {E : World → Prop} :
    wp groupAbort (fun _ w' => Sound w'.g) E w := by
  have start : Pending w.grp.dbs w.grp.dbs w := ⟨working, fun _ mem => mem⟩
  have rolledBack : wp (Action.forEach w.grp.dbs sqlRollback)
      (fun _ => Pending w.grp.dbs []) E w :=
    Action.wp_forEach (I := fun rest => Pending w.grp.dbs rest) start fun _ _ _ pending =>
      wp_sqlRollback pending
  unfold groupAbort
  rw [Action.wp_bind, Action.wp_read, Action.wp_bind]
  refine Action.wp_mono rolledBack (fun _ w' pending => ?_) fun _ h => h
  refine Action.wp_mono (wp_weftTxnAbort_same _) (fun _ w'' same => ?_) fun _ h => h
  rw [same]
  exact pending.sound

/-- `group_commit` leaves no transaction behind, whether it lands or not. -/
theorem sound_groupCommit {w : World} (working : Working w) :
    wp groupCommit (fun _ w' => Sound w'.g) (fun w' => Sound w'.g) w := by
  have start : Pending w.grp.dbs w.grp.dbs w := ⟨working, fun _ mem => mem⟩
  have committed : wp (Action.forEach w.grp.dbs sqlCommit) (fun _ => Pending w.grp.dbs [])
      Working w :=
    Action.wp_forEach (I := fun rest => Pending w.grp.dbs rest) start fun _ _ _ pending =>
      wp_sqlCommit pending
  unfold groupCommit
  rw [Action.wp_bind, Action.wp_read, Action.wp_bind, Action.wp_onFail]
  refine Action.wp_mono committed (fun _ w' pending => ?_) fun w' working => ?_
  · refine Action.wp_mono ((weftTxnCommit_same _).wp w') (fun _ _ same => ?_) fun _ same => ?_
    · rw [same]
      exact pending.sound
    · rw [same]
      exact pending.sound
  · exact sound_groupAbort working

/-- `group_begin` opens the group, or leaves the ward as it was. -/
theorem sound_groupBegin {w : World} (sound : Sound w.g) :
    wp groupBegin (fun _ => Working) (fun w' => Sound w'.g) w := by
  refine wp_groupBegin sound ?_
  have begun : Working w.begun := Sound.working (w := w.begun) sound
  refine Action.wp_mono (wp_groupJoin begun .ward) (fun _ _ working => working) fun w' same => ?_
  rw [same.1]
  exact sound

/-! ### The commands -/

/-- A payment leaves the ward sound, whether it lands or not. -/
theorem sound_payAlone {w : World} (sound : Sound w.g) (i : Nat) (amount : Int)
    (item : Option (Text × Text)) :
    wp (payAlone i amount item) (fun _ w' => Sound w'.g) (fun w' => Sound w'.g) w := by
  unfold payAlone
  rw [Action.wp_bind]
  refine Action.wp_mono (sound_groupBegin sound) (fun _ w₁ working => ?_) fun _ sound => sound
  rw [Action.wp_bind, Action.wp_onFail]
  refine Action.wp_mono (working_made (made_pay i amount item) working)
    (fun _ w₂ working => ?_) fun w₂ working => sound_groupAbort working
  rw [Action.wp_onFail]
  refine Action.wp_mono (sound_groupCommit working) (fun _ _ sound => sound) fun w₃ sound => ?_
  have restored := (Bookkeeping.paid i (-amount)).keeps_within w₃ (sound.within fun _ => False)
  exact ⟨restored.steady, restored.member⟩

/-- What only writes keeps a ward sound outside a group, too. -/
theorem sound_made {α : Type} {x : Action World α} (made : MadeOf Write α x) {w : World}
    (sound : Sound w.g) : wp x (fun _ w' => Sound w'.g) (fun w' => Sound w'.g) w := by
  have within := made.keeps (I := Within w.grp.dbs fun _ => False) fun _ _ writes =>
    writes.keeps_within
  exact Action.wp_mono (within.wp (sound.within _)) (fun _ _ h => ⟨h.steady, h.member⟩)
    fun _ h => ⟨h.steady, h.member⟩

/-- The ward's database is open and founded. -/
structure Gyre.Open (g : Gyre) : Prop where
  isOpen : g.ward.isOpen = true
  created : g.ward.now.created = true

/-- A statement that takes effect finds the database open, and leaves it founded. -/
theorem wp_runWard_open {stmt : WardTables → Option WardTables}
    (creates : ∀ t t', stmt t = some t' → t'.created = true) (w : World) :
    wp (runWard stmt) (fun _ w' => w'.g.Open) (fun _ => True) w := by
  refine wp_statement trivial fun g run => ?_
  obtain ⟨c, executed, rfl⟩ := onWard_eq_some.mp run
  obtain ⟨isOpen, t, effect, rfl⟩ := Conn.execute_eq_some.mp executed
  exact ⟨isOpen, creates _ _ effect⟩

/-- A cycle that has written everything has a ward that is open and founded: its last statement
says so. -/
theorem cycleWrites_open (w : World) :
    wp cycleWrites (fun _ w' => w'.g.Open) (fun _ => True) w := by
  unfold cycleWrites
  refine Action.wp_bind_any fun decided w₁ => ?_
  refine Action.wp_ite (fun _ => trivial) fun _ => ?_
  refine Action.wp_bind_any fun _ w₂ => Action.wp_bind_any fun n w₃ => ?_
  refine Action.wp_bind_any fun _ w₄ => Action.wp_bind_any fun _ w₅ => ?_
  refine Action.wp_bind_any fun row w₆ => Action.wp_bind_any fun g w₇ => ?_
  rw [Action.wp_bind]
  exact Action.wp_mono (wp_runWard_open (fun _ _ => (WardStatement.books _ _ _ _ _).created) w₇)
    (fun _ _ standing => standing) fun _ _ => trivial

theorem sqlCommit_open {w : World} (standing : w.g.Open) (h : Handle) :
    wp (sqlCommit h) (fun _ w' => w'.g.Open) (fun _ => True) w := by
  cases h with
  | ward =>
      refine wp_statement trivial fun g run => ?_
      obtain ⟨c, committed, rfl⟩ := onWard_eq_some.mp run
      obtain ⟨-, rfl⟩ := Conn.commit_eq_some.mp committed
      exact ⟨standing.isOpen, standing.created⟩
  | spark i =>
      refine wp_statement trivial fun g run => ?_
      obtain ⟨s, c, -, -, rfl⟩ := onSpark_eq_some.mp run
      exact ⟨standing.isOpen, standing.created⟩

/-- A commit leaves a ward that is open and founded so. -/
theorem groupCommit_open {w : World} (standing : w.g.Open) :
    wp groupCommit (fun _ w' => w'.g.Open) (fun _ => True) w := by
  have committed : wp (Action.forEach w.grp.dbs sqlCommit) (fun _ w' => w'.g.Open)
      (fun _ => True) w :=
    Action.wp_forEach (I := fun _ (w' : World) => w'.g.Open) standing fun h _ _ standing =>
      sqlCommit_open standing h
  unfold groupCommit
  rw [Action.wp_bind, Action.wp_read, Action.wp_bind, Action.wp_onFail]
  refine Action.wp_mono committed (fun _ w' standing => ?_) fun w' _ => ?_
  · refine Action.wp_mono ((weftTxnCommit_same _).wp w') (fun _ _ same => ?_) fun _ _ => trivial
    rw [same]
    exact standing
  · unfold Action.wp
    rcases groupAbort w' with ⟨_ | _ | _, _⟩ <;> trivial

/-! ### Sparks arriving -/

/-- A ward that is open and founded, and sound. -/
structure Settled (g : Gyre) : Prop where
  sound : Sound g
  standing : g.Open

theorem steady_newSpark (dbPrefix : Text) (ward id : Int) : (newSpark dbPrefix ward id).Steady where
  isOpen := rfl
  rows := ⟨⟨rfl, _, rfl, rfl⟩, nofun⟩

theorem spark_withSpark {g : Gyre} {id : Int} {i : Nat} {s : Spark}
    (here : (g.withSpark id).sparks[i]? = some s) :
    g.sparks[i]? = some s ∨ s = newSpark g.dbPrefix g.wardNo id := by
  have mem := List.mem_of_getElem? here
  rcases Nat.lt_or_ge i g.sparks.length with before | after
  · rw [Gyre.withSpark, List.getElem?_append_left before] at here
    exact Or.inl here
  · rw [Gyre.withSpark, List.getElem?_append_right after] at here
    exact Or.inr (List.mem_singleton.mp (List.mem_of_getElem? here))

/-- A Spark who takes a seat in a settled ward leaves it settled. -/
theorem Settled.withSpark {g : Gyre} (settled : Settled g) (id : Int) :
    Settled (g.withSpark id) where
  sound := by
    have outside : g.ward.saved = none := by
      by_contra inside
      exact settled.sound.settled .ward inside
    refine ⟨⟨fun _ => ⟨settled.standing.isOpen, settled.standing.created, ?_⟩, ?_⟩, ?_⟩
    · intro t saved
      rw [show (g.withSpark id).ward.saved = none from outside] at saved
      cases saved
    · intro i s here
      rcases spark_withSpark here with before | rfl
      · exact settled.sound.steady.spark i s before
      · exact steady_newSpark _ _ _
    · intro h inside
      cases h with
      | ward => exact settled.sound.settled .ward inside
      | spark i =>
          obtain ⟨s, here, saved⟩ := inside
          rcases spark_withSpark here with before | rfl
          · exact settled.sound.settled (.spark i) ⟨s, before, saved⟩
          · exact absurd rfl saved
  standing := ⟨settled.standing.isOpen, settled.standing.created⟩

theorem Settled.withSparks {g : Gyre} (settled : Settled g) (ids : List Int) :
    Settled (g.withSparks ids) := by
  induction ids generalizing g with
  | nil => exact settled
  | cons id rest ih => exact ih (settled.withSpark id)

/-- A ward without Sparks, outside any transaction. -/
theorem sound_of_empty {g : Gyre} (empty : g.sparks = []) (saved : g.ward.saved = none) :
    Sound g := by
  refine ⟨⟨fun there => absurd empty there, fun i s here => ?_⟩, fun h inside => ?_⟩
  · simp [empty] at here
  · cases h with
    | ward => exact inside saved
    | spark i =>
        obtain ⟨s, here, -⟩ := inside
        simp [empty] at here

/-- Founding a ward on a `gyre_t` of zeros leaves it sound, whether it lands or not. -/
theorem sound_foundWard (dbPrefix : Text) (n : Nat) (seed : UInt64) (base : Int) {w : World}
    (zeroed : w.g = Gyre.zero) :
    wp (foundWard dbPrefix n seed base) (fun _ w' => Sound w'.g) (fun w' => Sound w'.g) w := by
  have opened : Settled (w.g.foundedAs dbPrefix seed base) := by
    rw [zeroed]
    exact ⟨sound_of_empty rfl rfl, rfl, rfl⟩
  refine Action.wp_mono (wp_foundWard dbPrefix n seed base w) (fun _ w' founded => ?_)
    fun w' stopped => ?_
  · rw [founded]
    exact (opened.withSparks _).sound
  · rcases stopped with ⟨sparks, saved⟩ | ⟨ids, founded, -⟩
    · refine sound_of_empty ?_ saved
      rw [sparks, zeroed]
      rfl
    · rw [founded]
      exact (opened.withSparks ids).sound

/-- A cycle leaves the ward sound, whether it lands or not. -/
theorem sound_cycle {w : World} (sound : Sound w.g) :
    wp cycle (fun _ w' => Sound w'.g) (fun w' => Sound w'.g) w := by
  have counted : Sound (w.setGyre fun g => { g with cycle := g.cycle + 1 }).g :=
    ⟨sound.steady.of_same rfl rfl, fun h inside =>
      sound.settled h (inTransaction_of_same rfl rfl inside)⟩
  unfold cycle
  rw [Action.wp_bind]
  change wp _ _ _ (w.setGyre fun g => { g with cycle := g.cycle + 1 })
  rw [Action.wp_bind]
  refine Action.wp_mono (sound_groupBegin counted) (fun _ w₁ working => ?_) fun _ sound => sound
  rw [Action.wp_bind, Action.wp_onFail]
  have wrote := Action.wp_and (working_made made_cycleWrites working) (cycleWrites_open w₁)
  refine Action.wp_mono wrote (fun arriving w₂ written => ?_) fun w₂ failed =>
    sound_groupAbort failed.1
  obtain ⟨working, standing⟩ := written
  rw [Action.wp_bind]
  have landed := Action.wp_and (sound_groupCommit working) (groupCommit_open standing)
  refine Action.wp_mono landed (fun _ w₃ landed => ?_) fun w₃ refused => refused.1
  refine Action.wp_ite (fun _ => ?_) fun _ => landed.1
  rw [Action.wp_bind, Action.wp_read]
  refine Action.wp_mono (wp_joinWard _ w₃) (fun _ w₄ joined => ?_) fun w₄ same => ?_
  · rw [joined.2]
    exact (Settled.withSpark ⟨landed.1, landed.2⟩ _).sound
  · rw [same]
    exact landed.1

theorem soundness : WardInvariant Sound where
  cycle := sound_cycle
  build := fun i _ sound => sound_made (made_buildVenue i) sound
  pay := fun i amount _ sound => sound_payAlone sound i amount none
  found := fun n seed _ zeroed => sound_foundWard liveName n seed 0 zeroed

/-- The ward is sound in every world the service comes through. -/
theorem Reached.sound {w : World} (reached : Reached w) : Sound w.g := soundness.reached reached

end GyreWard
