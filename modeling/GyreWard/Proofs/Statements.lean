/-
Module: GyreWard.Proofs.Statements
Purpose: What a statement does to a connection and to the ward that holds it, over any plane.
Trusted boundary: none
Main exports: Conn.Holds, Conn.execute_eq_some, onWard_eq_some, onSpark_eq_some, setSpark_at,
  existing_some, unless_some, wp_statement, wp_runWard, wp_runSpark
-/
import GyreWard.Proofs.Quiet

namespace GyreWard

open Lib
open Lib.Action (wp)

/-! ### Connections -/

namespace Conn

variable {T : Type} {P : T → Prop} {c c' : Conn T}

/-- What a connection reads now, and what a rollback would have it read, satisfy `P`. -/
structure Holds (P : T → Prop) (c : Conn T) : Prop where
  now : P c.now
  saved : ∀ t, c.saved = some t → P t

theorem execute_eq_some {stmt : T → Option T} :
    c.execute stmt = some c' ↔
      c.isOpen = true ∧ ∃ t, stmt c.now = some t ∧ c' = { c with now := t } := by
  unfold execute
  cases c.isOpen with
  | true => simp [eq_comm]
  | false => simp

theorem begin_eq_some :
    c.begin = some c' ↔
      c.isOpen = true ∧ c.saved = none ∧ c' = { c with saved := some c.now } := by
  unfold begin
  simp only [Option.isNone_iff_eq_none]
  split <;> rename_i can
  · simp [can, eq_comm]
  · simp only [reduceCtorEq, false_iff]
    exact fun h => can ⟨h.1, h.2.1⟩

theorem commit_eq_some :
    c.commit = some c' ↔ c.saved.isSome = true ∧ c' = { c with saved := none } := by
  unfold commit
  split <;> rename_i can
  · simp [can, eq_comm]
  · simp [can]

theorem Holds.execute {stmt : T → Option T} (holds : c.Holds P)
    (keeps : ∀ t t', stmt t = some t' → P t → P t') (run : c.execute stmt = some c') :
    c'.Holds P := by
  obtain ⟨-, t, effect, rfl⟩ := execute_eq_some.mp run
  exact ⟨keeps _ _ effect holds.now, holds.saved⟩

theorem Holds.begin (holds : c.Holds P) : ({ c with saved := some c.now } : Conn T).Holds P := by
  refine ⟨holds.now, fun t saved => ?_⟩
  obtain rfl := Option.some.inj saved
  exact holds.now

theorem Holds.commit (holds : c.Holds P) : ({ c with saved := none } : Conn T).Holds P :=
  ⟨holds.now, nofun⟩

theorem Holds.rollback (holds : c.Holds P) : c.rollback.Holds P := by
  unfold Conn.rollback
  split
  · exact ⟨holds.saved _ ‹_›, nofun⟩
  · exact holds

theorem rollback_saved : c.rollback.saved = none := by
  unfold Conn.rollback
  split
  · rfl
  · assumption

@[simp] theorem rollback_isOpen : c.rollback.isOpen = c.isOpen := by
  unfold Conn.rollback
  split <;> rfl

end Conn

/-! ### Parts of a ward -/

theorem onWard_eq_some {f : Conn WardTables → Option (Conn WardTables)} {g g' : Gyre} :
    Gyre.onWard f g = some g' ↔ ∃ c, f g.ward = some c ∧ g' = { g with ward := c } := by
  simp [Gyre.onWard, eq_comm]

theorem onSpark_eq_some {i : Nat} {f : Conn SparkTables → Option (Conn SparkTables)}
    {g g' : Gyre} :
    Gyre.onSpark i f g = some g' ↔
      ∃ s c, g.sparks[i]? = some s ∧ f s.db = some c ∧
        g' = g.setSpark i fun s => { s with db := c } := by
  unfold Gyre.onSpark
  cases here : g.sparks[i]? with
  | none => simp
  | some s => simp [eq_comm]

theorem setSpark_at (g : Gyre) (i k : Nat) (f : Spark → Spark) :
    (g.setSpark i f).sparks[k]? = if i = k then g.sparks[k]?.map f else g.sparks[k]? := by
  rw [Gyre.setSpark, List.getElem?_modify]
  split
  · rfl
  · cases g.sparks[k]? <;> rfl

theorem setSpark_nil {g : Gyre} {i : Nat} {f : Spark → Spark} :
    (g.setSpark i f).sparks = [] ↔ g.sparks = [] := by
  rw [← List.length_eq_zero_iff, ← List.length_eq_zero_iff, Gyre.setSpark, List.length_modify]

/-- A value read at every place of a list, in order. -/
theorem map_range_getElem? {α β : Type} (f : α → β) (missing : β) (items : List α) :
    (List.range items.length).map (fun i => (items[i]?.map f).getD missing) = items.map f := by
  refine List.ext_getElem (by simp) fun i before after => ?_
  have place : i < items.length := by simpa using before
  simp [place]

/-- A change at a place of a list is a matter of what stands there. -/
theorem modify_eq_at {α : Type} {items : List α} {i : Nat} {a : α} (here : items[i]? = some a)
    {f f' : α → α} (same : f a = f' a) : items.modify i f = items.modify i f' := by
  refine List.ext_getElem? fun k => ?_
  rw [List.getElem?_modify, List.getElem?_modify]
  rcases eq_or_ne i k with rfl | elsewhere
  · simp [here, same]
  · simp [elsewhere]

theorem Gyre.setSpark_congr {g : Gyre} {i : Nat} {s : Spark} (here : g.sparks[i]? = some s)
    {f f' : Spark → Spark} (same : f s = f' s) : g.setSpark i f = g.setSpark i f' := by
  unfold Gyre.setSpark
  rw [modify_eq_at here same]

/-! ### Statements -/

/-- A statement on tables that are there, by what it makes of them. -/
theorem existing_some {f : WardTables → WardTables} {t t' : WardTables}
    (run : WardTables.existing (fun t => some (f t)) t = some t') : t' = f t := by
  unfold WardTables.existing at run
  split at run
  · exact (Option.some.inj run).symm
  · cases run

/-- An insert or an update that a unique column may refuse. -/
theorem unless_some {clash : WardTables → Bool} {f : WardTables → WardTables} {t t' : WardTables}
    (run : WardTables.existing (fun t => if clash t then none else some (f t)) t = some t') :
    t' = f t := by
  unfold WardTables.existing at run
  split at run
  · dsimp only at run
    split at run
    · cases run
    · exact (Option.some.inj run).symm
  · cases run

/-- A statement, by what it leaves when it fails and when it takes effect. -/
theorem wp_statement {f : Gyre → Option Gyre} {Q : Unit → World → Prop} {E : World → Prop}
    {w : World} (failed : E (w.after 1))
    (ran : ∀ g, f w.g = some g → Q () { w.after 1 with g := g }) :
    wp (fallible >>= fun _ => update f) Q E w := by
  unfold Action.wp
  rw [statement_eq]
  cases w.plane.faults w.plane.tick with
  | true => exact failed
  | false =>
      rw [if_neg Bool.false_ne_true]
      cases effect : f w.g with
      | some g => exact ran g effect
      | none => exact failed

/-- A statement that takes effect unless the plane fails it. -/
theorem wp_statement_word {f : Gyre → Option Gyre} {g : Gyre} {Q : Unit → World → Prop}
    {E : World → Prop} {w : World} (effect : f w.g = some g)
    (failed : w.plane.faults w.plane.tick = true → E (w.after 1))
    (ran : w.plane.faults w.plane.tick = false → Q () { w.after 1 with g := g }) :
    wp (fallible >>= fun _ => update f) Q E w := by
  unfold Action.wp
  rw [statement_eq, effect]
  cases word : w.plane.faults w.plane.tick with
  | true => exact failed word
  | false => exact ran word

theorem wp_fallible_word {Q : Unit → World → Prop} {E : World → Prop} {w : World}
    (failed : w.plane.faults w.plane.tick = true → E (w.after 1))
    (ran : w.plane.faults w.plane.tick = false → Q () (w.after 1)) : wp fallible Q E w := by
  unfold Action.wp
  rw [fallible_eq]
  cases word : w.plane.faults w.plane.tick with
  | true => exact failed word
  | false => exact ran word

theorem wp_fallible {Q : Unit → World → Prop} {E : World → Prop} {w : World}
    (failed : E (w.after 1)) (ran : Q () (w.after 1)) : wp fallible Q E w :=
  wp_fallible_word (fun _ => failed) fun _ => ran

/-- A statement on the ward, by what it makes of the tables. -/
theorem wp_runWard {stmt : WardTables → Option WardTables} {Q : Unit → World → Prop}
    {E : World → Prop} {w : World} (failed : E (w.after 1))
    (ran : w.g.ward.isOpen = true → ∀ t, stmt w.g.ward.now = some t →
      Q () ((w.after 1).setGyre (Gyre.setWard fun c => { c with now := t }))) :
    wp (runWard stmt) Q E w := by
  refine wp_statement failed fun g run => ?_
  obtain ⟨c, executed, rfl⟩ := onWard_eq_some.mp run
  obtain ⟨isOpen, t, effect, rfl⟩ := Conn.execute_eq_some.mp executed
  exact ran isOpen t effect

/-- A statement on a Spark, by what it makes of their tables. -/
theorem wp_runSpark {i : Nat} {stmt : SparkTables → Option SparkTables} {Q : Unit → World → Prop}
    {E : World → Prop} {w : World} (failed : E (w.after 1))
    (ran : ∀ s t, w.g.sparks[i]? = some s → s.db.isOpen = true → stmt s.db.now = some t →
      Q () ((w.after 1).setGyre (Gyre.setSpark i fun s => { s with db := { s.db with now := t } }))) :
    wp (runSpark i stmt) Q E w := by
  refine wp_statement failed fun g run => ?_
  obtain ⟨s, c, here, executed, rfl⟩ := onSpark_eq_some.mp run
  obtain ⟨isOpen, t, effect, rfl⟩ := Conn.execute_eq_some.mp executed
  have same : (w.g.setSpark i fun s' => { s' with db := { s.db with now := t } }) =
      w.g.setSpark i fun s' => { s' with db := { s'.db with now := t } } :=
    Gyre.setSpark_congr here rfl
  rw [same]
  exact ran s t here isOpen effect

end GyreWard
