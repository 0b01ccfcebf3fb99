/-
Module: GyreWard.Proofs.Quiet
Purpose: What the primitive calls do over a plane that fails nothing.
Trusted boundary: none
Main exports: Quiet, World.after, Asks, asks_honest, fallible_quiet, scalarOr_word, built_word,
  scalarWard_quiet, scalarSpark_quiet, runWard_quiet, runSpark_quiet, built_quiet
-/
import GyreWard.Model.Ward

namespace GyreWard

open Lib

/-- The world some fallible operations later, none of which did anything else. -/
def World.after (n : Nat) (w : World) : World :=
  w.setPlane fun p => { p with tick := p.tick + n }

/-- The plane fails nothing. -/
def Quiet (w : World) : Prop := ∀ k, w.plane.faults k = false

section After

variable (n m : Nat) (w : World)

@[simp] theorem World.after_g : (w.after n).g = w.g := rfl

@[simp] theorem World.after_faults : (w.after n).plane.faults = w.plane.faults := rfl

@[simp] theorem World.after_tick : (w.after n).plane.tick = w.plane.tick + n := rfl

@[simp] theorem World.after_isOpen : (w.after n).plane.isOpen = w.plane.isOpen := rfl

@[simp] theorem World.after_txn : (w.after n).plane.txn = w.plane.txn := rfl

@[simp] theorem World.after_parts : (w.after n).plane.parts = w.plane.parts := rfl

theorem World.after_zero : w.after 0 = w := rfl

@[simp] theorem World.after_after : (w.after n).after m = w.after (n + m) := by
  simp [World.after, World.setPlane, Nat.add_assoc]

@[simp] theorem quiet_after : Quiet (w.after n) ↔ Quiet w := Iff.rfl

end After

variable {w : World}

/-- A fallible operation takes one tick, and the plane's word. -/
theorem fallible_eq (w : World) :
    fallible w = if w.plane.faults w.plane.tick then (.fail, w.after 1) else (.ret (), w.after 1) :=
  rfl

theorem fallible_quiet (quiet : Quiet w) : fallible w = (.ret (), w.after 1) := by
  rw [fallible_eq, quiet]
  rfl

/-- A statement takes one tick; it takes effect if the plane and the database let it. -/
theorem statement_eq (f : Gyre → Option Gyre) (w : World) :
    (fallible >>= fun _ => update f) w =
      if w.plane.faults w.plane.tick then (.fail, w.after 1)
      else match f w.g with
        | some g => (.ret (), { w.after 1 with g := g })
        | none => (.fail, w.after 1) := by
  rw [Action.bind_apply, fallible_eq]
  cases w.plane.faults w.plane.tick with
  | true => rfl
  | false => rfl

/-! ### Calls that only ask -/

/-- A call that leaves everything but the count of fallible operations as it was. -/
def Asks {α : Type} (x : Action World α) : Prop := ∀ w, ∃ n, (x w).2 = w.after n

section Asks

variable {α β : Type} {x : Action World α}

theorem asks_pure (a : α) : Asks (pure a : Action World α) := fun _ => ⟨0, rfl⟩

theorem asks_read (f : World → α) : Asks (Action.read f) := fun _ => ⟨0, rfl⟩

theorem asks_fallible : Asks fallible := by
  intro w
  refine ⟨1, ?_⟩
  rw [fallible_eq]
  split <;> rfl

theorem Asks.bind {next : α → Action World β} (first : Asks x) (rest : ∀ a, Asks (next a)) :
    Asks (x >>= next) := by
  intro w
  obtain ⟨n, middle⟩ := first w
  rw [Action.bind_apply]
  rcases run : x w with ⟨_ | _ | _, w'⟩
  · obtain ⟨m, last⟩ := rest _ w'
    refine ⟨n + m, ?_⟩
    rw [run] at middle
    change w' = w.after n at middle
    rw [middle, World.after_after] at last
    rw [← last, middle]
  · exact ⟨n, by rw [← middle, run]⟩
  · exact ⟨n, by rw [← middle, run]⟩

theorem Asks.attempt (call : Asks x) : Asks (Action.attempt x) := by
  intro w
  obtain ⟨n, after⟩ := call w
  refine ⟨n, ?_⟩
  unfold Action.attempt
  rcases run : x w with ⟨_ | _ | _, w'⟩ <;> rw [run] at after <;> exact after

theorem Asks.ite {c : Prop} [Decidable c] {y : Action World α} (yes : Asks x) (no : Asks y) :
    Asks (if c then x else y) := by
  split
  · exact yes
  · exact no

/-- What is asked does not change what a view of the ward shows. -/
theorem Asks.leaves (asks : Asks x) {γ : Type} (f : World → γ)
    (steady : ∀ w n, f (World.after n w) = f w) : Action.Leaves f x := by
  intro w
  obtain ⟨n, after⟩ := asks w
  rw [after, steady]

/-- The ward is the same after a call that only asks. -/
theorem Asks.same_g (asks : Asks x) {w w' : World} {result : Result α}
    (run : x w = (result, w')) : w'.g = w.g := by
  obtain ⟨n, after⟩ := asks w
  rw [run] at after
  change w' = w.after n at after
  rw [after, World.after_g]

end Asks

theorem asks_scalarOr (missing : Int) (query : Gyre → Option Int) :
    Asks (scalarOr missing query) := by
  refine asks_fallible.attempt.bind fun answered => ?_
  cases answered with
  | some _ => exact asks_read _
  | none => exact asks_pure _

theorem asks_built (venue : Int) : Asks (built venue) :=
  (asks_scalarOr _ _).bind fun _ => asks_pure _

theorem asks_viewBuilt : ∀ venues : List Nat, Asks (viewBuilt venues)
  | [] => asks_pure _
  | _ :: rest => (asks_scalarOr _ _).bind fun _ => (asks_viewBuilt rest).bind fun _ => asks_pure _

theorem asks_wardView : Asks wardView :=
  (asks_read _).bind fun _ => (asks_viewBuilt _).bind fun _ => asks_pure _

theorem asks_sumSparks (query : SparkTables → Option Int) :
    ∀ places : List Nat, Asks (sumSparks query places)
  | [] => asks_pure _
  | _ :: rest =>
      (asks_scalarOr _ _).bind fun _ => (asks_sumSparks query rest).bind fun _ => asks_pure _

theorem asks_purses : Asks purses := (asks_read _).bind fun _ => asks_sumSparks _ _

theorem asks_honest : Asks honest := by
  refine (asks_read _).bind fun g => asks_purses.bind fun purse => ?_
  exact Asks.ite (asks_pure _) ((asks_sumSparks _ _).bind fun _ => asks_pure _)

/-! ### Queries -/

/-- A query, by the plane's word. -/
theorem scalarOr_word (missing : Int) (query : Gyre → Option Int) :
    scalarOr missing query w =
      (.ret (if w.plane.faults w.plane.tick then missing else (query w.g).getD missing),
        w.after 1) := by
  have asked : Action.attempt fallible w =
      (.ret (if w.plane.faults w.plane.tick then none else some ()), w.after 1) := by
    unfold Action.attempt
    rw [fallible_eq]
    cases w.plane.faults w.plane.tick with
    | true => rfl
    | false => rfl
  unfold scalarOr
  rw [Action.bind_ret asked]
  cases w.plane.faults w.plane.tick with
  | true => rfl
  | false => rfl

/-- `built` takes a query that fails for a venue that stands. -/
theorem built_word (venue : Int) :
    built venue w =
      (.ret (w.plane.faults w.plane.tick ||
        decide ((w.g.askWard (selectBuilt venue)).getD (-1) ≠ 0)), w.after 1) := by
  have asked := scalarOr_word (w := w) (-1) (·.askWard (selectBuilt venue))
  unfold built scalarWard
  rw [Action.bind_ret asked]
  cases w.plane.faults w.plane.tick with
  | true => rfl
  | false => rfl

theorem scalarOr_quiet (quiet : Quiet w) (missing : Int) (query : Gyre → Option Int) :
    scalarOr missing query w = (.ret ((query w.g).getD missing), w.after 1) := by
  rw [scalarOr_word, quiet]
  rfl

theorem scalarWard_quiet (quiet : Quiet w) (query : WardTables → Option Int) :
    scalarWard query w = (.ret ((w.g.askWard query).getD (-1)), w.after 1) :=
  scalarOr_quiet quiet _ _

theorem scalarSpark_quiet (quiet : Quiet w) (i : Nat) (query : SparkTables → Option Int) :
    scalarSpark i query w = (.ret ((w.g.askSpark i query).getD (-1)), w.after 1) :=
  scalarOr_quiet quiet _ _

theorem built_quiet (quiet : Quiet w) (venue : Int) :
    built venue w =
      (.ret (decide ((w.g.askWard (selectBuilt venue)).getD (-1) ≠ 0)), w.after 1) := by
  unfold built
  rw [Action.bind_ret (scalarWard_quiet quiet _)]
  rfl

/-! ### Statements -/

/-- A statement on an open ward database takes effect if the tables allow it. -/
theorem runWard_quiet (quiet : Quiet w) (isOpen : w.g.ward.isOpen = true)
    {stmt : WardTables → Option WardTables} {after : WardTables}
    (effect : stmt w.g.ward.now = some after) :
    runWard stmt w =
      (.ret (), (w.after 1).setGyre (Gyre.setWard fun c => { c with now := after })) := by
  unfold runWard
  rw [Action.bind_ret (fallible_quiet quiet)]
  simp [update, Gyre.onWard, Conn.execute, isOpen, effect, World.setGyre, Gyre.setWard]

/-- A statement on an open Spark database takes effect if the tables allow it. -/
theorem runSpark_quiet (quiet : Quiet w) {i : Nat} {s : Spark} (here : w.g.sparks[i]? = some s)
    (isOpen : s.db.isOpen = true) {stmt : SparkTables → Option SparkTables}
    {after : SparkTables} (effect : stmt s.db.now = some after) :
    runSpark i stmt w =
      (.ret (), (w.after 1).setGyre
        (Gyre.setSpark i fun s' => { s' with db := { s.db with now := after } })) := by
  unfold runSpark
  rw [Action.bind_ret (fallible_quiet quiet)]
  simp [update, Gyre.onSpark, here, Conn.execute, isOpen, effect, World.setGyre]

end GyreWard
