/-
Module: GyreWard.Proofs.Building
Purpose: What `build_venue` does over a plane that fails nothing: it builds exactly what the ward
  can pay for and does not have.
Trusted boundary: none
Main exports: Ready, Buildable, Gyre.withVenue, buildVenue_accepts, buildVenue_refuses
-/
import GyreWard.Proofs.Quiet

namespace GyreWard

open Lib

/-- The ward's tables changed by what a statement does to them. -/
def Gyre.onTables (f : WardTables → WardTables) (g : Gyre) : Gyre :=
  g.setWard fun c => { c with now := f c.now }

/-- Every venue costs something. -/
theorem cost_pos {i : Nat} {v : Venue} (listed : venues[i]? = some v) : 0 < v.cost := by
  have all : ∀ v ∈ venues, 0 < v.cost := by decide
  exact all v (List.mem_of_getElem? listed)

/-- The ward's database is open and founded, over a plane that fails nothing. -/
structure Ready (w : World) : Prop where
  quiet : Quiet w
  isOpen : w.g.ward.isOpen = true
  created : w.g.ward.now.created = true

namespace Ready

variable {w : World}

theorem after (ready : Ready w) (n : Nat) : Ready (w.after n) :=
  ⟨ready.quiet, ready.isOpen, ready.created⟩

/-- A query on a founded ward is answered from its tables. -/
theorem ask (ready : Ready w) (query : WardTables → Option Int) :
    w.g.askWard query = query w.g.ward.now := by
  simp [Gyre.askWard, ready.isOpen, ready.created]

/-- A statement that existing tables never refuse takes effect. -/
theorem runWard_total (ready : Ready w) (f : WardTables → WardTables) :
    runWard (WardTables.existing fun t => some (f t)) w =
      (.ret (), (w.after 1).setGyre (Gyre.onTables f)) := by
  have effect : WardTables.existing (fun t => some (f t)) w.g.ward.now =
      some (f w.g.ward.now) := by
    rw [WardTables.existing, ready.created]
    rfl
  rw [runWard_quiet ready.quiet ready.isOpen effect]
  rfl

end Ready

/-- A statement on a ward that is open and founded, by the plane's word. -/
theorem runWard_word {w : World} (isOpen : w.g.ward.isOpen = true) (created : w.g.ward.now.created = true)
    (f : WardTables → WardTables) :
    runWard (WardTables.existing fun t => some (f t)) w =
      if w.plane.faults w.plane.tick then (.fail, w.after 1)
      else (.ret (), (w.after 1).setGyre (Gyre.onTables f)) := by
  have effect : Gyre.onWard (Conn.execute (WardTables.existing fun t => some (f t))) w.g =
      some (w.g.onTables f) := by
    simp [Gyre.onWard, Conn.execute, WardTables.existing, isOpen, created, Gyre.onTables,
      Gyre.setWard]
  change (fallible >>= fun _ => update _) w = _
  rw [statement_eq, effect]
  rfl

/-- `build_venue` has no reason to refuse venue `i`, which is `v`. -/
structure Buildable (g : Gyre) (i : Int) (v : Venue) : Prop where
  lower : 0 ≤ i
  upper : i < nVenues
  listed : venues[i.toNat]? = some v
  affordable : v.cost ≤ g.treasury
  unbuilt : (g.askWard (selectBuilt i)).getD (-1) = 0

/-- The venue's column set to a cycle. -/
def WardTables.withBuilt (i cycle : Int) (t : WardTables) : WardTables :=
  { t with venue := t.venue.map fun v => if v.id = i then { v with built := cycle } else v }

/-- A row at the end of the ledger. -/
def WardTables.withRow (row : LedgerRow) (t : WardTables) : WardTables :=
  { t with ledger := t.ledger ++ [row] }

/-- A ward that has built venue `i`: the scrip is gone, the column says when, and the ledger has
a row for it. -/
def Gyre.withVenue (i : Int) (v : Venue) (g : Gyre) : Gyre :=
  ((g.spend v.cost).onTables (WardTables.withBuilt i g.cycle)).onTables
    (WardTables.withRow { cycle := g.cycle, what := .commission, amount := -v.cost, spark := -1 })

variable {w : World} {i : Int}

/-- A ledger row is written when nothing fails. -/
theorem book_ready (ready : Ready w) (what : Entry) (amount spark : Int) :
    book what amount spark w =
      (.ret (), (w.after 1).setGyre
        (Gyre.onTables (WardTables.withRow { cycle := w.g.cycle, what, amount, spark }))) := by
  unfold book
  rw [Action.bind_ret (Action.read_apply _ _)]
  exact ready.runWard_total _

/-- What there is no reason to refuse is built. -/
theorem buildVenue_accepts (ready : Ready w) {v : Venue} (can : Buildable w.g i v) :
    buildVenue i w = (.ret (), (w.after 3).setGyre (Gyre.withVenue i v)) := by
  have range : ¬ (i < 0 ∨ (nVenues : Int) ≤ i) := by
    have := can.lower
    have := can.upper
    omega
  have affordable : ¬ w.g.treasury < v.cost := Int.not_lt.mpr can.affordable
  have unbuilt : built i w = (.ret false, w.after 1) := by
    rw [built_quiet ready.quiet, can.unbuilt]
    rfl
  -- the worlds once the scrip is taken, and once the column is set
  have spent : Ready ((w.after 1).setGyre (Gyre.spend v.cost)) :=
    ⟨ready.quiet, ready.isOpen, ready.created⟩
  have column := spent.runWard_total (WardTables.withBuilt i w.g.cycle)
  have standing : Ready ((((w.after 1).setGyre (Gyre.spend v.cost)).after 1).setGyre
      (Gyre.onTables (WardTables.withBuilt i w.g.cycle))) :=
    ⟨ready.quiet, ready.isOpen, ready.created⟩
  unfold buildVenue
  simp only [range, ↓reduceIte, can.listed]
  rw [Action.bind_ret (Action.read_apply _ _)]
  simp only [affordable, ↓reduceIte]
  rw [Action.bind_ret unbuilt]
  simp only [Bool.false_eq_true, ↓reduceIte, remember]
  rw [Action.bind_ret (Action.modify_apply _ _), Action.bind_ret (Action.read_apply _ _)]
  exact (Action.bind_ret column).trans (book_ready standing _ _ _)

/-- What there is a reason to refuse is refused, and nothing is done. -/
theorem buildVenue_refuses (ready : Ready w) (cannot : ∀ v, ¬ Buildable w.g i v) :
    ∃ n, buildVenue i w = (.fail, w.after n) := by
  unfold buildVenue
  by_cases range : i < 0 ∨ (nVenues : Int) ≤ i
  · exact ⟨0, by simp [range, Action.bind_apply, World.after_zero]⟩
  · simp only [range, ↓reduceIte]
    cases listed : venues[i.toNat]? with
    | none => exact ⟨0, rfl⟩
    | some v =>
        dsimp only
        rw [Action.bind_ret (Action.read_apply _ _)]
        by_cases short : w.g.treasury < v.cost
        · exact ⟨0, by simp [short, Action.bind_apply, World.after_zero]⟩
        · have standing : (w.g.askWard (selectBuilt i)).getD (-1) ≠ 0 := by
            intro unbuilt
            exact cannot v
              { lower := by omega, upper := by omega, listed
                affordable := Int.not_lt.mp short, unbuilt }
          have stands : built i w = (.ret true, w.after 1) := by
            rw [built_quiet ready.quiet, decide_eq_true standing]
          refine ⟨1, ?_⟩
          simp only [short, ↓reduceIte]
          rw [Action.bind_ret stands]
          rfl

end GyreWard
