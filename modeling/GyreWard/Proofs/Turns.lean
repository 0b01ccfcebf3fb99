/-
Module: GyreWard.Proofs.Turns
Purpose: A Spark's turn in a cycle: they take the first of the best contracts that are left, go where it is as far
  as the plane lets them, and change nothing of anybody else.
Trusted boundary: human-reviewed spec (`Record`, `Gyre.stands`, `Gyre.nerve`, `BoardRow.worth`)
Main exports: Record, Discreet, Gyre.stands, Gyre.nerve, BoardRow.worth, bestContract_foremost, Live,
  World.hears, choose_takes, sparkTurn_opened, wp_goToWork_goes, wp_workOpening_works
-/
import GyreWard.Lib.Foremost
import GyreWard.Proofs.Building
import GyreWard.Proofs.Moves
import GyreWard.Proofs.Statements

namespace GyreWard

open Lib
open Lib.Action (MadeOf Leaves wp)

/-! ### What is nobody else's business -/

/-- What there is of a Spark: what the ward remembers, and their own database. -/
structure Record where
  id : Int
  purse : Int
  wear : Int
  place : Place
  tables : SparkTables

def Spark.record (s : Spark) : Record :=
  { id := s.id, purse := s.purse, wear := s.wear, place := s.place, tables := s.db.now }

/-- What the Spark at `busy` does not change by being at work: the venues, the board, who is in the ward, and
all there is of the others. -/
structure Aside where
  faults : Nat → Bool
  isOpen : Bool
  created : Bool
  venue : List VenueRow
  board : List BoardRow
  ids : List Int
  others : Nat → Option Record

def World.aside (busy : Option Nat) (w : World) : Aside :=
  { faults := w.plane.faults
    isOpen := w.g.ward.isOpen
    created := w.g.ward.now.created
    venue := w.g.ward.now.venue
    board := w.g.ward.now.board
    ids := w.g.sparks.map (·.id)
    others := fun k => if busy = some k then none else w.g.sparks[k]?.map Spark.record }

/-- Code put together from calls that are nobody else's business. -/
abbrev Discreet (busy : Option Nat) (α : Type) (x : Action World α) : Prop :=
  MadeOf (fun _ y => Leaves (World.aside busy) y) α x

section Discreet

variable {busy : Option Nat} {α : Type} {x : Action World α} {i : Nat}

theorem Discreet.leaves (made : Discreet busy α x) : Leaves (World.aside busy) x :=
  MadeOf.leaves made fun _ _ steady => steady

theorem discreet_asks (asks : Asks x) : Discreet busy α x :=
  .move (asks.leaves _ fun _ _ => rfl)

theorem discreet_remember (f : Gyre → Gyre)
    (same : ∀ g, (f g).ward = g.ward ∧ (f g).sparks = g.sparks) : Discreet busy Unit (remember f) := by
  apply MadeOf.move
  intro w
  have ⟨ward, sparks⟩ := same w.g
  change World.aside busy (w.setGyre f) = w.aside busy
  simp only [World.aside, World.setGyre, ward, sparks]

/-- What is changed of the Spark at work is nobody else's business. -/
theorem aside_setSpark (f : Spark → Spark) (named : ∀ s, (f s).id = s.id) (w : World) :
    (w.setGyre (Gyre.setSpark i f)).aside (some i) = w.aside (some i) := by
  have ids : (w.g.setSpark i f).sparks.map (·.id) = w.g.sparks.map (·.id) := by
    apply List.ext_getElem?
    intro k
    rw [List.getElem?_map, List.getElem?_map, setSpark_at]
    split
    · cases w.g.sparks[k]? with
      | none => rfl
      | some s => exact congrArg some (named s)
    · rfl
  have others : ∀ k : Nat, (if some i = some k then none else
      (w.g.setSpark i f).sparks[k]?.map Spark.record) =
        if some i = some k then none else w.g.sparks[k]?.map Spark.record := by
    intro k
    by_cases mine : i = k
    · rw [if_pos (congrArg some mine), if_pos (congrArg some mine)]
    · rw [setSpark_at, if_neg mine]
  unfold World.aside World.setGyre
  simp only [ids, funext others]
  rfl

/-- What is no part of a Spark's record may change, too. -/
theorem aside_setSpark_same {f : Spark → Spark} {w : World}
    (same : ∀ s, w.g.sparks[i]? = some s → (f s).record = s.record) :
    (w.setGyre (Gyre.setSpark i f)).aside busy = w.aside busy := by
  have each : ∀ k : Nat, (w.g.setSpark i f).sparks[k]?.map Spark.record = w.g.sparks[k]?.map Spark.record := by
    intro k
    rw [setSpark_at]
    split
    · next mine =>
        subst mine
        cases here : w.g.sparks[i]? with
        | none => rfl
        | some s => exact congrArg some (same s here)
    · rfl
  have ids : (w.g.setSpark i f).sparks.map (·.id) = w.g.sparks.map (·.id) := by
    apply List.ext_getElem?
    intro k
    have id := congrArg (Option.map Record.id) (each k)
    rw [Option.map_map, Option.map_map] at id
    rw [List.getElem?_map, List.getElem?_map]
    exact id
  unfold World.aside World.setGyre
  simp only [ids, each]
  rfl

theorem discreet_setSpark {f : Spark → Spark} (named : ∀ s, (f s).id = s.id) :
    Discreet (some i) Unit (remember (Gyre.setSpark i f)) :=
  .move fun w => aside_setSpark f named w

/-- Statements on the ward that leave its venues and its board alone. -/
theorem discreet_onWard {f : Conn WardTables → Option (Conn WardTables)}
    (same : ∀ c c', f c = some c' → c'.isOpen = c.isOpen ∧ c'.now.created = c.now.created ∧
      c'.now.venue = c.now.venue ∧ c'.now.board = c.now.board) :
    Discreet busy Unit (update (Gyre.onWard f)) := by
  apply MadeOf.move
  intro w
  unfold update
  cases changed : Gyre.onWard f w.g with
  | none => rfl
  | some g =>
      obtain ⟨c, effect, rfl⟩ := onWard_eq_some.mp changed
      have ⟨isOpen, created, venue, board⟩ := same _ _ effect
      simp only [World.aside, isOpen, created, venue, board]

theorem discreet_runWard {stmt : WardTables → Option WardTables}
    (same : ∀ t t', stmt t = some t' → t'.created = t.created ∧ t'.venue = t.venue ∧ t'.board = t.board) :
    Discreet busy Unit (runWard stmt) := by
  apply MadeOf.bind (discreet_asks asks_fallible)
  intro _
  apply discreet_onWard
  intro c c' run
  obtain ⟨-, t, effect, rfl⟩ := Conn.execute_eq_some.mp run
  exact ⟨rfl, same _ _ effect⟩

/-- Statements on the Spark at work. -/
theorem discreet_runSpark (i : Nat) (stmt : SparkTables → Option SparkTables) :
    Discreet (some i) Unit (runSpark i stmt) := by
  apply MadeOf.bind (discreet_asks asks_fallible)
  intro _
  apply MadeOf.move
  intro w
  unfold update
  cases changed : Gyre.onSpark i (Conn.execute stmt) w.g with
  | none => rfl
  | some g =>
      obtain ⟨s, c, -, -, rfl⟩ := onSpark_eq_some.mp changed
      exact aside_setSpark (fun s => { s with db := c }) (fun _ => rfl) w

/-- A transaction opened or closed on a Spark's database changes nothing that it reads. -/
theorem discreet_onSpark (i : Nat) {f : Conn SparkTables → Option (Conn SparkTables)}
    (same : ∀ c c', f c = some c' → c'.now = c.now) : Discreet busy Unit (update (Gyre.onSpark i f)) := by
  apply MadeOf.move
  intro w
  unfold update
  cases changed : Gyre.onSpark i f w.g with
  | none => rfl
  | some g =>
      obtain ⟨s, c, here, effect, rfl⟩ := onSpark_eq_some.mp changed
      apply aside_setSpark_same
      intro s' here'
      rw [here] at here'
      cases here'
      unfold Spark.record
      rw [same _ _ effect]

theorem discreet_groupJoin (h : Handle) : Discreet busy Unit (groupJoin h) := by
  apply (made_groupJoin h).mono
  intro _ _ moves
  cases moves with
  | fallible => exact discreet_asks asks_fallible
  | takePart _ => exact .move fun _ => rfl
  | beginWard =>
      apply discreet_onWard
      intro c c' begun
      obtain ⟨-, -, rfl⟩ := Conn.begin_eq_some.mp begun
      exact ⟨rfl, rfl, rfl, rfl⟩
  | beginSpark i =>
      apply discreet_onSpark
      intro c c' begun
      obtain ⟨-, -, rfl⟩ := Conn.begin_eq_some.mp begun
      rfl
  | enlist _ => exact .move fun _ => rfl

theorem discreet_sqlCommit (h : Handle) : Discreet busy Unit (sqlCommit h) := by
  cases h with
  | ward =>
      apply MadeOf.bind (discreet_asks asks_fallible)
      intro _
      apply discreet_onWard
      intro c c' committed
      obtain ⟨-, rfl⟩ := Conn.commit_eq_some.mp committed
      exact ⟨rfl, rfl, rfl, rfl⟩
  | spark i =>
      apply MadeOf.bind (discreet_asks asks_fallible)
      intro _
      apply discreet_onSpark
      intro c c' committed
      obtain ⟨-, rfl⟩ := Conn.commit_eq_some.mp committed
      rfl

theorem discreet_book (what : Entry) (amount spark : Int) :
    Discreet busy Unit (book what amount spark) := by
  apply MadeOf.bind (.read _)
  intro cycle
  apply discreet_runWard
  intro t t' run
  rw [existing_some run]
  exact ⟨rfl, rfl, rfl⟩

theorem discreet_draw (n : UInt32) : Discreet busy Int (draw n) := by
  apply MadeOf.bind (.read _)
  intro r
  cases rngBelow r n with
  | none => exact .halt
  | some drawn => exact .bind (discreet_remember _ fun _ => ⟨rfl, rfl⟩) fun _ => .pure _

theorem discreet_keepContract (payout spark : Int) : Discreet busy Text (keepContract payout spark) := by
  apply MadeOf.bind (.read _)
  intro g
  apply MadeOf.bind (discreet_remember (Gyre.earn payout) fun _ => ⟨rfl, rfl⟩)
  intro _
  exact .bind (discreet_book _ _ _) fun _ => .pure _

theorem discreet_pay (i : Nat) (amount : Int) (item : Option (Text × Text)) :
    Discreet (some i) Unit (pay i amount item) := by
  have paid : Discreet (some i) Unit (remember (Gyre.paid i amount)) := by
    apply MadeOf.move
    intro w
    exact aside_setSpark (fun s => { s with purse := s.purse + amount }) (fun _ => rfl)
      (w.setGyre fun g => { g with treasury := g.treasury - amount })
  apply MadeOf.bind (discreet_groupJoin _)
  intro _
  apply MadeOf.bind (.read _)
  intro id
  apply MadeOf.bind (discreet_book _ _ _)
  intro _
  apply MadeOf.bind (discreet_runSpark i _)
  intro _
  cases item with
  | none => exact paid
  | some named =>
      apply MadeOf.bind (.read _)
      intro cycle
      exact .bind (discreet_runSpark i _) fun _ => paid

theorem discreet_workEntries (i : Nat) : Discreet (some i) Unit (workEntries i) := by
  apply MadeOf.bind (.read _)
  intro g
  cases g.sparks[i]? with
  | none => exact .pure _
  | some s => exact discreet_runSpark i _

theorem discreet_debtClock : Discreet busy Unit debtClock := by
  apply MadeOf.bind (discreet_remember Gyre.compound fun _ => ⟨rfl, rfl⟩)
  intro _
  apply MadeOf.bind (.read _)
  intro paid
  apply MadeOf.ite
  · intro _
    exact .bind (discreet_remember _ fun _ => ⟨rfl, rfl⟩) fun _ => discreet_book _ _ _
  · intro _
    exact .pure _

variable {w w' : World}

/-- Whoever asks a discreet call for its result may go on from a world that looks the same. -/
theorem Discreet.wp (made : Discreet busy α x) {Q : α → World → Prop}
    (ran : ∀ a w', w'.aside busy = w.aside busy → Q a w') : Action.wp x Q (fun _ => True) w :=
  Action.wp_mono (made.leaves.wp w) ran fun _ _ => trivial

/-- A Spark is where they were in the array as long as the ids are. -/
theorem here_of_ids {s : Spark} (here : w.g.sparks[i]? = some s)
    (ids : w'.g.sparks.map (·.id) = w.g.sparks.map (·.id)) :
    ∃ s', w'.g.sparks[i]? = some s' ∧ s'.id = s.id := by
  have there : (w'.g.sparks.map (·.id))[i]? = some s.id := by
    rw [ids, List.getElem?_map, here]
    rfl
  rw [List.getElem?_map] at there
  exact Option.map_eq_some_iff.mp there

end Discreet

/-! ### Choosing -/

/-- What `built` reads of a venue when nothing fails. -/
def Gyre.stands (i : Int) (g : Gyre) : Bool := decide ((g.askWard (selectBuilt i)).getD (-1) ≠ 0)

/-- The nerve of a Spark whose Frame is worn this much. -/
def Gyre.nerve (g : Gyre) (wear : Int) : Int :=
  100 - wear + (if g.stands 0 then 25 else 0) + (if g.stands 4 then 20 else 0)

/-- What a contract is worth to a Spark of this nerve. -/
def BoardRow.worth (nerve : Int) (r : BoardRow) : Int := (r.payout * nerve).tdiv 100 - r.risk

/-- The contracts nobody has taken. -/
def openRows (rows : List BoardRow) : List BoardRow := rows.filter fun r => r.taken == -1

/-- What the board asks and pays is within what `post_board` draws. -/
structure BoardRow.Fair (r : BoardRow) : Prop where
  pays : 0 ≤ r.payout
  risky : r.risk ≤ 64

/-- A contract is claimed by a Spark. -/
def BoardRow.claim (spark : Int) (r : BoardRow) : BoardRow := { r with taken := spark }

def BoardRow.settle (outcome : Text) (r : BoardRow) : BoardRow := { r with outcome := some outcome }

/-- A change to one contract of the board. -/
def WardTables.onContract (id : Nat) (f : BoardRow → BoardRow) (t : WardTables) : WardTables :=
  { t with board := updateContract id f t.board }

theorem bestContract_scan (nerve : Int) (rows : List BoardRow) :
    bestContract nerve rows =
      scanBest (BoardRow.worth nerve) (fun r => (r.id : Int)) rows (-1, intMin) := rfl

/-- A contract that is fair is worth something to everybody, as far as an `int` goes. -/
theorem BoardRow.Fair.worth {r : BoardRow} (fair : r.Fair) {nerve : Int} (bold : 0 ≤ nerve) :
    intMin < r.worth nerve := by
  have share : 0 ≤ (r.payout * nerve).tdiv 100 :=
    Int.tdiv_nonneg (Int.mul_nonneg fair.pays bold) (by decide)
  have risky := fair.risky
  unfold BoardRow.worth intMin
  omega

/-- The best contract is the first of those that are worth most, if there is any. -/
theorem bestContract_foremost {rows : List BoardRow} (fair : ∀ r ∈ rows, r.Fair) {nerve : Int}
    (bold : 0 ≤ nerve) :
    (rows = [] ∧ (bestContract nerve rows).1 = -1) ∨
      ∃ r, Foremost (BoardRow.worth nerve) r rows ∧ (bestContract nerve rows).1 = r.id := by
  rw [bestContract_scan]
  rcases scanBest_foremost (BoardRow.worth nerve) (fun r => (r.id : Int)) rows (-1, intMin) with
    ⟨same, least⟩ | ⟨r, foremost, _, found⟩
  · left
    constructor
    · apply List.eq_nil_iff_forall_not_mem.mpr
      intro r mem
      exact absurd ((fair r mem).worth bold) (not_lt.mpr (least r mem))
    · rw [same]
  · exact .inr ⟨r, foremost, by rw [found]⟩

/-- The ward's database is open and its tables have been created. -/
structure Live (w : World) : Prop where
  isOpen : w.g.ward.isOpen = true
  created : w.g.ward.now.created = true

/-- What `built` reads of venue `i` when the call is the `k`-th from now: a read that fails is -1, which
stands. -/
def World.hears (w : World) (k : Nat) (i : Int) : Bool :=
  w.plane.faults (w.plane.tick + k) || w.g.stands i

/-- The nerve `choose` reckons with: it looks at the board first, then at the Tavern and the Chapel. -/
def World.heardNerve (w : World) (wear : Int) : Int :=
  100 - wear + (if w.hears 1 0 then 25 else 0) + (if w.hears 2 4 then 20 else 0)

theorem World.heardNerve_nonneg (w : World) {wear : Int} (worn : wear ≤ 90) : 0 ≤ w.heardNerve wear := by
  unfold World.heardNerve
  split <;> split <;> omega

section Choosing

variable {w : World} {i : Nat} {s : Spark}

theorem Live.of_aside {busy : Option Nat} {w' : World} (live : Live w)
    (same : w'.aside busy = w.aside busy) : Live w' :=
  ⟨(congrArg Aside.isOpen same).trans live.isOpen, (congrArg Aside.created same).trans live.created⟩

theorem built_hears (w : World) (i : Int) : built i w = (.ret (w.hears 0 i), w.after 1) := built_word i

/-- `choose`, by the plane's word: nothing when the look at the board fails, nothing when nothing is left, and
nothing when the claim fails. -/
theorem choose_word (live : Live w) (here : w.g.sparks[i]? = some s) :
    choose i w =
      if w.plane.faults w.plane.tick then (.ret (-1), w.after 1)
      else
        let best := (bestContract (w.heardNerve s.wear) (openRows w.g.ward.now.board)).1
        if best < 0 then (.ret best, w.after 3)
        else if w.plane.faults (w.plane.tick + 3) then (.ret (-1), w.after 4)
        else (.ret best, (w.after 4).setGyre
          (Gyre.onTables (WardTables.onContract best.toNat (BoardRow.claim s.id)))) := by
  unfold choose
  cases look : w.plane.faults w.plane.tick with
  | true =>
      have asked : fallible w = (.fail, w.after 1) := by rw [fallible_eq, if_pos look]
      rw [Action.bind_ret (Action.attempt_fail asked)]
      rfl
  | false =>
      have asked : fallible w = (.ret (), w.after 1) := by
        rw [fallible_eq, look]
        rfl
      have looked : openContracts w.g = some (openRows w.g.ward.now.board) := by
        unfold openContracts
        rw [live.isOpen, live.created]
        rfl
      rw [Action.bind_ret (Action.attempt_ret asked)]
      dsimp only
      rw [Action.bind_ret (Action.read_apply _ _)]
      simp only [World.after_g, looked, here]
      rw [Action.bind_ret (built_hears (w.after 1) 0), Action.bind_ret (built_hears ((w.after 1).after 1) 4)]
      have reckoned : 100 - s.wear + (if (w.after 1).hears 0 0 then 25 else 0) +
          (if ((w.after 1).after 1).hears 0 4 then 20 else 0) = w.heardNerve s.wear := rfl
      rw [reckoned, World.after_after, World.after_after]
      generalize (bestContract (w.heardNerve s.wear) (openRows w.g.ward.now.board)).1 = best
      rw [if_neg Bool.false_ne_true]
      by_cases idle : best < 0
      · rw [if_pos idle, if_pos idle]
        rfl
      · rw [if_neg idle, if_neg idle]
        have claimed : runWard (updateTaken best.toNat s.id) (w.after 3) = _ :=
          runWard_word (w := w.after 3) live.isOpen live.created
            (WardTables.onContract best.toNat (BoardRow.claim s.id))
        rw [World.after_faults, World.after_tick, World.after_after] at claimed
        cases claim : w.plane.faults (w.plane.tick + 3) with
        | true =>
            rw [claim, if_pos rfl] at claimed
            exact Action.bind_ret (Action.attempt_fail claimed)
        | false =>
            rw [claim, if_neg Bool.false_ne_true] at claimed
            exact Action.bind_ret (Action.attempt_ret claimed)

/-- A Spark takes nothing and nothing has changed, because nothing is left or the look at the board or the
claim failed; or they take the first of the contracts that are best by what they hear. -/
theorem choose_takes (live : Live w) (here : w.g.sparks[i]? = some s) (worn : s.wear ≤ 90)
    (fair : ∀ r ∈ w.g.ward.now.board, r.Fair) :
    ((openRows w.g.ward.now.board = [] ∨ w.plane.faults w.plane.tick = true ∨
        w.plane.faults (w.plane.tick + 3) = true) ∧ ∃ n, choose i w = (.ret (-1), w.after n)) ∨
      ∃ r, Foremost (BoardRow.worth (w.heardNerve s.wear)) r (openRows w.g.ward.now.board) ∧
        w.plane.faults w.plane.tick = false ∧ w.plane.faults (w.plane.tick + 3) = false ∧
          choose i w = (.ret r.id, (w.after 4).setGyre
            (Gyre.onTables (WardTables.onContract r.id (BoardRow.claim s.id)))) := by
  have each : ∀ r ∈ openRows w.g.ward.now.board, r.Fair := fun r mem =>
    fair r (List.mem_of_mem_filter mem)
  rw [choose_word live here]
  cases look : w.plane.faults w.plane.tick with
  | true => exact .inl ⟨.inr (.inl rfl), 1, rfl⟩
  | false =>
      rw [if_neg Bool.false_ne_true]
      rcases bestContract_foremost each (w.heardNerve_nonneg worn) with ⟨none, no⟩ | ⟨r, foremost, best⟩
      · left
        rw [no]
        exact ⟨.inl none, 3, rfl⟩
      · rw [best]
        dsimp only
        rw [if_neg (by omega)]
        cases claim : w.plane.faults (w.plane.tick + 3) with
        | true => exact .inl ⟨.inr (.inr rfl), 4, rfl⟩
        | false => exact .inr ⟨r, foremost, rfl, rfl, rfl⟩

end Choosing

/-! ### Working -/

section Rows

variable {id : Nat} {f : BoardRow → BoardRow} {rows : List BoardRow}

theorem mem_updateContract {r : BoardRow} :
    r ∈ updateContract id f rows ↔ ∃ r' ∈ rows, (if r'.id = id then f r' else r') = r :=
  List.mem_map

theorem updateContract_twice (named : ∀ r, (f r).id = r.id) (f' : BoardRow → BoardRow) :
    updateContract id f' (updateContract id f rows) = updateContract id (fun r => f' (f r)) rows := by
  unfold updateContract
  rw [List.map_map]
  apply List.map_congr_left
  intro r _
  rw [Function.comp_apply]
  by_cases mine : r.id = id
  · rw [if_pos mine, if_pos ((named r).trans mine), if_pos mine]
  · rw [if_neg mine, if_neg mine, if_neg mine]

/-- A changed contract is found where it was. -/
theorem find_updateContract (named : ∀ r, (f r).id = r.id) :
    (updateContract id f rows).find? (fun r => r.id == id) =
      (rows.find? fun r => r.id == id).map f := by
  induction rows with
  | nil => rfl
  | cons r rest ih =>
      unfold updateContract at ih ⊢
      by_cases mine : r.id = id
      · have still : (f r).id = id := (named r).trans mine
        simp [mine, still]
      · simpa [mine] using ih

end Rows

/-- What is read of a number when the read is the `k`-th call from now: a read that fails is 0. -/
def World.reads (w : World) (k : Nat) (v : Int) : Int :=
  if w.plane.faults (w.plane.tick + k) then 0 else v

/-- What is read of a place, one coordinate after the other. -/
def World.readsPlace (w : World) (p : Place) : Place :=
  { x := w.reads 0 p.x, y := w.reads 1 p.y, z := w.reads 2 p.z }

/-- What a contract does before its Spark sets out: wear, the outcome on the board, the wage. -/
def settleOpening (i id : Nat) (won : Bool) (earned : Int) (item : Option Text) : Action World Unit := do
  let repaired ← built 1
  remember (Gyre.setWear i (wornBy won repaired))
  runWard (updateOutcome id (text (if won then "kept" else "lost")))
  let wage := wageOf won earned
  if 0 < wage ∧ wage ≤ (← Action.read (·.g.treasury)) then
    pay i wage (item.map fun name => (name, text "salvage"))

/-- A contract worked out, as far as its Spark's setting out. -/
def workOpening (i : Nat) (s : Spark) (id : Nat) : Action World Unit := do
  let payout ← scalarWard (selectContract id (·.payout))
  let risk ← scalarWard (selectContract id (·.risk))
  let roll ← draw 100
  let won : Bool := risk ≤ roll
  let earned := if won then payout else 0
  let item ← if won then some <$> keepContract payout s.id else pure none
  settleOpening i id won earned item

/-- A Spark's turn as far as their setting out, and the contract they set out for. -/
def turnOpening (i : Nat) : Action World (Option Nat) := do
  let id ← choose i
  if id < 0 then pure none
  else
    match ← Action.read (·.g.sparks[i]?) with
    | some s => do
        workOpening i s id.toNat
        pure (some id.toNat)
    | none => pure none

/-- The way to the contract a turn has opened with, if it has opened with one. -/
def turnRest (i : Nat) : Option Nat → Action World Unit
  | some id => goToWork i id
  | none => pure ()

theorem settleContract_opened (i id : Nat) (won : Bool) (earned : Int) (item : Option Text) :
    settleContract i id won earned item =
      settleOpening i id won earned item >>= fun _ => goToWork i id := by
  unfold settleContract settleOpening
  simp only [bind_assoc]
  congr 1
  funext repaired
  congr 1
  funext _
  congr 1
  funext _
  congr 1
  funext treasury
  split
  · rfl
  · rfl

theorem workContract_opened (i : Nat) (s : Spark) (id : Nat) :
    workContract i s id = workOpening i s id >>= fun _ => goToWork i id := by
  unfold workContract workOpening
  simp only [bind_assoc, settleContract_opened]
  congr 1
  funext payout
  congr 1
  funext risk
  congr 1
  funext roll
  split
  · rw [bind_assoc]
  · rw [bind_assoc]

theorem sparkTurn_opened (i : Nat) : sparkTurn i = turnOpening i >>= turnRest i := by
  unfold sparkTurn turnOpening
  rw [bind_assoc]
  congr 1
  funext id
  split
  · rfl
  · rw [bind_assoc]
    congr 1
    funext here
    cases here with
    | none => rfl
    | some s =>
        dsimp only
        rw [workContract_opened, bind_assoc]
        rfl

/-- Contract `id` has been worked by the Spark at place `i`, who has yet to set out: it has an outcome, and
everything else is as it was. -/
def Worked (i id : Nat) (w w' : World) : Prop :=
  ∃ outcome, w'.aside (some i) =
    { w.aside (some i) with board := updateContract id (BoardRow.settle outcome) w.g.ward.now.board }

section Working

variable {w : World} {i id : Nat} {s : Spark} {r : BoardRow}

/-- The way to a contract that is on the board, by the plane's word. -/
theorem goThere_word (live : Live w) (found : w.g.ward.now.board.find? (fun r => r.id == id) = some r) :
    goThere i id w = (.ret (), (w.after 3).setGyre (Gyre.movePlace i fun _ => w.readsPlace r.place)) := by
  have asked (w' : World) (live' : Live w') (board : w'.g.ward.now.board = w.g.ward.now.board)
      (column : BoardRow → Int) :
      scalar64Ward (selectContract id column) w' = (.ret (w'.reads 0 (column r)), w'.after 1) := by
    unfold scalar64Ward
    rw [scalarOr_word]
    simp only [Gyre.askWard, live'.isOpen, live'.created, selectContract, board, found]
    rfl
  have first := asked w live rfl (·.place.x)
  generalize first_eq : (w.after 1).setGyre (Gyre.movePlace i fun p => { p with x := w.reads 0 r.place.x }) = w₁
  have live₁ : Live w₁ := by
    rw [← first_eq]
    exact ⟨live.isOpen, live.created⟩
  have board₁ : w₁.g.ward.now.board = w.g.ward.now.board := by
    rw [← first_eq]
    rfl
  have second := asked w₁ live₁ board₁ (·.place.y)
  generalize second_eq : (w₁.after 1).setGyre (Gyre.movePlace i fun p => { p with y := w₁.reads 0 r.place.y }) = w₂
  have live₂ : Live w₂ := by
    rw [← second_eq]
    exact ⟨live₁.isOpen, live₁.created⟩
  have board₂ : w₂.g.ward.now.board = w.g.ward.now.board := by
    rw [← second_eq]
    exact board₁
  have third := asked w₂ live₂ board₂ (·.place.z)
  unfold goThere remember
  rw [Action.bind_ret first, Action.bind_ret (Action.modify_apply _ _), first_eq, Action.bind_ret second,
    Action.bind_ret (Action.modify_apply _ _), second_eq, Action.bind_ret third, Action.modify_apply,
    ← second_eq, ← first_eq]
  have moves (g : Gyre) (x y z : Int) : ((g.movePlace i fun p => { p with x := x }).movePlace i fun p =>
      { p with y := y }).movePlace i (fun p => { p with z := z }) = g.movePlace i fun _ => ⟨x, y, z⟩ := by
    unfold Gyre.movePlace Gyre.setSpark
    simp only [List.modify_modify_eq]
    rfl
  have same := moves w.g (w.reads 0 r.place.x) (w.reads 1 r.place.y) (w.reads 2 r.place.z)
  exact congrArg (fun g => (Result.ret (), { w.after 3 with g := g })) same

/-- What a Spark writes down of their work moves them nowhere. -/
theorem wp_workEntries_place (w : World) :
    wp (workEntries i) (fun _ w' => w'.g.sparks[i]?.map (·.place) = w.g.sparks[i]?.map (·.place))
      (fun _ => True) w := by
  unfold workEntries
  rw [Action.wp_bind, Action.wp_read]
  cases here : w.g.sparks[i]? with
  | none => exact congrArg _ here
  | some s =>
      apply wp_runSpark trivial
      intro s' t here' _ _
      change ((w.g.setSpark i _).sparks[i]?).map _ = _
      rw [setSpark_at, if_pos rfl, here]
      rfl

/-- Whoever goes to work is where they read that the contract is, and nobody else has moved. -/
theorem wp_goToWork_goes (live : Live w) (here : w.g.sparks[i]? = some s)
    (found : w.g.ward.now.board.find? (fun r => r.id == id) = some r) :
    wp (goToWork i id) (fun _ w' => w'.aside (some i) = w.aside (some i) ∧
      w'.g.sparks[i]?.map (·.place) = some (w.readsPlace r.place)) (fun _ => True) w := by
  have went : ((w.after 3).setGyre (Gyre.movePlace i fun _ => w.readsPlace r.place)).aside (some i) =
      w.aside (some i) :=
    aside_setSpark (fun s => { s with place := w.readsPlace r.place }) (fun _ => rfl) (w.after 3)
  have there : ((w.after 3).setGyre
      (Gyre.movePlace i fun _ => w.readsPlace r.place)).g.sparks[i]?.map (·.place) =
        some (w.readsPlace r.place) := by
    change ((w.g.setSpark i fun s => { s with place := w.readsPlace r.place }).sparks[i]?).map _ = _
    rw [setSpark_at, if_pos rfl, here]
    rfl
  rw [goToWork_eq]
  apply Action.wp_bind_ret (goThere_word live found)
  rw [Action.wp_bind]
  -- joining the group changes nothing of anybody, so not where they are
  have joins : Discreet none Unit (groupJoin (.spark i)) := discreet_groupJoin _
  apply joins.wp
  intro _ w₁ joined
  have records := congrFun (congrArg Aside.others joined) i
  have stays : w₁.g.sparks[i]?.map (·.place) = some (w.readsPlace r.place) := by
    have place := congrArg (Option.map Record.place) records
    simp only [World.aside, reduceCtorEq, if_false, Option.map_map] at place
    exact place.trans there
  have same : w₁.aside (some i) = w.aside (some i) := by
    rw [← went]
    have each : ∀ k : Nat, w₁.g.sparks[k]?.map Spark.record = _ := fun k =>
      congrFun (congrArg Aside.others joined) k
    unfold World.aside
    congr 1
    · exact congrArg Aside.faults joined
    · exact congrArg Aside.isOpen joined
    · exact congrArg Aside.created joined
    · exact congrArg Aside.venue joined
    · exact congrArg Aside.board joined
    · exact congrArg Aside.ids joined
    · funext k
      split
      · rfl
      · exact each k
  apply Action.wp_mono (Action.wp_and (wp_workEntries_place w₁)
    ((discreet_workEntries i).leaves.wp w₁)) _ fun _ _ => trivial
  intro _ w₂ wrote
  exact ⟨wrote.2.trans same, wrote.1.trans stays⟩

/-- Once the outcome is on the board the contract has been worked, whether a wage is paid or not. -/
theorem wp_settleOpening_works (won : Bool) (earned : Int) (item : Option Text) (w : World) :
    wp (settleOpening i id won earned item) (fun _ => Worked i id w) (fun _ => True) w := by
  unfold settleOpening
  rw [Action.wp_bind]
  apply (discreet_asks (asks_built 1)).wp
  intro repaired w₁ same₁
  rw [Action.wp_bind]
  apply (discreet_setSpark (i := i) (f := fun s => { s with wear := wornBy won repaired s.wear })
    fun _ => rfl).wp
  intro _ w₂ same₂
  have same := same₂.trans same₁
  have board : w₂.g.ward.now.board = w.g.ward.now.board := congrArg Aside.board same
  rw [Action.wp_bind]
  apply wp_runWard trivial
  intro _ t effect
  have changed : t = WardTables.onContract id (BoardRow.settle (text (if won then "kept" else "lost")))
      w₂.g.ward.now := existing_some effect
  rw [changed]
  generalize text (if won then "kept" else "lost") = outcome
  generalize after : (w₂.after 1).setGyre (Gyre.setWard fun c =>
    { c with now := WardTables.onContract id (BoardRow.settle outcome) w₂.g.ward.now }) = w₃
  have aside₃ : w₃.aside (some i) =
      { w.aside (some i) with
        board := updateContract id (BoardRow.settle outcome) w.g.ward.now.board } := by
    rw [← same, ← board, ← after]
    rfl
  rw [Action.wp_bind, Action.wp_read]
  apply Action.wp_ite
  · intro _
    apply (discreet_pay i _ _).wp
    intro _ w₄ same₄
    exact ⟨outcome, same₄.trans aside₃⟩
  · intro _
    exact ⟨outcome, aside₃⟩

theorem wp_workOpening_works (s : Spark) (w : World) :
    wp (workOpening i s id) (fun _ => Worked i id w) (fun _ => True) w := by
  have settles (won : Bool) (earned : Int) (item : Option Text) {w₄ : World}
      (same : w₄.aside (some i) = w.aside (some i)) :
      wp (settleOpening i id won earned item) (fun _ => Worked i id w) (fun _ => True) w₄ := by
    have board : w₄.g.ward.now.board = w.g.ward.now.board := congrArg Aside.board same
    apply Action.wp_mono (wp_settleOpening_works won earned item w₄) _ fun _ _ => trivial
    rintro _ w₅ ⟨outcome, aside⟩
    refine ⟨outcome, ?_⟩
    rw [aside, same, board]
  unfold workOpening
  rw [Action.wp_bind]
  apply (discreet_asks (asks_scalarOr _ _)).wp
  intro payout w₁ same₁
  rw [Action.wp_bind]
  apply (discreet_asks (asks_scalarOr _ _)).wp
  intro risk w₂ same₂
  rw [Action.wp_bind]
  apply (discreet_draw 100).wp
  intro roll w₃ same₃
  have same := same₃.trans (same₂.trans same₁)
  dsimp only
  cases won : decide (risk ≤ roll) with
  | true =>
      simp only [reduceIte]
      rw [map_eq_pure_bind, bind_assoc, Action.wp_bind]
      apply (discreet_keepContract payout s.id).wp
      intro name w₄ same₄
      rw [pure_bind]
      exact settles true payout (some name) (same₄.trans same)
  | false =>
      simp only [Bool.false_eq_true, reduceIte]
      rw [pure_bind]
      exact settles false 0 none same

end Working

end GyreWard
