/-
Module: GyreWard.Proofs.Books
Purpose: The books of a served ward: its accounts, its ledger, its Sparks' databases and what
  `honest` makes of them.
Trusted boundary: none
Main exports: BooksBalance, honest_of_balanced, served_books_balance
-/
import Mathlib.Algebra.BigOperators.Ring.Finset
import GyreWard.Proofs.Served

namespace GyreWard

open Lib

/-- The accounts of a ward, its ledger and its Sparks' own databases say the same. -/
structure BooksBalance (g : Gyre) : Prop where
  treasury : g.treasury = 300 + total g.ward.now.ledger
  spent : g.spent = -sumFor .commission g.ward.now.ledger
  retired : g.retired = -sumFor .debt g.ward.now.ledger
  issued : g.issued = 300 + sumFor .salvage g.ward.now.ledger
  purse : ∀ (i : Nat) (s : Spark), g.sparks[i]? = some s →
    g.askSpark i (selectSpark (·.purse)) = some (-wagesOf s.id g.ward.now.ledger)
  remembered : ∀ s ∈ g.sparks, s.purse = -wagesOf s.id g.ward.now.ledger
  held : ((g.sparks.map fun s => s.db.now.held.length).sum : Nat) = g.found
  found : g.found = countFor .salvage g.ward.now.ledger
  solvent : 0 ≤ g.treasury
  owed : 0 ≤ g.debt
  purses : ∀ s ∈ g.sparks, 0 ≤ s.purse

section Balanced

variable {g : Gyre}

/-- A Spark of a sound ward with a balanced book has one row, with their purse in it. -/
theorem purse_of_balanced (sound : Sound g) (balanced : g.till.Balanced) {i : Nat} {s : Spark}
    (here : g.sparks[i]? = some s) : g.askSpark i (selectSpark (·.purse)) = some s.purse := by
  have mem : s.side ∈ g.till.purses := List.mem_map_of_mem (List.mem_of_getElem? here)
  have row := (balanced.pockets.carries s.side mem).row
  obtain ⟨isOpen, rows⟩ := sound.steady.spark i s here
  obtain ⟨created, r, one, -⟩ := rows.now
  have purse : r.purse = s.purse := by
    simp only [Spark.side, one, List.map_singleton, List.cons.injEq, Prod.mk.injEq] at row
    exact row.1.2
  simp [Gyre.askSpark, here, isOpen, created, selectSpark, one, purse]

theorem held_of_sound (sound : Sound g) {i : Nat} {s : Spark} (here : g.sparks[i]? = some s) :
    g.askSpark i countHeld = some (s.db.now.held.length : Int) := by
  obtain ⟨isOpen, rows⟩ := sound.steady.spark i s here
  obtain ⟨created, -⟩ := rows.now
  simp [Gyre.askSpark, here, isOpen, created, countHeld]

theorem booksBalance_of_balanced (sound : Sound g) (balanced : g.till.Balanced) :
    BooksBalance g := by
  obtain ⟨accounts, pockets⟩ := balanced
  have carried : ∀ s ∈ g.sparks, Till.Carries g.till.ledger s.side := fun s mem =>
    pockets.carries s.side (List.mem_map_of_mem mem)
  refine ⟨accounts.treasury, accounts.spent, accounts.retired, accounts.issued, ?_, ?_, ?_,
    accounts.found, accounts.solvent, accounts.owed, ?_⟩
  · intro i s here
    rw [purse_of_balanced sound ⟨accounts, pockets⟩ here]
    exact congrArg some (carried s (List.mem_of_getElem? here)).wages
  · exact fun s mem => (carried s mem).wages
  · have held := pockets.held
    simp only [Gyre.till, List.map_map] at held
    exact held
  · exact fun s mem => (carried s mem).solvent

end Balanced

/-! ### Honesty -/

/-- A sum over the Sparks' databases, where a query without an answer counts as `-1`. -/
theorem sumSparks_quiet {query : SparkTables → Option Int} {value : Nat → Int} :
    ∀ {places : List Nat} {w : World}, Quiet w →
      (∀ i ∈ places, (w.g.askSpark i query).getD (-1) = value i) →
      sumSparks query places w = (.ret (places.map value).sum, w.after places.length)
  | [], w, _, _ => rfl
  | i :: rest, w, quiet, answers => by
      have first : scalarSpark i query w = (.ret (value i), w.after 1) := by
        rw [scalarSpark_quiet quiet, answers i (List.mem_cons_self ..)]
      have others : sumSparks query rest (w.after 1) =
          (.ret (rest.map value).sum, (w.after 1).after rest.length) :=
        sumSparks_quiet (quiet_after 1 w |>.mpr quiet) fun j mem =>
          answers j (List.mem_cons_of_mem _ mem)
      unfold sumSparks
      rw [Action.bind_ret first, Action.bind_ret others, World.after_after, Nat.add_comm 1]
      rfl

/-- A sum over the Sparks of a ward. -/
theorem sumSparks_all {w : World} (quiet : Quiet w) {query : SparkTables → Option Int}
    {f : Spark → Int}
    (answers : ∀ (i : Nat) (s : Spark), w.g.sparks[i]? = some s →
      (w.g.askSpark i query).getD (-1) = f s) :
    sumSparks query (List.range w.g.sparks.length) w =
      (.ret (w.g.sparks.map f).sum, w.after w.g.sparks.length) := by
  have each : ∀ i ∈ List.range w.g.sparks.length,
      (w.g.askSpark i query).getD (-1) = (w.g.sparks[i]?.map f).getD 0 := by
    intro i mem
    have here := List.getElem?_eq_getElem (List.mem_range.mp mem)
    rw [answers i _ here, here]
    rfl
  rw [sumSparks_quiet quiet each, map_range_getElem?, List.length_range]

/-- The purses the databases add up to are the purses remembered. -/
theorem purses_of_balanced {w : World} (quiet : Quiet w) (sound : Sound w.g)
    (balanced : w.g.till.Balanced) :
    purses w = (.ret (w.g.sparks.map (·.purse)).sum, w.after w.g.sparks.length) := by
  unfold purses
  rw [Action.bind_ret (Action.read_apply _ _)]
  apply sumSparks_all quiet
  intro i s here
  rw [purse_of_balanced sound balanced here]
  rfl

/-- A sound ward that keeps a balanced book is honest. -/
theorem honest_of_balanced {w : World} (quiet : Quiet w) (sound : Sound w.g)
    (balanced : w.g.till.Balanced) : (honest w).1 = .ret true := by
  have pursed := purses_of_balanced quiet sound balanced
  have counted : sumSparks countHeld (List.range w.g.sparks.length) (w.after w.g.sparks.length) =
      (.ret (w.g.sparks.map fun s => (s.db.now.held.length : Int)).sum,
        (w.after w.g.sparks.length).after w.g.sparks.length) := by
    apply sumSparks_all (w := w.after w.g.sparks.length) quiet
    intro i s here
    change (w.g.askSpark i countHeld).getD (-1) = _
    rw [held_of_sound sound here]
    rfl
  obtain ⟨accounts, pockets⟩ := balanced
  have conserved : w.g.treasury + (w.g.sparks.map (·.purse)).sum + w.g.retired + w.g.spent =
      w.g.issued := by
    have treasury : w.g.treasury = 300 + total w.g.till.ledger := accounts.treasury
    have spent : w.g.spent = -sumFor .commission w.g.till.ledger := accounts.spent
    have retired : w.g.retired = -sumFor .debt w.g.till.ledger := accounts.retired
    have issued : w.g.issued = 300 + sumFor .salvage w.g.till.ledger := accounts.issued
    have paid : (w.g.sparks.map (·.purse)).sum = -sumFor .wages w.g.till.ledger := by
      have sum := pockets.sum
      simp only [Gyre.till, List.map_map] at sum
      exact sum
    have entries := accounts.entries
    omega
  have items : (w.g.sparks.map fun s => (s.db.now.held.length : Int)).sum = w.g.found := by
    have held := pockets.held
    simp only [Gyre.till, List.map_map, Nat.add_zero] at held
    rw [← held, Nat.cast_list_sum, List.map_map]
    rfl
  unfold honest
  rw [Action.bind_ret (Action.read_apply _ _), Action.bind_ret pursed]
  rw [if_neg (not_not.mpr conserved), Action.bind_ret counted]
  simp [items]

/-- In every world of an undisturbed service the books of the ward balance, and `honest` returns
0. -/
theorem served_books_balance (w : World) (undisturbed : Undisturbed w) :
    BooksBalance w.g ∧ (honest w).1 = .ret true := by
  have sound := undisturbed.reached.sound
  have kept := undisturbed.kept
  exact ⟨booksBalance_of_balanced sound kept.balanced,
    honest_of_balanced kept.keeping.quiet sound kept.balanced⟩

/-- A ward of two Sparks that has run a cycle. -/
def cycledWard : World := ((World.founded 2 7 fun _ => false).answer (text "cycle")).2

/-- The books of that ward balance. -/
theorem cycled_ward_balances :
    BooksBalance cycledWard.g ∧ (honest cycledWard).1 = .ret true := by
  have founded : Undisturbed (World.founded 2 7 fun _ => false) :=
    undisturbed_founded (by decide +kernel)
  have well : ((World.founded 2 7 fun _ => false).answer (text "cycle")).1.map
      (decide ·.Failed) = some false := by
    decide +kernel
  exact served_books_balance cycledWard (founded.answer well)

end GyreWard
