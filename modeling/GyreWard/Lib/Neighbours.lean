/-
Module: GyreWard.Lib.Neighbours
Purpose: Finding out that a list has no item twice by sorting it and comparing neighbours.
Trusted boundary: none
Main exports: apart, apart_iff_nodup, apart_mergeSort_iff, not_nodup_iff
-/
import Mathlib.Data.List.Induction
import Mathlib.Data.List.Nodup
import Mathlib.Order.Lattice

namespace Lib

variable {α : Type}

/-- No item is the same as the one behind it. -/
def apart [DecidableEq α] : List α → Bool
  | a :: b :: rest => decide (b ≠ a) && apart (b :: rest)
  | _ => true

/-- In a sorted list it is enough to compare neighbours. -/
theorem apart_iff_nodup [LinearOrder α] [DecidableEq α] {items : List α} (sorted : items.Pairwise (· ≤ ·)) :
    apart items = true ↔ items.Nodup := by
  induction items with
  | nil => exact iff_of_true rfl List.nodup_nil
  | cons a rest ih =>
      obtain ⟨least, sortedRest⟩ := List.pairwise_cons.mp sorted
      have later := ih sortedRest
      cases rest with
      | nil => exact iff_of_true rfl (List.nodup_singleton a)
      | cons b rest =>
          have absent : (a :: b :: rest).Nodup ↔ a ∉ b :: rest ∧ (b :: rest).Nodup :=
            List.nodup_cons
          unfold apart
          rw [Bool.and_eq_true, decide_eq_true_eq, later, absent]
          apply and_congr_left
          intro _
          constructor
          · intro different mem
            rcases List.mem_cons.mp mem with here | further
            · exact different here.symm
            · -- what stands further on is not below its neighbour
              have above := (List.pairwise_cons.mp sortedRest).1 a further
              have below := least b (List.mem_cons_self ..)
              exact different (le_antisymm above below)
          · rintro absent rfl
            exact absent (List.mem_cons_self ..)

/-- Whatever sorts the list, as long as it sorts by the order. -/
theorem apart_mergeSort_iff [LinearOrder α] [DecidableEq α] {le : α → α → Bool}
    (order : ∀ a b, le a b = true ↔ a ≤ b) (items : List α) : apart (items.mergeSort le) = true ↔ items.Nodup := by
  have sorted : (items.mergeSort le).Pairwise (· ≤ ·) := by
    have trans : ∀ a b c, le a b = true → le b c = true → le a c = true := by
      intro a b c first second
      rw [order] at first second ⊢
      exact le_trans first second
    have total : ∀ a b, (le a b || le b a) = true := by
      intro a b
      rw [Bool.or_eq_true, order, order]
      exact le_total a b
    exact (List.pairwise_mergeSort trans total items).imp fun related => (order _ _).mp related
  rw [apart_iff_nodup sorted]
  exact (List.mergeSort_perm items le).nodup_iff

/-- A list with an item twice has one that is already in front of itself. -/
theorem not_nodup_iff {items : List α} :
    ¬ items.Nodup ↔ ∃ before a after, items = before ++ a :: after ∧ a ∈ before := by
  constructor
  · induction items using List.reverseRecOn with
    | nil => exact fun twice => absurd List.nodup_nil twice
    | append_singleton items a ih =>
        intro twice
        by_cases once : items.Nodup
        · have again : a ∈ items := by
            by_contra absent
            apply twice
            rw [← List.concat_eq_append]
            exact once.concat absent
          exact ⟨items, a, [], rfl, again⟩
        · obtain ⟨before, b, after, split, mem⟩ := ih once
          apply Exists.intro before
          apply Exists.intro b
          apply Exists.intro (after ++ [a])
          rw [split, List.append_assoc]
          exact ⟨rfl, mem⟩
  · rintro ⟨before, a, after, rfl, mem⟩ nodup
    exact (List.nodup_append.mp nodup).2.2 a mem a (List.mem_cons_self ..) rfl

end Lib
