/-
Module: GyreWard.Proofs.FdbBuffer
Purpose: The pages that were written and not sent are kept in order, and the search for one finds it.
Trusted boundary: none
Main exports: Sorted, searchDirty_spec, take_dirtySlot, drop_dirtySlot, findDirty_eq, insertDirty_eq,
  rowOf_insertDirty, sorted_insertDirty
-/
import GyreWard.Model.FdbVfs
import Mathlib.Data.List.TakeDrop

namespace GyreWard.Fdb

open Lib

variable {P α : Type}

/-- In the order of the page numbers, one for a page. -/
def Sorted (rows : List (Nat × α)) : Prop := rows.Pairwise fun a b => a.1 < b.1

/-- Rows in order are a table. -/
def Sorted.table {rows : List (Nat × α)} (sorted : Sorted rows) : Table Nat α := ⟨rows, sorted⟩

theorem Sorted.get {rows : List (Nat × α)} (sorted : Sorted rows) (pgno : Nat) :
    sorted.table.get pgno = rowOf rows pgno := rfl

theorem Sorted.rowOf_eq_some {rows : List (Nat × α)} (sorted : Sorted rows) {pgno : Nat} {a : α} :
    rowOf rows pgno = some a ↔ (pgno, a) ∈ rows :=
  (Table.mem_rows (t := sorted.table)).symm

theorem Sorted.apart {rows : List (Nat × α)} (sorted : Sorted rows) :
    rows.Pairwise fun a b => a.1 ≠ b.1 :=
  List.Pairwise.imp (fun less => Nat.ne_of_lt less) sorted

theorem Sorted.filter {rows : List (Nat × α)} (sorted : Sorted rows) (p : Nat × α → Bool) :
    Sorted (rows.filter p) :=
  List.Pairwise.filter p sorted

theorem rowOf_eq_none {rows : List (Nat × α)} {pgno : Nat} :
    rowOf rows pgno = none ↔ ∀ r ∈ rows, r.1 ≠ pgno := by
  rw [rowOf, Option.map_eq_none_iff, List.find?_eq_none]
  simp

/-! ### The search -/

/-- Where a search may end: all before it are less, all from it on are not. -/
def Cut (dirty : List (Nat × P)) (pgno k : Nat) : Prop :=
  k ≤ dirty.length ∧ (∀ r ∈ dirty.take k, r.1 < pgno) ∧ ∀ r ∈ dirty.drop k, pgno ≤ r.1

/-- The search ends at the cut, when the bounds hold it and there are turns enough. -/
theorem searchDirty_spec {dirty : List (Nat × P)} (sorted : Sorted dirty) {pgno : Nat} {n lo hi : Nat}
    (enough : hi - lo ≤ n) (inside : lo ≤ hi) (fits : hi ≤ dirty.length)
    (before : ∀ r ∈ dirty.take lo, r.1 < pgno) (after : ∀ r ∈ dirty.drop hi, pgno ≤ r.1) :
    Cut dirty pgno (searchDirty dirty pgno n lo hi) := by
  induction n generalizing lo hi with
  | zero =>
      have same : lo = hi := by omega
      exact ⟨Nat.le_trans inside fits, before, same ▸ after⟩
  | succ n ih =>
      rw [searchDirty]
      by_cases more : lo < hi
      · rw [if_pos more]
        have middle : lo + (hi - lo) / 2 < dirty.length := by omega
        have split : dirty.Pairwise fun a b => a.1 < b.1 := sorted
        rw [← List.take_append_drop (lo + (hi - lo) / 2) dirty, List.pairwise_append,
          List.drop_eq_getElem_cons middle, List.pairwise_cons] at split
        obtain ⟨-, ⟨above, -⟩, below⟩ := split
        have found : dirty[lo + (hi - lo) / 2]? = some dirty[lo + (hi - lo) / 2] :=
          List.getElem?_eq_getElem middle
        by_cases less : dirty[lo + (hi - lo) / 2].1 < pgno
        · simp only [found, if_pos less]
          apply ih (by omega) (by omega) fits _ after
          intro r mem
          rw [List.take_succ_eq_append_getElem middle] at mem
          rcases List.mem_append.mp mem with early | last
          · exact Nat.lt_trans (below r early _ (List.mem_cons_self ..)) less
          · rw [List.mem_singleton.mp last]
            exact less
        · simp only [found, if_neg less]
          apply ih (by omega) (by omega) (by omega) before
          intro r mem
          rw [List.drop_eq_getElem_cons middle] at mem
          rcases List.mem_cons.mp mem with rfl | late
          · exact Nat.not_lt.mp less
          · exact Nat.le_of_lt (Nat.lt_of_le_of_lt (Nat.not_lt.mp less) (above r late))
      · rw [if_neg more]
        have same : lo = hi := by omega
        exact ⟨Nat.le_trans inside fits, before, same ▸ after⟩

theorem cut_dirtySlot {dirty : List (Nat × P)} (sorted : Sorted dirty) (pgno : Nat) :
    Cut dirty pgno (dirtySlot dirty pgno) := by
  apply searchDirty_spec sorted (Nat.le_of_eq (Nat.sub_zero _)) (Nat.zero_le _) (Nat.le_refl _)
  · intro r mem
    cases mem
  · intro r mem
    rw [List.drop_length] at mem
    cases mem

/-- What stands before the slot is what is less. -/
theorem take_dirtySlot {dirty : List (Nat × P)} (sorted : Sorted dirty) (pgno : Nat) :
    dirty.take (dirtySlot dirty pgno) = dirty.filter fun r => r.1 < pgno := by
  obtain ⟨-, before, after⟩ := cut_dirtySlot sorted pgno
  have front : (dirty.take (dirtySlot dirty pgno)).filter (fun r => r.1 < pgno) =
      dirty.take (dirtySlot dirty pgno) := List.filter_eq_self.mpr fun r mem => decide_eq_true (before r mem)
  have back : (dirty.drop (dirtySlot dirty pgno)).filter (fun r => r.1 < pgno) = [] := by
    apply List.filter_eq_nil_iff.mpr
    intro r mem less
    exact absurd (of_decide_eq_true less) (Nat.not_lt.mpr (after r mem))
  conv_rhs => rw [← List.take_append_drop (dirtySlot dirty pgno) dirty, List.filter_append, front, back]
  rw [List.append_nil]

/-- What stands from the slot on is what is not less. -/
theorem drop_dirtySlot {dirty : List (Nat × P)} (sorted : Sorted dirty) (pgno : Nat) :
    dirty.drop (dirtySlot dirty pgno) = dirty.filter fun r => pgno ≤ r.1 := by
  obtain ⟨-, before, after⟩ := cut_dirtySlot sorted pgno
  have back : (dirty.drop (dirtySlot dirty pgno)).filter (fun r => pgno ≤ r.1) =
      dirty.drop (dirtySlot dirty pgno) := List.filter_eq_self.mpr fun r mem => decide_eq_true (after r mem)
  have front : (dirty.take (dirtySlot dirty pgno)).filter (fun r => pgno ≤ r.1) = [] := by
    apply List.filter_eq_nil_iff.mpr
    intro r mem above
    exact absurd (before r mem) (Nat.not_lt.mpr (of_decide_eq_true above))
  conv_rhs => rw [← List.take_append_drop (dirtySlot dirty pgno) dirty, List.filter_append, front, back]
  rw [List.nil_append]

/-- The search for a page finds it where it is. -/
theorem findDirty_eq {dirty : List (Nat × P)} (sorted : Sorted dirty) (pgno : Nat) :
    findDirty dirty pgno = rowOf dirty pgno := by
  have back := drop_dirtySlot sorted pgno
  rw [findDirty, ← List.head?_drop, back]
  cases found : rowOf dirty pgno with
  | some page =>
      have mem := sorted.rowOf_eq_some.mp found
      have first : (dirty.filter fun r => pgno ≤ r.1).head? = some (pgno, page) := by
        have kept : (pgno, page) ∈ dirty.filter fun r => pgno ≤ r.1 := by
          apply List.mem_filter.mpr
          exact ⟨mem, decide_eq_true (Nat.le_refl _)⟩
        have order : Sorted (dirty.filter fun r => pgno ≤ r.1) := sorted.filter _
        cases rest : dirty.filter fun r => pgno ≤ r.1 with
        | nil =>
            rw [rest] at kept
            cases kept
        | cons r later =>
            rw [rest] at kept order
            rcases List.mem_cons.mp kept with here | behind
            · rw [List.head?_cons, here]
            · have less := (List.pairwise_cons.mp order).1 _ behind
              have least : pgno ≤ r.1 := by
                have r_mem : r ∈ dirty.filter fun r => pgno ≤ r.1 := by
                  rw [rest]
                  exact List.mem_cons_self ..
                exact of_decide_eq_true (List.mem_filter.mp r_mem).2
              exact absurd less (Nat.not_lt.mpr least)
      rw [first]
      simp
  | none =>
      have none := rowOf_eq_none.mp found
      cases first : (dirty.filter fun r => pgno ≤ r.1).head? with
      | none => rfl
      | some r =>
          have mem := (List.mem_filter.mp (List.mem_of_mem_head? first)).1
          simp [none r mem]

/-- A page that is not there yet goes where the order wants it. -/
theorem insertDirty_eq {dirty : List (Nat × P)} (sorted : Sorted dirty) {pgno : Nat} (page : P)
    (new : rowOf dirty pgno = none) :
    insertDirty dirty pgno page = (sorted.table.set pgno page).rows := by
  have strict : (dirty.filter fun r => pgno ≤ r.1) = dirty.filter fun r => pgno < r.1 := by
    apply List.filter_congr
    intro r mem
    have other := rowOf_eq_none.mp new r mem
    rw [decide_eq_decide]
    omega
  rw [insertDirty, take_dirtySlot sorted, drop_dirtySlot sorted, strict]
  rfl

theorem sorted_insertDirty {dirty : List (Nat × P)} (sorted : Sorted dirty) {pgno : Nat} (page : P)
    (new : rowOf dirty pgno = none) : Sorted (insertDirty dirty pgno page) := by
  rw [insertDirty_eq sorted page new]
  exact (sorted.table.set pgno page).sorted

theorem rowOf_insertDirty {dirty : List (Nat × P)} (sorted : Sorted dirty) {pgno : Nat} (page : P)
    (new : rowOf dirty pgno = none) (p : Nat) :
    rowOf (insertDirty dirty pgno page) p = if p = pgno then some page else rowOf dirty p := by
  rw [insertDirty_eq sorted page new]
  exact Table.get_set sorted.table pgno page p

/-- What is cut off from a page on. -/
theorem rowOf_take_dirtySlot {dirty : List (Nat × P)} (sorted : Sorted dirty) (pgno p : Nat) :
    rowOf (dirty.take (dirtySlot dirty pgno)) p = if p < pgno then rowOf dirty p else none := by
  have kept : Sorted (dirty.filter fun r => r.1 < pgno) := sorted.filter _
  rw [take_dirtySlot sorted]
  ext a
  rw [kept.rowOf_eq_some, List.mem_filter]
  split
  · rename_i below
    rw [sorted.rowOf_eq_some]
    simp [below]
  · rename_i above
    simp [above]

/-- Changing what a page holds keeps the order. -/
theorem sorted_map {dirty : List (Nat × P)} (sorted : Sorted dirty) {f : Nat × P → Nat × P}
    (same : ∀ r, (f r).1 = r.1) : Sorted (dirty.map f) := by
  apply List.pairwise_map.mpr
  apply List.Pairwise.imp _ sorted
  intro a b less
  rw [same, same]
  exact less

end GyreWard.Fdb
