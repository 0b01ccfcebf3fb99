/-
Module: GyreWard.Lib.Table
Purpose: Tables whose rows stand in the order of their keys: one row set, a range read, a range cleared.
Trusted boundary: none
Main exports: Table, Table.get, Table.set, Table.clear, Table.range, Table.get_set, Table.get_clear,
  Table.mem_range, Table.get_of_mem, Table.ext_get, Table.get_setAll, Table.getLast?_range
-/
import Mathlib.Data.List.Sort
import Mathlib.Order.Lattice

namespace Lib

/-- Rows in the order of their keys, one for a key. -/
structure Table (κ α : Type) [LinearOrder κ] where
  rows : List (κ × α)
  sorted : rows.Pairwise fun a b => a.1 < b.1

namespace Table

variable {κ α β : Type} [LinearOrder κ]

instance : EmptyCollection (Table κ α) := ⟨⟨[], .nil⟩⟩

instance : Inhabited (Table κ α) := ⟨∅⟩

/-- The row under a key. -/
def get (t : Table κ α) (k : κ) : Option α := (t.rows.find? fun r => r.1 = k).map (·.2)

/-- The rows whose keys pass, in order. -/
def range (t : Table κ α) (p : κ → Bool) : List (κ × α) := t.rows.filter fun r => p r.1

/-- Without the rows whose keys pass. -/
def clear (t : Table κ α) (p : κ → Bool) : Table κ α where
  rows := t.rows.filter fun r => ¬ p r.1
  sorted := t.sorted.filter _

/-- One row, added or replaced. -/
def set (t : Table κ α) (k : κ) (a : α) : Table κ α where
  rows := t.range (fun j => j < k) ++ (k, a) :: t.range fun j => k < j
  sorted := by
    apply List.pairwise_append.mpr
    refine ⟨t.sorted.filter _, List.pairwise_cons.mpr ⟨?_, t.sorted.filter _⟩, ?_⟩
    · intro r mem
      exact of_decide_eq_true (List.mem_filter.mp mem).2
    · intro r mem r' mem'
      have below : r.1 < k := of_decide_eq_true (List.mem_filter.mp mem).2
      rcases List.mem_cons.mp mem' with rfl | later
      · exact below
      · exact below.trans (of_decide_eq_true (List.mem_filter.mp later).2)

/-! ### One row -/

@[simp] theorem get_empty (k : κ) : (∅ : Table κ α).get k = none := rfl

/-- Two rows under one key are one row. -/
theorem eq_of_mem {t : Table κ α} {k : κ} {a b : α} (first : (k, a) ∈ t.rows)
    (second : (k, b) ∈ t.rows) : a = b := by
  have apart := t.sorted
  generalize t.rows = rows at *
  induction rows with
  | nil => cases first
  | cons r rest ih =>
      obtain ⟨before, apart⟩ := List.pairwise_cons.mp apart
      rcases List.mem_cons.mp first with here | later <;> rcases List.mem_cons.mp second with here' | later'
      · rw [← here] at here'
        exact (Prod.mk.inj here').2.symm
      · rw [← here] at before
        exact absurd (before _ later') (lt_irrefl k)
      · rw [← here'] at before
        exact absurd (before _ later) (lt_irrefl k)
      · exact ih later later' apart

theorem mem_of_get {t : Table κ α} {k : κ} {a : α} (found : t.get k = some a) : (k, a) ∈ t.rows := by
  obtain ⟨r, here, value⟩ := Option.map_eq_some_iff.mp found
  have key := List.find?_some here
  rw [← of_decide_eq_true key, ← value]
  exact List.mem_of_find?_eq_some here

theorem get_of_mem {t : Table κ α} {k : κ} {a : α} (mem : (k, a) ∈ t.rows) : t.get k = some a := by
  cases found : t.get k with
  | some b => rw [eq_of_mem (mem_of_get found) mem]
  | none =>
      have absent := List.find?_eq_none.mp (Option.map_eq_none_iff.mp found) _ mem
      exact absurd (decide_eq_true rfl) absent

theorem mem_rows {t : Table κ α} {k : κ} {a : α} : (k, a) ∈ t.rows ↔ t.get k = some a :=
  ⟨get_of_mem, mem_of_get⟩

/-- Two rows that cannot be told apart by their members are one. -/
theorem get_eq_of_mem_iff {t : Table κ α} {k : κ} {o : Option α}
    (same : ∀ a, (k, a) ∈ t.rows ↔ o = some a) : t.get k = o := by
  ext a
  rw [← mem_rows, same]

theorem mem_range {t : Table κ α} {p : κ → Bool} {k : κ} {a : α} :
    (k, a) ∈ t.range p ↔ t.get k = some a ∧ p k = true := by
  unfold range
  rw [List.mem_filter, mem_rows]

theorem get_clear (t : Table κ α) (p : κ → Bool) (k : κ) :
    (t.clear p).get k = if p k then none else t.get k := by
  apply get_eq_of_mem_iff
  intro a
  have kept : (k, a) ∈ (t.clear p).rows ↔ t.get k = some a ∧ ¬ p k = true := by
    change (k, a) ∈ t.rows.filter _ ↔ _
    rw [List.mem_filter, mem_rows, decide_eq_true_eq]
  rw [kept]
  split <;> simp_all

theorem get_set (t : Table κ α) (k : κ) (a : α) (j : κ) :
    (t.set k a).get j = if j = k then some a else t.get j := by
  apply get_eq_of_mem_iff
  intro b
  have member : (j, b) ∈ (t.set k a).rows ↔
      (t.get j = some b ∧ j < k) ∨ (j = k ∧ b = a) ∨ (t.get j = some b ∧ k < j) := by
    change (j, b) ∈ t.range _ ++ (k, a) :: t.range _ ↔ _
    rw [List.mem_append, List.mem_cons, mem_range, mem_range, decide_eq_true_eq, decide_eq_true_eq,
      Prod.mk.injEq]
  rw [member]
  split
  · rename_i here
    subst here
    simp [eq_comm]
  · rename_i other
    rcases lt_or_gt_of_ne other with below | above
    · simp [below, below.not_gt, other]
    · simp [above, above.not_gt, other]

@[simp] theorem get_set_self (t : Table κ α) (k : κ) (a : α) : (t.set k a).get k = some a := by
  rw [get_set, if_pos rfl]

theorem get_set_of_ne (t : Table κ α) {k j : κ} (a : α) (other : j ≠ k) :
    (t.set k a).get j = t.get j := by
  rw [get_set, if_neg other]

/-- Tables with the same rows are one. -/
theorem ext_get {t u : Table κ α} (same : ∀ k, t.get k = u.get k) : t = u := by
  have members : ∀ r, r ∈ t.rows ↔ r ∈ u.rows := by
    rintro ⟨k, a⟩
    rw [mem_rows, mem_rows, same]
  have once : ∀ t : Table κ α, t.rows.Nodup := fun t => t.sorted.imp fun less eq => by
    rw [eq] at less
    exact lt_irrefl _ less
  have perm := (List.perm_ext_iff_of_nodup (once t) (once u)).mpr members
  have rows : t.rows = u.rows := by
    apply perm.eq_of_pairwise _ t.sorted u.sorted
    intro a b _ _ less more
    exact absurd (less.trans more) (lt_irrefl _)
  cases t
  cases u
  cases rows
  rfl

/-! ### Several rows -/

/-- Rows set one after another. -/
def setAll (t : Table κ α) (rows : List (κ × α)) : Table κ α :=
  rows.foldl (fun t r => t.set r.1 r.2) t

/-- Of rows with different keys each is there, and nothing else has changed. -/
theorem get_setAll {rows : List (κ × α)} (apart : rows.Pairwise fun a b => a.1 ≠ b.1) (t : Table κ α)
    (k : κ) :
    (t.setAll rows).get k = ((rows.find? fun r => r.1 = k).map (·.2)).or (t.get k) := by
  induction rows generalizing t with
  | nil => rfl
  | cons r rest ih =>
      obtain ⟨others, apart⟩ := List.pairwise_cons.mp apart
      change ((t.set r.1 r.2).setAll rest).get k = _
      rw [ih apart]
      by_cases here : r.1 = k
      · have none : rest.find? (fun r => r.1 = k) = none := by
          apply List.find?_eq_none.mpr
          intro r' mem same
          exact others r' mem (here.trans (of_decide_eq_true same).symm)
        rw [none, here]
        simp [here]
      · rw [List.find?_cons_of_neg (by simpa using here), get_set_of_ne _ _ (Ne.symm here)]

/-- Rows with different keys are all the rows of the table that is made of them. -/
theorem mem_setAll_empty {rows : List (κ × α)} (apart : rows.Pairwise fun a b => a.1 ≠ b.1) {k : κ} {a : α} :
    (k, a) ∈ ((∅ : Table κ α).setAll rows).rows ↔ (k, a) ∈ rows := by
  rw [mem_rows, get_setAll apart, get_empty, Option.or_none]
  constructor
  · intro found
    obtain ⟨r, here, value⟩ := Option.map_eq_some_iff.mp found
    have key := List.find?_some here
    rw [← of_decide_eq_true key, ← value]
    exact List.mem_of_find?_eq_some here
  · intro mem
    induction rows with
    | nil => cases mem
    | cons r rest ih =>
        rw [List.pairwise_cons] at apart
        rcases List.mem_cons.mp mem with rfl | later
        · simp
        · have other : ¬ r.1 = k := apart.1 _ later
          rw [List.find?_cons_of_neg (by simpa using other)]
          exact ih apart.2 later

/-- Setting rows twice is setting them once. -/
theorem setAll_setAll {rows : List (κ × α)} (apart : rows.Pairwise fun a b => a.1 ≠ b.1)
    (t : Table κ α) : (t.setAll rows).setAll rows = t.setAll rows := by
  apply ext_get
  intro k
  rw [get_setAll apart, get_setAll apart, ← Option.or_assoc, Option.or_self]

/-- Setting one value under many keys. -/
theorem get_setAll_const (keys : List κ) (a : α) (t : Table κ α) (k : κ) :
    (t.setAll (keys.map fun k => (k, a))).get k = if k ∈ keys then some a else t.get k := by
  induction keys generalizing t with
  | nil => simp [setAll]
  | cons key rest ih =>
      change ((t.set key a).setAll (rest.map fun k => (k, a))).get k = _
      rw [ih, get_set]
      by_cases later : k ∈ rest
      · simp [later]
      · by_cases here : k = key <;> simp [later, here]

/-! ### The last row of a range -/

/-- The last row of a range has the largest of its keys. -/
theorem getLast?_range {t : Table κ α} {p : κ → Bool} {k : κ} {a : α}
    (last : (t.range p).getLast? = some (k, a)) :
    t.get k = some a ∧ p k = true ∧ ∀ j b, t.get j = some b → p j = true → j ≤ k := by
  obtain ⟨front, split⟩ := List.getLast?_eq_some_iff.mp last
  have mem : (k, a) ∈ t.range p := by
    rw [split]
    simp
  obtain ⟨there, passes⟩ := mem_range.mp mem
  refine ⟨there, passes, ?_⟩
  intro j b found inside
  have mem' : (j, b) ∈ t.range p := mem_range.mpr ⟨found, inside⟩
  have sorted : (t.range p).Pairwise fun a b => a.1 < b.1 := t.sorted.filter _
  rw [split] at mem' sorted
  rcases List.mem_append.mp mem' with early | same
  · exact le_of_lt ((List.pairwise_append.mp sorted).2.2 _ early _ (List.mem_singleton_self _))
  · exact le_of_eq (Prod.mk.inj (List.mem_singleton.mp same)).1

theorem getLast?_range_none {t : Table κ α} {p : κ → Bool} (empty : (t.range p).getLast? = none) {k : κ}
    (inside : p k = true) : t.get k = none := by
  have nil := List.getLast?_eq_none_iff.mp empty
  cases found : t.get k with
  | none => rfl
  | some a =>
      have mem : (k, a) ∈ t.range p := mem_range.mpr ⟨found, inside⟩
      rw [nil] at mem
      cases mem

/-- What is last in a range is told by the rows. -/
theorem getLast?_range_eq {t : Table κ α} {p : κ → Bool} {k : κ} {a : α} (there : t.get k = some a)
    (inside : p k = true) (largest : ∀ j b, t.get j = some b → p j = true → j ≤ k) :
    (t.range p).getLast? = some (k, a) := by
  cases last : (t.range p).getLast? with
  | none =>
      have gone := getLast?_range_none last inside
      rw [there] at gone
      cases gone
  | some r =>
      obtain ⟨found, passes, top⟩ := getLast?_range (k := r.1) (a := r.2) last
      have same : r.1 = k := le_antisymm (largest _ _ found passes) (top _ _ there inside)
      rw [same, there] at found
      rw [← same, Option.some.inj found]

end Table

end Lib
