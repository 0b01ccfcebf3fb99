/-
Module: GyreWard.Lib.Slots
Purpose: A fixed array of slots, each free or holding a value under a key, and the partial map
  from keys to values that it stands for.
Trusted boundary: none
Main exports: Slots, Slots.find, Slots.claim, Slots.change, Slots.release, Slots.Proper,
  Slots.find_claim, Slots.find_change, Slots.find_release
-/
import Mathlib.Data.List.Nodup
import Mathlib.Data.List.Perm.Subperm

namespace Lib

/-- An array of slots; `none` is a free one. -/
abbrev Slots (κ α : Type) := List (Option (κ × α))

namespace Slots

variable {κ α : Type}

/-- `n` free slots. -/
def free (n : Nat) : Slots κ α := List.replicate n none

/-- Is no slot free? -/
def full (t : Slots κ α) : Bool := t.all Option.isSome

/-- Take the first free slot. -/
def claim (k : κ) (a : α) : Slots κ α → Slots κ α
  | [] => []
  | none :: rest => some (k, a) :: rest
  | some used :: rest => some used :: claim k a rest

/-- The keys in use. -/
def keys (t : Slots κ α) : List κ := t.filterMap fun s => s.map (·.1)

/-- No key is in use twice. -/
def Proper (t : Slots κ α) : Prop := (keys t).Nodup

@[simp] theorem keys_nil : keys ([] : Slots κ α) = [] := rfl

@[simp] theorem keys_free_cons (t : Slots κ α) : keys (none :: t) = keys t := rfl

@[simp] theorem keys_used_cons (k : κ) (a : α) (t : Slots κ α) :
    keys (some (k, a) :: t) = k :: keys t := rfl

@[simp] theorem keys_free (n : Nat) : keys (free n : Slots κ α) = [] := by
  induction n with
  | zero => rfl
  | succ n ih =>
      rw [free, List.replicate_succ]
      exact ih

theorem proper_free (n : Nat) : Proper (free n : Slots κ α) := by
  rw [Proper, keys_free]
  exact List.nodup_nil

theorem claim_of_full {k : κ} {a : α} {t : Slots κ α} (taken : full t = true) :
    claim k a t = t := by
  induction t with
  | nil => rfl
  | cons slot rest ih =>
      rcases slot with _ | used
      · simp [full] at taken
      · have takenRest : full rest = true := by simpa [full] using taken
        rw [claim, ih takenRest]

theorem mem_keys_claim {k k' : κ} {a : α} {t : Slots κ α} (used : k' ∈ keys (claim k a t)) :
    k' = k ∨ k' ∈ keys t := by
  induction t with
  | nil => exact Or.inr used
  | cons slot rest ih =>
      rcases slot with _ | ⟨k₀, a₀⟩
      · simpa [claim] using used
      · simp only [claim, keys_used_cons, List.mem_cons] at used ⊢
        rcases used with here | later
        · exact Or.inr (Or.inl here)
        · rcases ih later with new | old
          · exact Or.inl new
          · exact Or.inr (Or.inr old)

@[simp] theorem length_claim (k : κ) (a : α) (t : Slots κ α) :
    (claim k a t).length = t.length := by
  induction t with
  | nil => rfl
  | cons slot rest ih =>
      rcases slot with _ | used
      · rfl
      · simpa [claim] using ih

theorem length_keys_le (t : Slots κ α) : (keys t).length ≤ t.length :=
  List.length_filterMap_le _ t

/-- An array is full when there are as many keys as slots. -/
theorem full_iff {t : Slots κ α} : full t = true ↔ t.length ≤ (keys t).length := by
  induction t with
  | nil => simp [full]
  | cons slot rest ih =>
      rcases slot with _ | ⟨k, a⟩
      · have bound := length_keys_le rest
        simp only [full, List.all_cons, Option.isSome_none, Bool.false_and, Bool.false_eq_true,
          keys_free_cons, List.length_cons, false_iff, Nat.not_le]
        omega
      · have same : full (some (k, a) :: rest) = full rest := by simp [full]
        rw [same, ih]
        simp

/-- Of two arrays of one length, the one with fewer keys fills up last. -/
theorem full_of_subset {t u : Slots κ α} (proper : Proper t) (lengths : t.length = u.length)
    (subset : keys t ⊆ keys u) (taken : full t = true) : full u = true := by
  have few : (keys t).length ≤ (keys u).length := (List.subperm_of_subset proper subset).length_le
  rw [full_iff] at taken ⊢
  omega

variable [DecidableEq κ]

/-- The value under a key: the first slot in use that has it. -/
def find (k : κ) : Slots κ α → Option α
  | [] => none
  | none :: rest => find k rest
  | some (k', a) :: rest => if k' = k then some a else find k rest

/-- Change the first value under a key. -/
def change (k : κ) (f : α → α) : Slots κ α → Slots κ α
  | [] => []
  | none :: rest => none :: change k f rest
  | some (k', a) :: rest =>
      if k' = k then some (k', f a) :: rest else some (k', a) :: change k f rest

/-- Free the first slot with a key. -/
def release (k : κ) : Slots κ α → Slots κ α
  | [] => []
  | none :: rest => none :: release k rest
  | some (k', a) :: rest => if k' = k then none :: rest else some (k', a) :: release k rest

theorem find_eq_none {k : κ} {t : Slots κ α} : find k t = none ↔ k ∉ keys t := by
  induction t with
  | nil => simp [find]
  | cons slot rest ih =>
      rcases slot with _ | ⟨k', a⟩
      · simpa [find] using ih
      · by_cases same : k' = k
        · simp [find, same]
        · simp [find, same, Ne.symm same, ih]

theorem find_free (k : κ) (n : Nat) : find k (free n : Slots κ α) = none :=
  find_eq_none.mpr (by simp)

/-! ### What each operation does to the map -/

theorem find_claim {k : κ} {a : α} {t : Slots κ α} (unused : find k t = none)
    (room : full t = false) (k' : κ) :
    find k' (claim k a t) = if k' = k then some a else find k' t := by
  induction t with
  | nil => simp [full] at room
  | cons slot rest ih =>
      rcases slot with _ | ⟨k₀, a₀⟩
      · by_cases same : k' = k
        · simp [claim, find, same]
        · simp [claim, find, same, Ne.symm same]
      · have differs : k₀ ≠ k := by
          intro same
          simp [find, same] at unused
        have unusedRest : find k rest = none := by simpa [find, differs] using unused
        have roomRest : full rest = false := by simpa [full] using room
        by_cases here : k₀ = k'
        · have other : k' ≠ k := fun same => differs (here.trans same)
          simp [claim, find, here, other]
        · simpa [claim, find, here] using ih unusedRest roomRest

theorem find_change (k : κ) (f : α → α) (t : Slots κ α) (k' : κ) :
    find k' (change k f t) = if k' = k then (find k t).map f else find k' t := by
  induction t with
  | nil => simp [change, find]
  | cons slot rest ih =>
      rcases slot with _ | ⟨k₀, a₀⟩
      · simpa [change, find] using ih
      · by_cases here : k₀ = k
        · by_cases same : k' = k
          · simp [change, find, here, same]
          · simp [change, find, here, same, Ne.symm same]
        · by_cases same : k' = k
          · subst same
            simpa [change, find, here] using ih
          · by_cases other : k₀ = k'
            · simp [change, find, other, same]
            · simpa [change, find, here, other, same] using ih

theorem keys_change (k : κ) (f : α → α) (t : Slots κ α) : keys (change k f t) = keys t := by
  induction t with
  | nil => rfl
  | cons slot rest ih =>
      rcases slot with _ | ⟨k₀, a₀⟩
      · simpa [change] using ih
      · by_cases here : k₀ = k
        · simp [change, here]
        · simpa [change, here] using ih

@[simp] theorem length_change (k : κ) (f : α → α) (t : Slots κ α) :
    (change k f t).length = t.length := by
  induction t with
  | nil => rfl
  | cons slot rest ih =>
      rcases slot with _ | ⟨k₀, a₀⟩
      · simpa [change] using ih
      · by_cases here : k₀ = k
        · simp [change, here]
        · simpa [change, here] using ih

@[simp] theorem length_release (k : κ) (t : Slots κ α) : (release k t).length = t.length := by
  induction t with
  | nil => rfl
  | cons slot rest ih =>
      rcases slot with _ | ⟨k₀, a₀⟩
      · simpa [release] using ih
      · by_cases here : k₀ = k
        · simp [release, here]
        · simpa [release, here] using ih

theorem find_release {k : κ} {t : Slots κ α} (proper : Proper t) (k' : κ) :
    find k' (release k t) = if k' = k then none else find k' t := by
  induction t with
  | nil => simp [release, find]
  | cons slot rest ih =>
      rcases slot with _ | ⟨k₀, a₀⟩
      · simpa [release, find] using ih proper
      · have parts : k₀ ∉ keys rest ∧ (keys rest).Nodup := List.nodup_cons.mp proper
        by_cases here : k₀ = k
        · by_cases same : k' = k
          · have absent : find k rest = none := find_eq_none.mpr (here ▸ parts.1)
            simp [release, find, here, same, absent]
          · simp [release, find, here, same, Ne.symm same]
        · by_cases other : k₀ = k'
          · have differs : k' ≠ k := fun same => here (other.trans same)
            simp [release, find, other, differs]
          · simpa [release, find, here, other] using ih parts.2

theorem keys_release_sublist (k : κ) (t : Slots κ α) : (keys (release k t)).Sublist (keys t) := by
  induction t with
  | nil => exact List.Sublist.refl _
  | cons slot rest ih =>
      rcases slot with _ | ⟨k₀, a₀⟩
      · exact ih
      · by_cases here : k₀ = k
        · simp [release, here]
        · simpa [release, here] using ih

/-! ### No key twice -/

theorem Proper.change {k : κ} {f : α → α} {t : Slots κ α} (proper : Proper t) :
    Proper (change k f t) := by
  rw [Proper, keys_change]
  exact proper

theorem Proper.release {k : κ} {t : Slots κ α} (proper : Proper t) : Proper (release k t) :=
  List.Nodup.sublist (keys_release_sublist k t) proper

theorem Proper.claim {k : κ} {a : α} {t : Slots κ α} (proper : Proper t)
    (unused : find k t = none) : Proper (claim k a t) := by
  induction t with
  | nil => exact proper
  | cons slot rest ih =>
      rcases slot with _ | ⟨k₀, a₀⟩
      · have absent : k ∉ keys rest := find_eq_none.mp unused
        exact List.nodup_cons.mpr ⟨absent, proper⟩
      · have parts : k₀ ∉ keys rest ∧ (keys rest).Nodup := List.nodup_cons.mp proper
        have differs : k₀ ≠ k := by
          intro same
          simp [find, same] at unused
        have unusedRest : find k rest = none := by simpa [find, differs] using unused
        refine List.nodup_cons.mpr ⟨?_, ih parts.2 unusedRest⟩
        intro again
        rcases mem_keys_claim again with same | old
        · exact differs same
        · exact parts.1 old

end Slots

end Lib
