/-
Module: GyreWard.Lib.Ranges
Purpose: Ranges of texts in their order: those under a common beginning, and the range that is all of a beginning.
Trusted boundary: none
Main exports: append_lt_append_left_iff, append_le_append_left_iff, beginning_of_range, range_after_iff,
  word_le_append_iff, ended_prefix_iff
-/
import GyreWard.Lib.Numerals

namespace Lib

variable {α : Type} [LT α]

theorem lt_append_of_lt {a b : List α} (before : a < b) (alike : a.length = b.length) (s : List α) :
    a < b ++ s := by
  have widened := append_lt_append before alike [] s
  rwa [List.append_nil] at widened

section Order

variable [Std.Irrefl (· < · : α → α → Prop)]

theorem append_lt_append_left_iff (p : List α) {a b : List α} : p ++ a < p ++ b ↔ a < b := by
  induction p with
  | nil => exact Iff.rfl
  | cons c p ih => rw [List.cons_append, List.cons_append, List.cons_lt_cons_self, ih]

theorem append_le_append_left_iff (p : List α) {a b : List α} : p ++ a ≤ p ++ b ↔ a ≤ b :=
  not_congr (append_lt_append_left_iff p)

theorem le_append (p s : List α) : p ≤ p ++ s := by
  have empty : p ++ [] ≤ p ++ s := (append_le_append_left_iff p).mpr (List.nil_le s)
  rwa [List.append_nil] at empty

variable [Std.Asymm (· < · : α → α → Prop)] [Std.Trichotomous (· < · : α → α → Prop)]

/-- What lies between two texts begins as both do. -/
theorem beginning_of_range {p a b k : List α} (above : p ++ a ≤ k) (below : k < p ++ b) : p <+: k := by
  induction p generalizing k with
  | nil => exact List.nil_prefix
  | cons c p ih =>
      cases k with
      | nil => exact absurd (List.nil_lt_cons _ _) above
      | cons d k =>
          rw [List.cons_append, List.cons_le_cons_iff] at above
          rw [List.cons_append, List.cons_lt_cons_iff] at below
          rcases above with up | ⟨rfl, above⟩
          · rcases below with down | ⟨rfl, -⟩
            · exact absurd down (Std.Asymm.asymm _ _ up)
            · exact absurd up (Std.Irrefl.irrefl _)
          · rcases below with down | ⟨-, below⟩
            · exact absurd down (Std.Irrefl.irrefl _)
            · exact List.cons_prefix_cons.mpr ⟨rfl, ih above below⟩

omit [Std.Irrefl (· < · : α → α → Prop)] in
/-- Nothing with other letters comes after the largest ones. -/
theorem beginning_of_top {tops k : List α} (top : ∀ t ∈ tops, ∀ c, ¬ t < c) (above : tops ≤ k) :
    tops <+: k := by
  induction tops generalizing k with
  | nil => exact List.nil_prefix
  | cons t tops ih =>
      cases k with
      | nil => exact absurd (List.nil_lt_cons _ _) above
      | cons c k =>
          rw [List.cons_le_cons_iff] at above
          rcases above with up | ⟨rfl, above⟩
          · exact absurd up (top t (List.mem_cons_self ..) c)
          · exact List.cons_prefix_cons.mpr
              ⟨rfl, ih (fun t mem => top t (List.mem_cons_of_mem _ mem)) above⟩

/-- Raise the last letter that can be raised and drop the largest ones behind it: the texts from the old one to
the new one are those that begin with the old one. -/
theorem range_after_iff {front tops k : List α} {last next : α} (top : ∀ t ∈ tops, ∀ c, ¬ t < c)
    (raised : ∀ c, c < next ↔ ¬ last < c) :
    (front ++ last :: tops ≤ k ∧ k < front ++ [next]) ↔ front ++ last :: tops <+: k := by
  constructor
  · rintro ⟨above, below⟩
    obtain ⟨rest, rfl⟩ := beginning_of_range above below
    rw [append_le_append_left_iff] at above
    rw [append_lt_append_left_iff] at below
    apply (List.prefix_append_right_inj _).mpr
    cases rest with
    | nil => exact absurd (List.nil_lt_cons _ _) above
    | cons c rest =>
        rw [List.cons_le_cons_iff] at above
        rw [List.cons_lt_cons_iff] at below
        have less : c < next := by
          rcases below with less | ⟨-, none⟩
          · exact less
          · exact absurd none (List.not_lt_nil _)
        rcases above with up | ⟨rfl, above⟩
        · exact absurd up ((raised c).mp less)
        · exact List.cons_prefix_cons.mpr ⟨rfl, beginning_of_top top above⟩
  · rintro ⟨rest, rfl⟩
    refine ⟨le_append _ rest, ?_⟩
    rw [List.append_assoc, append_lt_append_left_iff, List.cons_append, List.cons_lt_cons_iff]
    exact Or.inl ((raised last).mpr (Std.Irrefl.irrefl _))

/-! ### Words of one length -/

/-- A word comes no later than another with something behind it if it comes no later than that one. -/
theorem word_le_append_iff {a b : List α} (alike : a.length = b.length) (s : List α) :
    a ≤ b ++ s ↔ a ≤ b := by
  constructor
  · intro above before
    have widened := append_lt_append before alike.symm s []
    rw [List.append_nil] at widened
    exact above widened
  · intro above before
    by_cases same : a = b
    · rw [same] at before
      exact le_append b s before
    · apply same
      apply Std.Trichotomous.trichotomous (r := (· < · : List α → List α → Prop)) a b
      · intro less
        exact Std.Asymm.asymm _ _ (lt_append_of_lt less alike s) before
      · exact above

end Order

/-! ### Names with an end -/

omit [LT α] in
/-- Of two names that a mark ends, one begins the other with what is behind it only if they are one. -/
theorem ended_prefix_iff {c : α} {a b x y : List α} (clear : c ∉ a) (clear' : c ∉ b) :
    a ++ c :: x <+: b ++ c :: y ↔ a = b ∧ x <+: y := by
  induction a generalizing b with
  | nil =>
      cases b with
      | nil => simp
      | cons d b =>
          have other : ¬ c = d := fun same => clear' (same ▸ List.mem_cons_self ..)
          simp [other]
  | cons d a ih =>
      cases b with
      | nil =>
          have other : ¬ d = c := fun same => clear (same ▸ List.mem_cons_self ..)
          simp [other]
      | cons e b =>
          have rest := ih (b := b) (fun mem => clear (List.mem_cons_of_mem _ mem))
            (fun mem => clear' (List.mem_cons_of_mem _ mem))
          rw [List.cons_append, List.cons_append, List.cons_prefix_cons, rest, List.cons.injEq, and_assoc]

end Lib
