/-
Module: GyreWard.Lib.Foremost
Purpose: The first of the best of a list, and the scan that finds it by keeping the best so far.
Trusted boundary: none
Main exports: Foremost, Foremost.mem, Foremost.le, Foremost.earlier, Foremost.unique, Foremost.of_best,
  scanBest, scanBest_foremost
-/
import Mathlib.Order.Lattice

namespace Lib

variable {α β κ : Type} [LinearOrder β]

/-- `a` scores best of the list, and stands before all others that do. -/
inductive Foremost (score : α → β) (a : α) : List α → Prop where
  | here {rest : List α} (best : ∀ b ∈ rest, score b ≤ score a) : Foremost score a (a :: rest)
  | later {b : α} {rest : List α} (less : score b < score a) (first : Foremost score a rest) :
      Foremost score a (b :: rest)

namespace Foremost

variable {score : α → β} {a : α} {items : List α}

theorem mem (foremost : Foremost score a items) : a ∈ items := by
  induction foremost with
  | here _ => exact List.mem_cons_self
  | later _ _ ih => exact List.mem_cons_of_mem _ ih

theorem le (foremost : Foremost score a items) : ∀ b ∈ items, score b ≤ score a := by
  induction foremost with
  | here best =>
      intro b mem
      rcases List.mem_cons.mp mem with same | after
      · rw [same]
      · exact best b after
  | later less _ ih =>
      intro b mem
      rcases List.mem_cons.mp mem with same | after
      · rw [same]
        exact le_of_lt less
      · exact ih b after

/-- In a list in the order of its keys, whoever scores as well has a key that is no smaller. -/
theorem earlier [Preorder κ] {key : α → κ} (foremost : Foremost score a items)
    (sorted : (items.map key).Pairwise (· < ·)) :
    ∀ b ∈ items, score b = score a → key a ≤ key b := by
  induction foremost with
  | here _ =>
      intro b mem _
      rcases List.mem_cons.mp mem with same | after
      · rw [same]
      · exact le_of_lt (List.rel_of_pairwise_cons sorted (List.mem_map_of_mem after))
  | later less _ ih =>
      intro b mem level
      rcases List.mem_cons.mp mem with same | after
      · rw [← same, level] at less
        exact absurd less (lt_irrefl _)
      · exact ih (List.Pairwise.of_cons sorted) b after level

/-- There is one foremost. -/
theorem unique {b : α} (foremost : Foremost score a items) (other : Foremost score b items) : a = b := by
  induction foremost with
  | here best =>
      cases other with
      | here _ => rfl
      | later less first => exact absurd less (not_lt_of_ge (best b first.mem))
  | later less first ih =>
      cases other with
      | here best => exact absurd less (not_lt_of_ge (best a first.mem))
      | later _ first' => exact ih first'

/-- In a list in the order of its keys, whoever scores best and has the least key of those that do is the
foremost. -/
theorem of_best [Preorder κ] {key : α → κ} (mem : a ∈ items) (sorted : (items.map key).Pairwise (· < ·))
    (best : ∀ b ∈ items, score b < score a ∨ score b = score a ∧ key a ≤ key b) :
    Foremost score a items := by
  induction items with
  | nil => exact absurd mem List.not_mem_nil
  | cons b rest ih =>
      rcases List.mem_cons.mp mem with same | after
      · rw [same]
        apply here
        intro c there
        rcases best c (List.mem_cons_of_mem _ there) with less | level
        · exact same ▸ le_of_lt less
        · exact same ▸ le_of_eq level.1
      · have before : key b < key a := List.rel_of_pairwise_cons sorted (List.mem_map_of_mem after)
        apply later
        · rcases best b List.mem_cons_self with less | level
          · exact less
          · exact absurd level.2 (not_le_of_gt before)
        · exact ih after (List.Pairwise.of_cons sorted) fun c there =>
            best c (List.mem_cons_of_mem _ there)

end Foremost

/-- The scan: the key and the score of the best so far, and whoever scores more takes their place. -/
def scanBest (score : α → β) (key : α → κ) (items : List α) (best : κ × β) : κ × β :=
  items.foldl (fun best a => if best.2 < score a then (key a, score a) else best) best

/-- The scan ends where it began when nobody scores more, and at the foremost otherwise. -/
theorem scanBest_foremost (score : α → β) (key : α → κ) (items : List α) (best : κ × β) :
    (scanBest score key items best = best ∧ ∀ a ∈ items, score a ≤ best.2) ∨
      ∃ a, Foremost score a items ∧ best.2 < score a ∧
        scanBest score key items best = (key a, score a) := by
  induction items generalizing best with
  | nil => exact .inl ⟨rfl, fun a mem => absurd mem List.not_mem_nil⟩
  | cons b rest ih =>
      have step : scanBest score key (b :: rest) best =
          scanBest score key rest (if best.2 < score b then (key b, score b) else best) := rfl
      rw [step]
      by_cases more : best.2 < score b
      · rw [if_pos more]
        rcases ih (key b, score b) with ⟨same, least⟩ | ⟨a, foremost, better, found⟩
        · exact .inr ⟨b, .here least, more, same⟩
        · exact .inr ⟨a, .later better foremost, lt_trans more better, found⟩
      · rw [if_neg more]
        rcases ih best with ⟨same, least⟩ | ⟨a, foremost, better, found⟩
        · refine .inl ⟨same, ?_⟩
          intro a mem
          rcases List.mem_cons.mp mem with first | after
          · rw [first]
            exact not_lt.mp more
          · exact least a after
        · exact .inr ⟨a, .later (lt_of_le_of_lt (not_lt.mp more) better) foremost, better, found⟩

end Lib
