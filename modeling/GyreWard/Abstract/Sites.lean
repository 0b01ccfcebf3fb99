/-
Module: GyreWard.Abstract.Sites
Purpose: What is built in an account book: it stands from then on, and what stands cost what was
  spent.
Trusted boundary: the abstract statement of the component's purpose; the faithful model refines it
Main exports: costOf, Till.Stands, Till.Sited, Till.Sited.build, Till.Steps.sited
-/
import GyreWard.Abstract.Till

namespace GyreWard

/-- What venue `j` costs. -/
def costOf (j : Nat) : Int := (venues[j]?.map (·.cost)).getD 0

/-- A sum changes by what one of its terms changes. -/
theorem sum_map_change {α : Type} (f f' : α → Int) {a : α} {items : List α} (once : items.Nodup)
    (there : a ∈ items) (same : ∀ b ∈ items, b ≠ a → f' b = f b) :
    (items.map f').sum + f a = (items.map f).sum + f' a := by
  induction items with
  | nil => cases there
  | cons b rest ih =>
      have ⟨fresh, once⟩ := List.nodup_cons.mp once
      simp only [List.map_cons, List.sum_cons]
      rcases List.mem_cons.mp there with here | later
      · have others : rest.map f' = rest.map f := by
          apply List.map_congr_left
          intro c mem
          apply same c (List.mem_cons_of_mem _ mem)
          intro equal
          exact fresh (here ▸ equal ▸ mem)
        rw [others, here]
        omega
      · have balance := ih once later fun c mem => same c (List.mem_cons_of_mem _ mem)
        have head : f' b = f b := by
          apply same b (List.mem_cons_self ..)
          intro equal
          exact fresh (equal ▸ later)
        omega

namespace Till

/-- Venue `i` stands in the book. -/
def Stands (i : Int) (b : Till) : Prop := b.built i ≠ some 0

/-- What stands in the book cost what the ward spent. -/
structure Sited (b : Till) : Prop where
  begun : 0 ≤ b.cycle
  spent : b.spent =
    ((List.range nVenues).map fun (j : Nat) => if b.built j = some 0 then 0 else costOf j).sum

section Building

variable {b : Till} {i : Int} {cost : Int}

/-- A venue that is built is marked with the cycle, and no other venue changes. -/
theorem built_build (j : Int) :
    (b.build i cost).built j = if j = i then (b.built i).map fun _ => b.cycle else b.built j := by
  change ((b.venues.map fun v => if v.1 = i then (v.1, b.cycle) else v).find?
    fun v => v.1 == j).map (·.2) = _
  have looks : ((fun v : Int × Int => v.1 == j) ∘ fun v => if v.1 = i then (v.1, b.cycle) else v) =
      fun v => v.1 == j := by
    funext v
    rw [Function.comp_apply]
    split <;> rfl
  rw [List.find?_map, looks, Option.map_map]
  cases found : b.venues.find? fun v => v.1 == j with
  | none =>
      split
      · rename_i same
        rw [built, ← same, found]
        rfl
      · rw [built, found]
        rfl
  | some v =>
      have number : v.1 = j := by
        have asked := List.find?_some found
        exact eq_of_beq asked
      split
      · rename_i same
        rw [built, ← same, found]
        simp [number, same]
      · rename_i other
        rw [built, found]
        simp [number, other]

/-- A venue that is built once the ward has counted a cycle stands. -/
theorem stands_build {v : Venue} (can : b.CanBuild i v) (begun : 0 < b.cycle) :
    (b.build i v.cost).Stands i := by
  rw [Stands, built_build, if_pos rfl, can.unbuilt]
  intro zero
  have cycle : b.cycle = 0 := Option.some.inj zero
  omega

theorem Stands.build (stands : b.Stands i) {j : Int} {v : Venue} (can : b.CanBuild j v) :
    (b.build j v.cost).Stands i := by
  have other : i ≠ j := fun same => stands (same ▸ can.unbuilt)
  rw [Stands, built_build, if_neg other]
  exact stands

/-- What is built once the ward has counted a cycle is counted in what it spent. -/
theorem Sited.build (sited : b.Sited) {v : Venue} (can : b.CanBuild i v) (begun : 0 < b.cycle) :
    (b.build i v.cost).Sited where
  begun := sited.begun
  spent := by
    have number : ((i.toNat : Nat) : Int) = i := Int.toNat_of_nonneg can.lower
    have place : i.toNat ∈ List.range nVenues := by
      rw [List.mem_range]
      exact (List.getElem?_eq_some_iff.mp can.listed).1
    have price : costOf i.toNat = v.cost := by
      rw [costOf, can.listed]
      rfl
    have others : ∀ j ∈ List.range nVenues, j ≠ i.toNat →
        (if (b.build i v.cost).built j = some 0 then 0 else costOf j) =
          if b.built j = some 0 then 0 else costOf j := by
      intro j _ other
      have elsewhere : (j : Int) ≠ i := by omega
      rw [built_build, if_neg elsewhere]
    have change := sum_map_change (fun j : Nat => if b.built j = some 0 then 0 else costOf j)
      (fun j : Nat => if (b.build i v.cost).built j = some 0 then 0 else costOf j)
      List.nodup_range place others
    have after : (b.build i v.cost).built i ≠ some 0 := stands_build can begun
    simp only [number, can.unbuilt, if_neg after, price, if_true] at change
    have spent := sited.spent
    change b.spent + v.cost = _
    omega

end Building

theorem sited_fresh (n : Nat) : (fresh n).Sited := ⟨Int.le_refl 0, rfl⟩

/-- One move of a book that has counted a cycle. -/
theorem Step.sited {b b' : Till} (step : Step b b') (begun : 0 < b.cycle) (sited : b.Sited) :
    0 < b'.cycle ∧ b'.Sited ∧ ∀ i, b.Stands i → b'.Stands i := by
  cases step with
  | count =>
      have later : 0 < b.cycle + 1 := by omega
      exact ⟨later, ⟨Int.le_of_lt later, sited.spent⟩, fun _ stands => stands⟩
  | build can => exact ⟨begun, sited.build can begun, fun _ stands => stands.build can⟩
  | post fair => exact ⟨begun, ⟨sited.begun, sited.spent⟩, fun _ stands => stands⟩
  | pay there something reached =>
      exact ⟨begun, ⟨sited.begun, sited.spent⟩, fun _ stands => stands⟩
  | keep there fair => exact ⟨begun, ⟨sited.begun, sited.spent⟩, fun _ stands => stands⟩
  | clock =>
      unfold Till.clock
      split
      · exact ⟨begun, ⟨sited.begun, sited.spent⟩, fun _ stands => stands⟩
      · exact ⟨begun, ⟨sited.begun, sited.spent⟩, fun _ stands => stands⟩
  | publish => exact ⟨begun, ⟨sited.begun, sited.spent⟩, fun _ stands => stands⟩
  | arrive => exact ⟨begun, ⟨sited.begun, sited.spent⟩, fun _ stands => stands⟩

/-- However a book moves once it has counted a cycle, what was built stands, and what stands cost
what was spent. -/
theorem Steps.sited {b b' : Till} (steps : Steps b b') (begun : 0 < b.cycle) (sited : b.Sited) :
    0 < b'.cycle ∧ b'.Sited ∧ ∀ i, b.Stands i → b'.Stands i := by
  induction steps with
  | refl => exact ⟨begun, sited, fun _ stands => stands⟩
  | tail _ step ih =>
      have ⟨begun, sited, stood⟩ := ih
      have ⟨later, sited', stands⟩ := step.sited begun sited
      exact ⟨later, sited', fun i before => stands i (stood i before)⟩

end Till

end GyreWard
