/-
Module: GyreWard.Proofs.Decision
Purpose: What the Queen's planner never does: look at the clock, or refuse; and when she buys the
  cheaper thing instead of saving.
Trusted boundary: none
Main exports: planner_never_looks_at_the_clock, decisionOrder, Saves, FallsThrough, saves_iff
-/
import GyreWard.Proofs.Plan

namespace GyreWard

open Lib Taskweft

/-! ### The clock -/

/-- A query advances the plane by one operation, whether it is answered or not. -/
theorem scalarOr_after (missing : Int) (query : Gyre → Option Int) (w : World) :
    ∃ v, scalarOr missing query w = (.ret v, w.after 1) := by
  unfold scalarOr
  rw [Action.bind_apply, Action.attempt, fallible_eq]
  cases w.plane.faults w.plane.tick with
  | true => exact ⟨missing, rfl⟩
  | false => exact ⟨_, rfl⟩

theorem viewBuilt_after (venues : List Nat) (w : World) :
    ∃ built, viewBuilt venues w = (.ret built, w.after venues.length) := by
  induction venues generalizing w with
  | nil => exact ⟨[], rfl⟩
  | cons i rest ih =>
      obtain ⟨b, seen⟩ := scalarOr_after (-1) (·.askWard (selectBuilt i)) w
      obtain ⟨built, restSeen⟩ := ih (w.after 1)
      refine ⟨b :: built, ?_⟩
      unfold viewBuilt scalarWard
      rw [Action.bind_ret seen, Action.bind_ret restSeen, World.after_after, Nat.add_comm 1]
      rfl

/-- The view `commission` hands over is taken at the ward's cycle. -/
theorem wardView_after (w : World) :
    ∃ view, wardView w = (.ret view, w.after nVenues) ∧ view.cycle = w.g.cycle := by
  obtain ⟨built, seen⟩ := viewBuilt_after (List.range nVenues) w
  unfold wardView
  rw [Action.bind_ret (Action.read_apply _ _), Action.bind_ret seen]
  exact ⟨_, rfl, rfl⟩

/-- For every view at a cycle from 1 on there is one plan, one memo and a depth below
`TW_MAX_DEPTH` such that the search ends with them whatever the clock says and whatever fuel
there is beyond that depth, in fewer than `TW_BUDGET_SAMPLE_EVERY` ticks and without a look at the
clock; so `queen_plan` answers, always the same, and `commission` returns `-2` only if the planner
itself fails. -/
theorem planner_never_looks_at_the_clock :
    (∀ view : WardView, 1 ≤ view.cycle → ∃ plan memo deep, deep < maxDepth ∧
      memo.budget.tick < sampleEvery ∧ memo.budget.asked = 0 ∧
      (∀ late fuel, deep ≤ fuel →
        seekPlan wardDomain late fuel view [.compound .runTheWard] {} = (some plan, memo)) ∧
      ∀ late, queenPlan late view = some (firstCommission plan)) ∧
    ∀ w : World, 1 ≤ w.g.cycle → w.plane.faults (w.plane.tick + nVenues) = false →
      (commission w).1 ≠ .ret (-2) := by
  constructor
  · intro view named
    obtain ⟨plan, memo, unasked, first, sought⟩ := seek_decides named
    refine ⟨plan, memo, 9, by decide, unasked.time, unasked.asked, sought, fun late => ?_⟩
    rw [queenPlan_eq late named, first]
  · intro w named answered
    obtain ⟨view, seen, cycle⟩ := wardView_after w
    rw [← cycle] at named
    have asked : Action.attempt fallible (w.after nVenues) =
        (.ret (some ()), (w.after nVenues).after 1) := by
      have word : (w.after nVenues).plane.faults (w.after nVenues).plane.tick = false := answered
      rw [Action.attempt, fallible_eq, word]
      rfl
    unfold commission
    rw [Action.bind_ret seen, Action.bind_ret asked]
    dsimp only
    rw [Action.bind_ret (Action.read_apply _ _), queenPlan_eq _ named]
    dsimp only
    split
    · intro refused
      cases refused
    · rename_i inside
      rw [Action.bind_apply, Action.attempt]
      rcases buildVenue (queensDecision view) _ with ⟨_ | _ | _, w'⟩
      · intro refused
        have same : queensDecision view = -2 := Result.ret.inj refused
        rw [same] at inside
        exact inside (Or.inl (by decide))
      · intro refused
        cases refused
      · intro refused
        cases refused

/-- The Queen's plan at the first cycle of a ward, and what `commission` makes of it. -/
theorem first_cycle_never_looks :
    (∃ plan memo deep, deep < maxDepth ∧ memo.budget.tick < sampleEvery ∧
      memo.budget.asked = 0 ∧
      (∀ late fuel, deep ≤ fuel →
        seekPlan wardDomain late fuel firstCycle.g.view [.compound .runTheWard] {} =
          (some plan, memo)) ∧
      ∀ late, queenPlan late firstCycle.g.view = some (firstCommission plan)) ∧
    (commission firstCycle).1 ≠ .ret (-2) :=
  ⟨planner_never_looks_at_the_clock.1 _ (by decide),
    planner_never_looks_at_the_clock.2 firstCycle (by decide) rfl⟩

/-! ### Saving -/

/-- The order she decides in. -/
def decisionOrder : List PlanVenue := [.rails, .plaza, .den, .tavern, .chapel, .row]

/-- One venue comes before another in the order she decides in. -/
def Precedes (u v : PlanVenue) : Prop := decisionOrder.idxOf u < decisionOrder.idxOf v

instance (u v : PlanVenue) : Decidable (Precedes u v) :=
  inferInstanceAs (Decidable (_ < _))

/-- Buying this venue falls through nothing she still wants: all that comes before it stands, but
that a pressing repair may put the Den before the Rails and the Plaza. -/
def Saves (s : WardView) (v : PlanVenue) : Prop :=
  ∀ u, Precedes u v → s.built u ≠ 0 ∨ v = .den ∧ 60 ≤ s.worstWear

/-- The earning venues stand, the Den and the Tavern do not, and the treasury reaches for the Tavern
only. -/
structure FallsThrough (s : WardView) : Prop where
  rails : s.built .rails ≠ 0
  plaza : s.built .plaza ≠ 0
  den : s.built .den = 0
  tavern : s.built .tavern = 0
  reaches : 120 + s.reserve ≤ s.treasury
  short : s.treasury < 200 + s.reserve

theorem index_inj {u v : PlanVenue} (same : (u.index : Int) = v.index) : u = v := by
  cases u <;> cases v <;> first | rfl | exact absurd same (by decide)

/-- Why she buys what she buys for the Sparks. -/
inductive ForSparks (s : WardView) : PlanVenue → Prop where
  | den (can : Can s .den) : ForSparks s .den
  | tavern (noDen : ¬ Can s .den) (can : Can s .tavern) : ForSparks s .tavern
  | chapel (noDen : ¬ Can s .den) (noTavern : ¬ Can s .tavern) (can : Can s .chapel) :
      ForSparks s .chapel
  | row (den : s.built .den ≠ 0) (tavern : s.built .tavern ≠ 0) (chapel : s.built .chapel ≠ 0) :
      ForSparks s .row

theorem forSparks_of_decides {s : WardView} {v : PlanVenue}
    (decides : decideSparks s = v.index) : ForSparks s v := by
  unfold decideSparks at decides
  split at decides
  · obtain rfl : PlanVenue.den = v := index_inj decides
    exact .den ‹_›
  · split at decides
    · obtain rfl : PlanVenue.tavern = v := index_inj decides
      exact .tavern ‹_› ‹_›
    · split at decides
      · obtain rfl : PlanVenue.chapel = v := index_inj decides
        exact .chapel ‹_› ‹_› ‹_›
      · split at decides
        · cases v <;> cases decides
        · rename_i standing
          rw [not_or, not_or] at standing
          unfold decideWord at decides
          split at decides
          · obtain rfl : PlanVenue.row = v := index_inj decides
            exact .row standing.1 standing.2.1 standing.2.2
          · cases v <;> cases decides

/-- Why she buys what she buys. -/
inductive ForWard (s : WardView) : PlanVenue → Prop where
  | repair (pressing : 60 ≤ s.worstWear) : ForWard s .den
  | rails : ForWard s .rails
  | plaza (noRails : ¬ Can s .rails) (can : Can s .plaza) : ForWard s .plaza
  | sparks {v : PlanVenue} (rails : s.built .rails ≠ 0) (plaza : s.built .plaza ≠ 0)
      (forSparks : ForSparks s v) : ForWard s v

theorem forWard_of_decides {s : WardView} {v : PlanVenue}
    (decides : queensDecision s = v.index) : ForWard s v := by
  unfold queensDecision at decides
  split at decides
  · rename_i pressing
    obtain rfl : PlanVenue.den = v := index_inj decides
    exact .repair pressing.1
  · unfold decideEarning at decides
    split at decides
    · obtain rfl : PlanVenue.rails = v := index_inj decides
      exact .rails
    · split at decides
      · obtain rfl : PlanVenue.plaza = v := index_inj decides
        exact .plaza ‹_› ‹_›
      · split at decides
        · cases v <;> cases decides
        · rename_i standing
          rw [not_or] at standing
          exact .sparks standing.1 standing.2 (forSparks_of_decides decides)

/-- A venue she could pay for and cannot have stands. -/
theorem built_of_cannot {s : WardView} {v : PlanVenue} (cannot : ¬ Can s v)
    (reaches : s.cost v + s.reserve ≤ s.treasury) : s.built v ≠ 0 :=
  fun unbuilt => cannot ⟨unbuilt, reaches⟩

theorem precedes_rails : ∀ u, ¬ Precedes u .rails := by decide

theorem precedes_plaza : ∀ u, Precedes u .plaza → u = .rails := by decide

theorem precedes_den : ∀ u, Precedes u .den → u = .rails ∨ u = .plaza := by decide

theorem precedes_tavern : ∀ u, Precedes u .tavern → u = .rails ∨ u = .plaza ∨ u = .den := by decide

theorem precedes_chapel : ∀ u, Precedes u .chapel →
    u = .rails ∨ u = .plaza ∨ u = .den ∨ u = .tavern := by decide

theorem precedes_row : ∀ u, Precedes u .row →
    u = .rails ∨ u = .plaza ∨ u = .den ∨ u = .tavern ∨ u = .chapel := by decide

/-- At `VENUES`' costs she saves exactly unless the earning venues stand, neither the Den nor the
Tavern does, and the treasury reaches for the Tavern only. -/
theorem saves_iff (late : Nat → Bool) (s : WardView) (named : 1 ≤ s.cycle)
    (costs : ∀ v, s.cost v = (venues[v.index]?.map (·.cost)).getD 0) :
    (∀ v, queenPlan late s = some (PlanVenue.index v : Int) → Saves s v) ↔ ¬ FallsThrough s := by
  have rails : s.cost .rails = 260 := costs .rails
  have plaza : s.cost .plaza = 340 := costs .plaza
  have den : s.cost .den = 200 := costs .den
  have tavern : s.cost .tavern = 120 := costs .tavern
  have chapel : s.cost .chapel = 420 := costs .chapel
  rw [queenPlan_eq late named]
  constructor
  · intro saves falls
    have noRails : ¬ Can s .rails := fun can => falls.rails can.1
    have noPlaza : ¬ Can s .plaza := fun can => falls.plaza can.1
    have noDen : ¬ Can s .den := fun can => by
      have := can.2
      have := falls.short
      omega
    have canTavern : Can s .tavern := ⟨falls.tavern, by rw [tavern]; exact falls.reaches⟩
    have standing : ¬ (s.built .rails = 0 ∨ s.built .plaza = 0) :=
      not_or.mpr ⟨falls.rails, falls.plaza⟩
    have bought : queensDecision s = PlanVenue.tavern.index := by
      simp [queensDecision, decideEarning, decideSparks, noRails, noPlaza, noDen, canTavern,
        standing, PlanVenue.index]
    rcases saves .tavern (congrArg some bought) .den (by decide) with stands | ⟨other, -⟩
    · exact stands falls.den
    · cases other
  · intro noFall v planned u before
    have decides : queensDecision s = v.index := Option.some.inj planned
    cases forWard_of_decides decides with
    | repair pressing => exact Or.inr ⟨rfl, pressing⟩
    | rails => exact absurd before (precedes_rails u)
    | plaza noRails can =>
        obtain rfl := precedes_plaza u before
        have reaches := can.2
        exact Or.inl (built_of_cannot noRails (by omega))
    | sparks railsStand plazaStands forSparks =>
        left
        cases forSparks with
        | den can =>
            rcases precedes_den u before with rfl | rfl
            · exact railsStand
            · exact plazaStands
        | tavern noDen can =>
            rcases precedes_tavern u before with rfl | rfl | rfl
            · exact railsStand
            · exact plazaStands
            · intro unbuilt
              have short : s.treasury < 200 + s.reserve := by
                rw [← den]
                exact Int.not_le.mp fun reaches => noDen ⟨unbuilt, reaches⟩
              have reaches : 120 + s.reserve ≤ s.treasury := by
                rw [← tavern]
                exact can.2
              exact noFall ⟨railsStand, plazaStands, unbuilt, can.1, reaches, short⟩
        | chapel noDen noTavern can =>
            have reaches := can.2
            rcases precedes_chapel u before with rfl | rfl | rfl | rfl
            · exact railsStand
            · exact plazaStands
            · exact built_of_cannot noDen (by omega)
            · exact built_of_cannot noTavern (by omega)
        | row denStands tavernStands chapelStands =>
            rcases precedes_row u before with rfl | rfl | rfl | rfl | rfl
            · exact railsStand
            · exact plazaStands
            · exact denStands
            · exact tavernStands
            · exact chapelStands

theorem first_cycle_saves :
    (∀ v, queenPlan (fun _ => false) firstCycle.g.view = some (PlanVenue.index v : Int) →
      Saves firstCycle.g.view v) ↔ ¬ FallsThrough firstCycle.g.view :=
  saves_iff _ _ (by decide) fun _ => rfl

/-- A ward with its Rails and its Plaza, nobody to hold a reserve for, and 150 in the treasury. -/
def betweenTavernAndDen : WardView :=
  { firstCycle.g.view with
    cycle := 9, treasury := 150
    built := fun v => if v = .rails then 3 else if v = .plaza then 6 else 0 }

/-- She is 50 short of the Den, and buys the Tavern. -/
theorem between_tavern_and_den_falls_through :
    ¬ ∀ (late : Nat → Bool) (s : WardView), 1 ≤ s.cycle →
      (∀ v, s.cost v = (venues[v.index]?.map (·.cost)).getD 0) →
      ∀ v, queenPlan late s = some (PlanVenue.index v : Int) → Saves s v := by
  intro claim
  have bought : queenPlan (fun _ => false) betweenTavernAndDen =
      some (PlanVenue.tavern.index : Int) :=
    (queenPlan_eq _ (by decide)).trans (by decide)
  rcases claim _ betweenTavernAndDen (by decide) (fun _ => rfl) .tavern bought .den (by decide) with
    stands | ⟨other, -⟩
  · exact stands rfl
  · cases other

end GyreWard
