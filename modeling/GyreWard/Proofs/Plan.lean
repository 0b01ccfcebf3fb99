/-
Module: GyreWard.Proofs.Plan
Purpose: The Queen's search over the ward's domain is a plain priority rule.
Trusted boundary: none
Main exports: Can, queensDecision, expand_decides, queenPlan_eq, queens_plan_is_her_decision
-/
import GyreWard.Proofs.Building
import GyreWard.Proofs.Search

namespace GyreWard

open Lib Taskweft

/-! ### The rule -/

/-- She can have a venue that does not stand and that leaves the reserve in the treasury. -/
def Can (s : WardView) (v : PlanVenue) : Prop :=
  s.built v = 0 ∧ s.cost v + s.reserve ≤ s.treasury

instance (s : WardView) (v : PlanVenue) : Decidable (Can s v) :=
  inferInstanceAs (Decidable (_ ∧ _))

/-- What she does once the ward earns and its Sparks work. -/
def decideWord (s : WardView) : Int := if 0 < s.roomToGrow ∧ Can s .row then 5 else -1

/-- What she does once the ward earns. -/
def decideSparks (s : WardView) : Int :=
  if Can s .den then 1
  else if Can s .tavern then 0
  else if Can s .chapel then 4
  else if s.built .den = 0 ∨ s.built .tavern = 0 ∨ s.built .chapel = 0 then -1
  else decideWord s

/-- What she does when no repair is pressing. -/
def decideEarning (s : WardView) : Int :=
  if Can s .rails then 2
  else if Can s .plaza then 3
  else if s.built .rails = 0 ∨ s.built .plaza = 0 then -1
  else decideSparks s

/-- The Queen's decision, as a rule. -/
def queensDecision (s : WardView) : Int :=
  if 60 ≤ s.worstWear ∧ Can s .den then 1 else decideEarning s

/-- The rule for each task of the domain. -/
def decisionFor : PlanTask → WardView → Int
  | .runTheWard => queensDecision
  | .makeTheWardEarn => decideEarning
  | .keepTheSparksWorking => decideSparks
  | .letWordGetOut => decideWord

/-! ### The domain -/

theorem wardDomain_total : wardDomain.Total := by
  intro t
  cases t <;> rfl

/-- A commission is refused when she cannot have the venue. -/
theorem actCommission_eq_none {s : WardView} {v : PlanVenue} :
    actCommission v s = none ↔ ¬ Can s v := by
  unfold actCommission Can
  by_cases standing : s.built v = 0
  · by_cases short : s.treasury < s.cost v + s.reserve
    · simp [isBuilt, standing, short]
    · simp [isBuilt, standing, short, Int.not_lt.mp short]
  · simp [isBuilt, standing]

/-- The state after a commission she can have. -/
def commissioned (s : WardView) (v : PlanVenue) : WardView :=
  { s with built := Function.update s.built v s.cycle, treasury := s.treasury - s.cost v }

theorem actCommission_of_can {s : WardView} {v : PlanVenue} (can : Can s v) :
    actCommission v s = some (commissioned s v) := by
  have unbuilt : isBuilt s v = false := by simp [isBuilt, can.1]
  rw [actCommission, unbuilt, if_neg (by simp), if_neg (Int.not_lt.mpr can.2)]
  rfl

/-- `next_of` offers a venue that does not stand. -/
theorem nextOf_eq_some {s : WardView} {t : PlanTask} {v : PlanVenue}
    {tasks : List (Task PlanAct PlanTask)} (offered : nextOf s t v = some tasks) :
    tasks = [.act (.commission v), .compound t] := by
  unfold nextOf at offered
  split at offered
  · cases offered
  · exact (Option.some.inj offered).symm

theorem nextOf_of_can {s : WardView} {v : PlanVenue} (t : PlanTask) (can : Can s v) :
    nextOf s t v = some [.act (.commission v), .compound t] := by
  have unbuilt : isBuilt s v = false := by simp [isBuilt, can.1]
  rw [nextOf, unbuilt]
  rfl

/-- What `next_of` offers fails at once when she cannot have it. -/
theorem nextOf_stuck {s : WardView} {t : PlanTask} {v : PlanVenue}
    {tasks : List (Task PlanAct PlanTask)} (offered : nextOf s t v = some tasks)
    (cannot : ¬ Can s v) : wardDomain.Stuck s tasks :=
  ⟨.commission v, [.compound t], nextOf_eq_some offered, actCommission_eq_none.mpr cannot⟩

theorem not_stuck_of_can {s : WardView} {v : PlanVenue} (rest : List (Task PlanAct PlanTask))
    (can : Can s v) : ¬ wardDomain.Stuck s (.act (.commission v) :: rest) := by
  rintro ⟨a, rest', same, refused⟩
  obtain ⟨rfl, -⟩ : PlanAct.commission v = a ∧ rest = rest' := by simpa using same
  exact actCommission_eq_none.mp refused can

theorem not_stuck_hold {s : WardView} (rest : List (Task PlanAct PlanTask)) :
    ¬ wardDomain.Stuck s (.act .hold :: rest) := by
  rintro ⟨a, rest', same, refused⟩
  obtain ⟨rfl, -⟩ : PlanAct.hold = a ∧ rest = rest' := by simpa using same
  cases refused

theorem not_stuck_compound {s : WardView} {t : PlanTask} :
    ¬ wardDomain.Stuck s [.compound t] := by
  rintro ⟨a, rest, same, -⟩
  simp at same

/-! ### How far a task is from its end -/

/-- One for a venue that does not stand. -/
def gap (s : WardView) (v : PlanVenue) : Nat := if s.built v = 0 then 1 else 0

/-- More than the number of tasks still to be expanded. -/
def rank : PlanTask → WardView → Nat
  | .letWordGetOut, _ => 1
  | .keepTheSparksWorking, s => 2 + gap s .den + gap s .tavern + gap s .chapel
  | .makeTheWardEarn, s => 6 + gap s .rails + gap s .plaza
  | .runTheWard, _ => 9

theorem gap_le (s : WardView) (v : PlanVenue) : gap s v ≤ 1 := by
  unfold gap
  split <;> omega

theorem gap_commissioned (s : WardView) (v v' : PlanVenue) (named : s.cycle ≠ 0) :
    gap (commissioned s v) v' = if v' = v then 0 else gap s v' := by
  unfold gap commissioned
  by_cases same : v' = v
  · subst same
    simp [named]
  · simp [same]

theorem gap_of_can {s : WardView} {v : PlanVenue} (can : Can s v) : gap s v = 1 := by
  simp [gap, can.1]

/-! ### Expanding a task -/

/-- The search finds a plan that starts with this answer. -/
abbrev Answers (deep : Nat)
    (search : (Nat → Bool) → Nat → Option (List PlanAct) × Memo PlanState PlanAct PlanTask)
    (answer : Int) : Prop :=
  Finds deep search fun plan => firstCommission plan = answer

/-- Every task at `s` below this rank has a plan, and it starts as the rule says. -/
def Decides (n : Nat) : Prop :=
  ∀ t s m, rank t s ≤ n → s.cycle ≠ 0 → Calm wardDomain (12 * n) m →
    Answers (n - 1) (fun late fuel => expand wardDomain late fuel s t (wardMethods t) m)
      (decisionFor t s)

variable {n : Nat} {s : WardView}

theorem rank_pos (t : PlanTask) (s : WardView) : 0 < rank t s := by
  cases t <;> simp only [rank] <;> omega

/-- Actions that can be taken, and then a task of a lower rank. -/
theorem seek_branch (acts : List PlanAct) {s' : WardView} {t : PlanTask} (decides : Decides n)
    (few : acts.length ≤ 1) (ran : wardDomain.run acts s = some s') (named : s'.cycle ≠ 0)
    (lower : rank t s' ≤ n) {m} (calm : Calm wardDomain (12 * n + 3) m) :
    Finds n (fun late fuel => seekPlan wardDomain late fuel s (acts.map .act ++ [.compound t]) m)
      fun plan => ∃ rest, plan = acts ++ rest ∧ firstCommission rest = decisionFor t s' := by
  have calm' : Calm wardDomain (acts.length + 12 * n + 2) m := calm.mono (by omega)
  obtain ⟨m₁, calm₁, go⟩ := seekPlan_branch wardDomain_total
    (rfl : wardDomain.methods t = some (wardMethods t)) calm' ran
  obtain ⟨plan, m₂, unasked, first, expanded⟩ := decides t s' m₁ lower named calm₁
  obtain ⟨m₃, budget, sought⟩ := go plan m₂
  refine ⟨acts ++ plan, m₃, ?_, ⟨plan, rfl, first⟩, fun late fuel enough => ?_⟩
  · rw [budget]
    exact unasked
  · have positive := rank_pos t s'
    obtain ⟨fuel, rfl⟩ : ∃ less, fuel = less + 1 := ⟨fuel - 1, by omega⟩
    exact sought late fuel (expanded late fuel (by omega))

/-- A commission she can have, and then the task again. -/
theorem seek_commission {v : PlanVenue} {t : PlanTask} (decides : Decides n)
    (can : Can s v) (named : s.cycle ≠ 0) (lower : rank t (commissioned s v) ≤ n) {m}
    (calm : Calm wardDomain (12 * n + 3) m) :
    Answers n (fun late fuel =>
      seekPlan wardDomain late fuel s [.act (.commission v), .compound t] m) v.index := by
  have ran : wardDomain.run [.commission v] s = some (commissioned s v) := by
    change (actCommission v s).bind _ = _
    rw [actCommission_of_can can]
    rfl
  refine Finds.mono (seek_branch [.commission v] decides (le_refl 1) ran named lower calm) fun plan found => ?_
  obtain ⟨rest, rfl, -⟩ := found
  rfl

/-- A task handed on to another. -/
theorem seek_compound {t : PlanTask} (decides : Decides n) (named : s.cycle ≠ 0)
    (lower : rank t s ≤ n) {m} (calm : Calm wardDomain (12 * n + 3) m) :
    Answers n (fun late fuel => seekPlan wardDomain late fuel s [.compound t] m)
      (decisionFor t s) := by
  have found := seek_branch [] decides (Nat.zero_le 1) rfl named lower calm
  refine Finds.mono found fun plan found => ?_
  obtain ⟨rest, rfl, first⟩ := found
  exact first

/-- Holding, or one last commission, is a plan. -/
theorem seek_act {a : PlanAct} {s' : WardView} (taken : planAct a s = some s') {m}
    (calm : Calm wardDomain (12 * n + 3) m) :
    Answers n (fun late fuel => seekPlan wardDomain late fuel s [.act a] m)
      (firstCommission [a]) := by
  have ran : wardDomain.run [a] s = some s' := by
    change (planAct a s).bind _ = _
    rw [taken]
    rfl
  obtain ⟨m', unasked, sought⟩ := seekPlan_done wardDomain_total
    (calm.mono (by rw [List.length_nil]; omega)) ran
  exact ⟨_, m', unasked, rfl, fun late fuel _ => sought late fuel⟩

/-- The methods of a task before the `i`-th do not apply at `s`, or are refused there at once. -/
def Passed (t : PlanTask) (s : WardView) (i : Nat) : Prop :=
  ∀ j < i, ∀ tasks, (wardMethods t)[j]? >>= (· s) = some tasks → wardDomain.Stuck s tasks

theorem passed_zero (t : PlanTask) (s : WardView) : Passed t s 0 := by
  intro j less
  exact absurd less (Nat.not_lt_zero j)

theorem Passed.succ {t : PlanTask} {i : Nat} (passed : Passed t s i)
    (next : ∀ tasks, (wardMethods t)[i]? >>= (· s) = some tasks → wardDomain.Stuck s tasks) :
    Passed t s (i + 1) := by
  intro j less
  rcases Nat.lt_succ_iff_lt_or_eq.mp less with earlier | rfl
  · exact passed j earlier
  · exact next

/-- The `i`-th method is the first that can be carried through, and the rule agrees with the plan
it leads to. -/
theorem expand_at {t : PlanTask} (i : Nat) {tasks : List (Task PlanAct PlanTask)} {answer : Int}
    (few : i ≤ 4) (passed : Passed t s i) (here : (wardMethods t)[i]? >>= (· s) = some tasks)
    (free : ¬ wardDomain.Stuck s tasks)
    (found : ∀ m, Calm wardDomain (12 * n + 3) m →
      Answers n (fun late fuel => seekPlan wardDomain late fuel s tasks m) answer)
    {m} (calm : Calm wardDomain (12 * (n + 1)) m) :
    Answers n (fun late fuel => expand wardDomain late fuel s t (wardMethods t) m) answer :=
  expand_first wardDomain_total i here free passed found (calm.mono (by omega))

theorem expand_word {m} (calm : Calm wardDomain (12 * (n + 1)) m) :
    Answers n (fun late fuel =>
      expand wardDomain late fuel s .letWordGetOut (wardMethods .letWordGetOut) m)
      (decideWord s) := by
  unfold decideWord
  by_cases row : 0 < s.roomToGrow ∧ Can s .row
  · have unbuilt : isBuilt s .row = false := by simp [isBuilt, row.2.1]
    have here : mRow s = some [.act (.commission .row)] := by
      rw [mRow, unbuilt]
      simp [Int.not_le.mpr row.1]
    have taken : planAct (.commission .row) s = some (commissioned s .row) :=
      actCommission_of_can row.2
    rw [if_pos row]
    exact expand_at 0 (by omega) (passed_zero .letWordGetOut s) here (not_stuck_of_can [] row.2)
      (fun m calm => seek_act taken calm) calm
  · have passed : Passed .letWordGetOut s 1 := by
      apply (passed_zero .letWordGetOut s).succ
      intro tasks offered
      change mRow s = some tasks at offered
      unfold mRow at offered
      split at offered
      · cases offered
      · rename_i open_row
        simp only [Bool.or_eq_true, decide_eq_true_eq, not_or, Int.not_le] at open_row
        have cannot : ¬ Can s .row := fun can => row ⟨by simpa using open_row.2, can⟩
        exact ⟨.commission .row, [], (Option.some.inj offered).symm,
          actCommission_eq_none.mpr cannot⟩
    rw [if_neg row]
    exact expand_at 1 (by omega) passed rfl (not_stuck_hold [])
      (fun m calm => seek_act (rfl : planAct .hold s = some s) calm) calm

theorem expand_sparks (decides : Decides n) (lower : rank .keepTheSparksWorking s ≤ n + 1)
    (named : s.cycle ≠ 0) {m} (calm : Calm wardDomain (12 * (n + 1)) m) :
    Answers n (fun late fuel =>
      expand wardDomain late fuel s .keepTheSparksWorking (wardMethods .keepTheSparksWorking) m)
      (decideSparks s) := by
  have can_have : ∀ v ∈ [PlanVenue.den, .tavern, .chapel], Can s v →
      rank .keepTheSparksWorking (commissioned s v) ≤ n := by
    intro v mem can
    have here := gap_of_can can
    simp only [List.mem_cons, List.not_mem_nil, or_false] at mem
    simp only [rank, gap_commissioned _ _ _ named] at lower ⊢
    rcases mem with rfl | rfl | rfl <;> simp <;> omega
  have refused : ∀ v, ¬ Can s v → ∀ tasks, nextOf s .keepTheSparksWorking v = some tasks →
      wardDomain.Stuck s tasks :=
    fun v cannot tasks offered => nextOf_stuck offered cannot
  unfold decideSparks
  by_cases den : Can s .den
  · rw [if_pos den]
    exact expand_at 0 (by omega) (passed_zero .keepTheSparksWorking s) (nextOf_of_can _ den)
      (not_stuck_of_can _ den)
      (fun m calm => seek_commission decides den named (can_have _ (by simp) den) calm) calm
  · have passed₁ : Passed .keepTheSparksWorking s 1 := (passed_zero .keepTheSparksWorking s).succ (refused .den den)
    rw [if_neg den]
    by_cases tavern : Can s .tavern
    · rw [if_pos tavern]
      exact expand_at 1 (by omega) passed₁ (nextOf_of_can _ tavern) (not_stuck_of_can _ tavern)
        (fun m calm => seek_commission decides tavern named (can_have _ (by simp) tavern) calm)
        calm
    · have passed₂ : Passed .keepTheSparksWorking s 2 := passed₁.succ (refused .tavern tavern)
      rw [if_neg tavern]
      by_cases chapel : Can s .chapel
      · rw [if_pos chapel]
        exact expand_at 2 (by omega) passed₂ (nextOf_of_can _ chapel) (not_stuck_of_can _ chapel)
          (fun m calm =>
            seek_commission decides chapel named (can_have _ (by simp) chapel) calm)
          calm
      · have passed₃ : Passed .keepTheSparksWorking s 3 := passed₂.succ (refused .chapel chapel)
        rw [if_neg chapel]
        by_cases saving : s.built .den = 0 ∨ s.built .tavern = 0 ∨ s.built .chapel = 0
        · have here : mSaveForSparks s = some [.act .hold] := by
            rcases saving with unbuilt | unbuilt | unbuilt <;>
              simp [mSaveForSparks, isBuilt, unbuilt]
          rw [if_pos saving]
          exact expand_at 3 (by omega) passed₃ here (not_stuck_hold [])
            (fun m calm => seek_act (rfl : planAct .hold s = some s) calm) calm
        · have standing : s.built .den ≠ 0 ∧ s.built .tavern ≠ 0 ∧ s.built .chapel ≠ 0 := by
            simpa using saving
          have none_left : mSaveForSparks s = none := by
            simp [mSaveForSparks, isBuilt, standing]
          have passed₄ : Passed .keepTheSparksWorking s 4 := by
            apply passed₃.succ
            intro tasks offered
            change mSaveForSparks s = some tasks at offered
            rw [none_left] at offered
            cases offered
          have lowerWord : rank .letWordGetOut s ≤ n := by
            simp only [rank] at lower ⊢
            omega
          rw [if_neg saving]
          exact expand_at 4 (by omega) passed₄ rfl not_stuck_compound
            (fun m calm => seek_compound decides named lowerWord calm) calm

theorem expand_earning (decides : Decides n) (lower : rank .makeTheWardEarn s ≤ n + 1)
    (named : s.cycle ≠ 0) {m} (calm : Calm wardDomain (12 * (n + 1)) m) :
    Answers n (fun late fuel =>
      expand wardDomain late fuel s .makeTheWardEarn (wardMethods .makeTheWardEarn) m)
      (decideEarning s) := by
  have can_have : ∀ v ∈ [PlanVenue.rails, .plaza], Can s v →
      rank .makeTheWardEarn (commissioned s v) ≤ n := by
    intro v mem can
    have here := gap_of_can can
    simp only [List.mem_cons, List.not_mem_nil, or_false] at mem
    simp only [rank, gap_commissioned _ _ _ named] at lower ⊢
    rcases mem with rfl | rfl <;> simp <;> omega
  have refused : ∀ v, ¬ Can s v → ∀ tasks, nextOf s .makeTheWardEarn v = some tasks →
      wardDomain.Stuck s tasks :=
    fun v cannot tasks offered => nextOf_stuck offered cannot
  unfold decideEarning
  by_cases rails : Can s .rails
  · rw [if_pos rails]
    exact expand_at 0 (by omega) (passed_zero .makeTheWardEarn s) (nextOf_of_can _ rails)
      (not_stuck_of_can _ rails)
      (fun m calm => seek_commission decides rails named (can_have _ (by simp) rails) calm)
      calm
  · have passed₁ : Passed .makeTheWardEarn s 1 := (passed_zero .makeTheWardEarn s).succ (refused .rails rails)
    rw [if_neg rails]
    by_cases plaza : Can s .plaza
    · rw [if_pos plaza]
      exact expand_at 1 (by omega) passed₁ (nextOf_of_can _ plaza) (not_stuck_of_can _ plaza)
        (fun m calm => seek_commission decides plaza named (can_have _ (by simp) plaza) calm)
        calm
    · have passed₂ : Passed .makeTheWardEarn s 2 := passed₁.succ (refused .plaza plaza)
      rw [if_neg plaza]
      by_cases saving : s.built .rails = 0 ∨ s.built .plaza = 0
      · have here : mSaveToEarn s = some [.act .hold] := by
          rcases saving with unbuilt | unbuilt <;> simp [mSaveToEarn, isBuilt, unbuilt]
        rw [if_pos saving]
        exact expand_at 2 (by omega) passed₂ here (not_stuck_hold [])
          (fun m calm => seek_act (rfl : planAct .hold s = some s) calm) calm
      · have standing : s.built .rails ≠ 0 ∧ s.built .plaza ≠ 0 := by simpa using saving
        have none_left : mSaveToEarn s = none := by simp [mSaveToEarn, isBuilt, standing]
        have passed₃ : Passed .makeTheWardEarn s 3 := by
          apply passed₂.succ
          intro tasks offered
          change mSaveToEarn s = some tasks at offered
          rw [none_left] at offered
          cases offered
        have lowerSparks : rank .keepTheSparksWorking s ≤ n := by
          have := gap_le s .den
          have := gap_le s .tavern
          have := gap_le s .chapel
          simp only [rank] at lower ⊢
          omega
        rw [if_neg saving]
        exact expand_at 3 (by omega) passed₃ rfl not_stuck_compound
          (fun m calm => seek_compound decides named lowerSparks calm) calm

theorem expand_ward (decides : Decides n) (lower : rank .runTheWard s ≤ n + 1)
    (named : s.cycle ≠ 0) {m} (calm : Calm wardDomain (12 * (n + 1)) m) :
    Answers n (fun late fuel => expand wardDomain late fuel s .runTheWard (wardMethods .runTheWard) m)
      (queensDecision s) := by
  unfold queensDecision
  by_cases repair : 60 ≤ s.worstWear ∧ Can s .den
  · have unbuilt : isBuilt s .den = false := by simp [isBuilt, repair.2.1]
    have here : mRepairFirst s =
        some [.act (.commission .den), .compound .keepTheSparksWorking] := by
      rw [mRepairFirst, unbuilt]
      simp [wearThatCannotWait, Int.not_lt.mpr repair.1]
    have lowerSparks : rank .keepTheSparksWorking (commissioned s .den) ≤ n := by
      have := gap_le (commissioned s .den) .den
      have := gap_le (commissioned s .den) .tavern
      have := gap_le (commissioned s .den) .chapel
      simp only [rank] at lower ⊢
      omega
    rw [if_pos repair]
    exact expand_at 0 (by omega) (passed_zero .runTheWard s) here (not_stuck_of_can _ repair.2)
      (fun m calm => seek_commission decides repair.2 named lowerSparks calm) calm
  · have passed : Passed .runTheWard s 1 := by
      apply (passed_zero .runTheWard s).succ
      intro tasks offered
      change mRepairFirst s = some tasks at offered
      unfold mRepairFirst at offered
      split at offered
      · cases offered
      · split at offered
        · cases offered
        · rename_i pressing
          have cannot : ¬ Can s .den := fun can => repair ⟨Int.not_lt.mp pressing, can⟩
          exact ⟨.commission .den, [.compound .keepTheSparksWorking],
            (Option.some.inj offered).symm, actCommission_eq_none.mpr cannot⟩
    have lowerEarning : rank .makeTheWardEarn s ≤ n := by
      have := gap_le s .rails
      have := gap_le s .plaza
      simp only [rank] at lower ⊢
      omega
    rw [if_neg repair]
    exact expand_at 1 (by omega) passed rfl not_stuck_compound
      (fun m calm => seek_compound decides named lowerEarning calm) calm

/-- Every task has a plan that starts as its rule says: by induction on the rank, which every
decomposition lowers because a commission at a cycle other than 0 fills a gap. -/
theorem expand_decides : ∀ n, Decides n
  | 0 => by
      intro t s m lower
      exact absurd lower (Nat.not_le.mpr (rank_pos t s))
  | n + 1 => by
      intro t s m lower named calm
      have decides := expand_decides n
      cases t with
      | runTheWard => exact expand_ward decides lower named calm
      | makeTheWardEarn => exact expand_earning decides lower named calm
      | keepTheSparksWorking => exact expand_sparks decides lower named calm
      | letWordGetOut => exact expand_word calm

/-- The search comes to the rule's decision. -/
theorem seek_decides {view : WardView} (named : 1 ≤ view.cycle) :
    Answers 9 (fun late fuel => seekPlan wardDomain late fuel view [.compound .runTheWard] {})
      (queensDecision view) := by
  have named' : view.cycle ≠ 0 := by omega
  exact seek_compound (expand_decides 9) named' (le_refl (rank .runTheWard view))
    (calm_start wardDomain (by decide))

/-- The search comes to the rule's decision, whatever the clock says. -/
theorem queenPlan_eq (late : Nat → Bool) {view : WardView} (named : 1 ≤ view.cycle) :
    queenPlan late view = some (queensDecision view) := by
  obtain ⟨plan, m, unasked, first, sought⟩ := seek_decides named
  have sought := sought late maxDepth (by decide)
  simp only at sought
  rw [queenPlan, sought]
  simp [unasked.unfired, first]

/-! ### What she names can be built -/

/-- The rule holds, or names a venue she can have. -/
theorem queensDecision_can (s : WardView) :
    queensDecision s = -1 ∨ ∃ v, queensDecision s = PlanVenue.index v ∧ Can s v := by
  have word : decideWord s = -1 ∨ ∃ v, decideWord s = PlanVenue.index v ∧ Can s v := by
    unfold decideWord
    split
    · rename_i row
      exact Or.inr ⟨.row, rfl, row.2⟩
    · exact Or.inl rfl
  have sparks : decideSparks s = -1 ∨ ∃ v, decideSparks s = PlanVenue.index v ∧ Can s v := by
    unfold decideSparks
    split
    · exact Or.inr ⟨.den, rfl, ‹_›⟩
    · split
      · exact Or.inr ⟨.tavern, rfl, ‹_›⟩
      · split
        · exact Or.inr ⟨.chapel, rfl, ‹_›⟩
        · split
          · exact Or.inl rfl
          · exact word
  unfold queensDecision decideEarning
  split
  · rename_i repair
    exact Or.inr ⟨.den, rfl, repair.2⟩
  · split
    · exact Or.inr ⟨.rails, rfl, ‹_›⟩
    · split
      · exact Or.inr ⟨.plaza, rfl, ‹_›⟩
      · split
        · exact Or.inl rfl
        · exact sparks

theorem viewBuilt_quiet (venues : List Nat) {w : World} (quiet : Quiet w) :
    viewBuilt venues w =
      (.ret (venues.map fun (i : Nat) => (w.g.askWard (selectBuilt (i : Int))).getD (-1)),
        w.after venues.length) := by
  induction venues generalizing w with
  | nil => rfl
  | cons i rest ih =>
      have restSeen := ih ((quiet_after 1 w).mpr quiet)
      unfold viewBuilt
      rw [Action.bind_ret (scalarWard_quiet quiet _), Action.bind_ret restSeen]
      simp [Nat.add_comm 1]

/-- The view `commission` hands over when nothing fails. -/
def Gyre.view (g : Gyre) : WardView :=
  { cycle := g.cycle
    treasury := g.treasury
    debt := g.debt
    nsparks := g.nsparks
    reserve := 25 * g.nsparks
    built := fun v => (g.askWard (selectBuilt v.index)).getD (-1)
    cost := fun v => (venues[v.index]?.map (·.cost)).getD 0
    worstWear := worstWear g.sparks
    roomToGrow := wardRoom g }

theorem wardView_quiet {w : World} (quiet : Quiet w) :
    wardView w = (.ret w.g.view, w.after nVenues) := by
  unfold wardView
  rw [Action.bind_ret (Action.read_apply _ _), Action.bind_ret (viewBuilt_quiet _ quiet)]
  have seen : (fun v : PlanVenue =>
      ((List.range nVenues).map fun (i : Nat) =>
        (w.g.askWard (selectBuilt (i : Int))).getD (-1)).getD v.index 0) =
      w.g.view.built := by
    funext v
    cases v <;> rfl
  simp only [Action.pure_apply, List.length_range]
  rw [seen]
  rfl

/-- What a planned venue is made of. -/
theorem venues_index (v : PlanVenue) :
    ∃ venue, venues[v.index]? = some venue ∧ (v.index : Int) < nVenues := by
  cases v <;> exact ⟨_, rfl, by decide⟩

/-- A venue the Queen can have is one `build_venue` has no reason to refuse. -/
theorem buildable_of_can {w : World} {v : PlanVenue} (can : Can w.g.view v) :
    ∃ venue, Buildable w.g v.index venue := by
  obtain ⟨venue, listed, inside⟩ := venues_index v
  have cost : w.g.view.cost v = venue.cost := by simp [Gyre.view, listed]
  have reserve : (0 : Int) ≤ w.g.view.reserve := by
    simp only [Gyre.view, Gyre.nsparks]
    omega
  have enough : venue.cost + w.g.view.reserve ≤ w.g.treasury := cost ▸ can.2
  exact ⟨venue,
    { lower := Int.natCast_nonneg _
      upper := inside
      listed := by rw [Int.toNat_natCast]; exact listed
      affordable := by omega
      unbuilt := can.1 }⟩

/-- The Queen's plan is the rule, for every view at a cycle from 1 on and whatever the clock says;
and a venue the plan names for a ward's own view is one `build_venue` builds there. -/
theorem queens_plan_is_her_decision :
    (∀ (late : Nat → Bool) (view : WardView), 1 ≤ view.cycle →
      queenPlan late view = some (queensDecision view)) ∧
    ∀ (w w' : World) (view : WardView) (i : Int), Ready w → 1 ≤ w.g.cycle →
      wardView w = (.ret view, w') → queenPlan w'.plane.late view = some i → i ≠ -1 →
      ∃ w'', buildVenue i w' = (.ret (), w'') := by
  refine ⟨fun late view named => queenPlan_eq late named, ?_⟩
  intro w w' view i ready named seen planned names
  obtain ⟨rfl, rfl⟩ : w.g.view = view ∧ w.after nVenues = w' := by
    have same := (wardView_quiet ready.quiet).symm.trans seen
    simpa using same
  have decided : i = queensDecision w.g.view := by
    have rule := queenPlan_eq (w.after nVenues).plane.late (show 1 ≤ w.g.view.cycle from named)
    exact Option.some.inj (planned.symm.trans rule)
  rcases queensDecision_can w.g.view with holds | ⟨v, named_v, can⟩
  · exact absurd (decided.trans holds) names
  · obtain ⟨venue, buildable⟩ := buildable_of_can can
    rw [decided, named_v]
    exact ⟨_, buildVenue_accepts (ready.after nVenues) buildable⟩

/-- A ward at its first cycle, with nobody in it and the scrip it opens with. -/
def firstCycle : World :=
  { g :=
      { Gyre.zero with
        cycle := 1, treasury := 300
        ward :=
          { name := [], isOpen := true, saved := none
            now :=
              { created := true
                venue := venues.zipIdx.map fun (v, i) =>
                  { id := i, name := v.name, cost := v.cost, built := 0, place := v.place
                    wire := 0, owner := 0 } } } }
    plane := Plane.fresh fun _ => false }

/-- At its first cycle the ward builds the rails. -/
theorem first_plan_builds_rails :
    queenPlan (fun _ => false) firstCycle.g.view = some 2 ∧
      ∃ w'', buildVenue 2 (firstCycle.after nVenues) = (.ret (), w'') := by
  have ready : Ready firstCycle := ⟨fun _ => rfl, rfl, rfl⟩
  have rule : queensDecision firstCycle.g.view = 2 := by decide
  have planned : queenPlan (fun _ => false) firstCycle.g.view = some 2 :=
    (queens_plan_is_her_decision.1 _ _ (by decide)).trans (congrArg some rule)
  exact ⟨planned, queens_plan_is_her_decision.2 firstCycle _ _ 2 ready (by decide)
    (wardView_quiet ready.quiet) planned (by decide)⟩

end GyreWard
