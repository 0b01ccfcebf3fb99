/-
Module: GyreWard.Proofs.Search
Purpose: What the planner's search does before its first success: no cache answers, no score
  reorders the methods, and the first method that can be carried through wins.
Trusted boundary: none
Main exports: Domain.Stuck, Calm, Finds, expand, seekPlan_stuck, seekPlan_done, seekPlan_branch,
  expand_first
-/
import GyreWard.Model.Taskweft

namespace GyreWard.Taskweft

variable {σ α τ : Type}

/-- A task list that starts with an action its state refuses. -/
def Domain.Stuck (dom : Domain σ α τ) (s : σ) (tasks : List (Task α τ)) : Prop :=
  ∃ a rest, tasks = .act a :: rest ∧ dom.act a s = none

/-- The state after some actions. -/
def Domain.run (dom : Domain σ α τ) : List α → σ → Option σ
  | [], s => some s
  | a :: rest, s => (dom.act a s).bind (dom.run rest)

/-- The clock has not been looked at. -/
structure Budget.Unasked (b : Budget) : Prop where
  unfired : b.fired = false
  asked : b.asked = 0
  time : b.tick < sampleEvery

/-- A search that has not succeeded yet, with more than `left` ticks before it looks at the
clock.  Only stuck task lists have failed, nothing has succeeded, and no method has earned a
positive score. -/
structure Calm (dom : Domain σ α τ) (left : Nat) (m : Memo σ α τ) : Prop where
  unfired : m.budget.fired = false
  asked : m.budget.asked = 0
  time : m.budget.tick + left < sampleEvery
  fails : ∀ key ∈ m.fails, dom.Stuck key.1 key.2
  successes : m.successes = []
  scores : ∀ t, ∀ x ∈ m.scores t, x ≤ 0

theorem calm_start (dom : Domain σ α τ) {left : Nat} (short : left < sampleEvery) :
    Calm dom left {} where
  unfired := rfl
  asked := rfl
  time := by simpa using short
  fails := by
    intro key mem
    cases mem
  successes := rfl
  scores := by
    intro t x mem
    cases mem

namespace Calm

variable {dom : Domain σ α τ} {k : Nat} {m : Memo σ α τ}

theorem unasked (calm : Calm dom k m) : m.budget.Unasked :=
  ⟨calm.unfired, calm.asked, Nat.lt_of_le_of_lt (Nat.le_add_right ..) calm.time⟩

/-- A tick is not a look at the clock. -/
theorem exceeded (calm : Calm dom (k + 1) m) :
    ∃ m', Calm dom k m' ∧ ∀ late, m.exceeded late = (false, m') := by
  have early : (m.budget.tick + 1) % sampleEvery ≠ 0 := by
    rw [Nat.mod_eq_of_lt (by have := calm.time; omega)]
    omega
  refine ⟨{ m with budget := { m.budget with tick := m.budget.tick + 1 } }, ?_, fun late => ?_⟩
  · exact
      { unfired := calm.unfired
        asked := calm.asked
        time := by
          have := calm.time
          change m.budget.tick + 1 + k < sampleEvery
          omega
        fails := calm.fails
        successes := calm.successes
        scores := calm.scores }
  · simp [Memo.exceeded, Budget.exceeded, calm.unfired, early]

theorem mono {k' : Nat} (calm : Calm dom k m) (less : k' ≤ k) : Calm dom k' m :=
  { calm with time := Nat.lt_of_le_of_lt (Nat.add_le_add_left less _) calm.time }

theorem markFail (calm : Calm dom k m) {s : σ} {tasks : List (Task α τ)}
    (stuck : dom.Stuck s tasks) : Calm dom k (m.markFail (s, tasks)) :=
  { calm with
    fails := by
      intro key mem
      rcases List.mem_cons.mp mem with rfl | old
      · exact stuck
      · exact calm.fails key old }

variable [DecidableEq τ]

theorem widen (calm : Calm dom k m) (t : τ) (count : Nat) : Calm dom k (m.widen t count) := by
  unfold Memo.widen
  by_cases few : count ≤ 1
  · rw [if_pos few]
    exact calm
  · rw [if_neg few]
    refine { calm with scores := ?_ }
    intro t' x mem
    change x ∈ Function.update m.scores t (widened count (m.scores t)) t' at mem
    by_cases same : t' = t
    · subst same
      rw [Function.update_self] at mem
      rcases List.mem_append.mp mem with old | new
      · exact calm.scores t' x old
      · exact Int.le_of_eq (List.eq_of_mem_replicate new)
    · rw [Function.update_of_ne same] at mem
      exact calm.scores t' x mem

/-- A method that did not work out loses score. -/
theorem note (calm : Calm dom k m) (t : τ) (i : Nat) : Calm dom k (m.note t i false) := by
  refine { calm with scores := ?_ }
  intro t' x mem
  change x ∈ Function.update m.scores t ((widened (i + 1) (m.scores t)).set i _) t' at mem
  have old : ∀ x ∈ widened (i + 1) (m.scores t), x ≤ 0 := by
    intro x mem
    rcases List.mem_append.mp mem with old | new
    · exact calm.scores t x old
    · exact Int.le_of_eq (List.eq_of_mem_replicate new)
  by_cases same : t' = t
  · subst same
    rw [Function.update_self] at mem
    rcases List.mem_or_eq_of_mem_set mem with kept | rfl
    · exact old x kept
    · have before : (widened (i + 1) (m.scores t')).getD i 0 ≤ 0 := by
        rw [List.getD_eq_getElem?_getD]
        cases found : (widened (i + 1) (m.scores t'))[i]? with
        | none => simp
        | some y => exact old y (List.mem_of_getElem? found)
      simp only [Bool.false_eq_true, ↓reduceIte]
      omega
  · rw [Function.update_of_ne same] at mem
    exact calm.scores t' x mem

end Calm

/-! ### The order of the methods -/

theorem bestScore_le {scores : List Int} (low : ∀ x ∈ scores, x ≤ 0) :
    ∀ {i : Nat} {best : Nat × Int}, best.2 ≤ 0 → (bestScore scores i best).2 ≤ 0 := by
  induction scores with
  | nil =>
      intro i best first
      exact first
  | cons score rest ih =>
      intro i best first
      apply ih (fun x mem => low x (List.mem_cons_of_mem _ mem))
      split
      · exact low score (List.mem_cons_self ..)
      · exact first

/-- Without positive evidence the methods keep the order they are declared in. -/
theorem methodOrder_of_low {count : Nat} {scores : List Int} (low : ∀ x ∈ scores, x ≤ 0) :
    methodOrder count scores = List.range count := by
  have lowWide : ∀ x ∈ (widened count scores).take count, x ≤ 0 := by
    intro x mem
    rcases List.mem_append.mp (List.mem_of_mem_take mem) with old | new
    · exact low x old
    · exact Int.le_of_eq (List.eq_of_mem_replicate new)
  unfold methodOrder
  dsimp only
  split
  · rfl
  · cases wide : (widened count scores).take count with
    | nil => rfl
    | cons first rest =>
        rw [wide] at lowWide
        have top : (bestScore rest 1 (0, first)).2 ≤ 0 :=
          bestScore_le (fun x mem => lowWide x (List.mem_cons_of_mem _ mem))
            (lowWide first (List.mem_cons_self ..))
        exact if_neg fun positive => absurd positive.1 (Int.not_lt.mpr top)

/-! ### The fast path -/

/-- Every compound task of the domain has a method. -/
def Domain.Total (dom : Domain σ α τ) : Prop := ∀ t, dom.hasMethod t = true

theorem Domain.Total.reachable {dom : Domain σ α τ} (total : dom.Total)
    (tasks : List (Task α τ)) : dom.reachable tasks = true := by
  unfold Domain.reachable
  rw [Bool.or_eq_true]
  exact Or.inr (List.all_eq_true.mpr fun t _ => total t)

theorem Domain.Total.methods {dom : Domain σ α τ} (total : dom.Total) (t : τ) :
    (dom.methods t).isSome = true := by
  have some_method := total t
  unfold Domain.hasMethod at some_method
  cases found : dom.methods t with
  | none => simp [found] at some_method
  | some methods => rfl

theorem Domain.Total.prefixPlausible {dom : Domain σ α τ} (total : dom.Total)
    (tasks : List (Task α τ)) : dom.prefixPlausible tasks = true := by
  apply List.all_eq_true.mpr
  intro task _
  cases task with
  | act a => rfl
  | compound t => exact total.methods t

/-- Actions that can be taken are taken, one tick each. -/
theorem walk_actions {dom : Domain σ α τ} (total : dom.Total) (rest : List (Task α τ)) :
    ∀ (acts plan : List α) {s s' : σ} {k : Nat} {m : Memo σ α τ},
      dom.run acts s = some s' → Calm dom (acts.length + k) m →
        ∃ m', Calm dom k m' ∧ ∀ late,
          walk dom late (acts.map .act ++ rest) s plan m =
            walk dom late rest s' (plan ++ acts) m'
  | [], plan, s, s', k, m, ran, calm => by
      obtain rfl : s = s' := Option.some.inj ran
      exact ⟨m, by simpa using calm, by simp⟩
  | a :: acts, plan, s, s', k, m, ran, calm => by
      obtain ⟨middle, taken, ran⟩ := Option.bind_eq_some_iff.mp ran
      have calm' : Calm dom (acts.length + k + 1) m := by
        have length : (a :: acts).length + k = acts.length + k + 1 := by
          rw [List.length_cons]
          omega
        rw [← length]
        exact calm
      obtain ⟨m₁, calm₁, ticked⟩ := calm'.exceeded
      obtain ⟨m', calm', walked⟩ := walk_actions total rest acts (plan ++ [a]) ran calm₁
      refine ⟨m', calm', fun late => ?_⟩
      rw [List.map_cons, List.cons_append, walk, ticked]
      simp only [Bool.false_eq_true, ↓reduceIte, total.reachable, Bool.not_true, taken]
      rw [walked, List.append_assoc]
      rfl

/-! ### A search call -/

/-- The search finds a plan without looking at the clock: the same plan, whatever the clock would
have said and however much fuel there is from `deep` on. -/
def Finds (deep : Nat) (search : (Nat → Bool) → Nat → Option (List α) × Memo σ α τ)
    (Found : List α → Prop) : Prop :=
  ∃ plan m, m.budget.Unasked ∧ Found plan ∧
    ∀ late fuel, deep ≤ fuel → search late fuel = (some plan, m)

theorem Finds.mono {deep : Nat} {search : (Nat → Bool) → Nat → Option (List α) × Memo σ α τ}
    {Found Found' : List α → Prop} (finds : Finds deep search Found)
    (weaker : ∀ plan, Found plan → Found' plan) : Finds deep search Found' := by
  obtain ⟨plan, m, unasked, found, sought⟩ := finds
  exact ⟨plan, m, unasked, weaker plan found, sought⟩

variable [DecidableEq σ] [DecidableEq α] [DecidableEq τ]

/-- A task list whose first action is refused fails. -/
theorem seekPlan_stuck {dom : Domain σ α τ} (total : dom.Total) {k : Nat} {s : σ}
    {tasks : List (Task α τ)} {m : Memo σ α τ} (calm : Calm dom (k + 2) m)
    (stuck : dom.Stuck s tasks) :
    ∃ m', Calm dom k m' ∧ ∀ late fuel, seekPlan dom late fuel s tasks m = (none, m') := by
  obtain ⟨m₁, calm₁, ticked⟩ := calm.exceeded
  obtain ⟨m₂, calm₂, ticked₂⟩ := calm₁.exceeded
  have refused := stuck
  obtain ⟨a, rest, rfl, refusal⟩ := refused
  by_cases known : (s, Task.act a :: rest) ∈ m₁.fails
  · refine ⟨m₁, calm₁.mono (Nat.le_succ k), fun late fuel => ?_⟩
    rw [seekPlan, ticked]
    simp [known]
  · refine ⟨m₂.markFail (s, .act a :: rest), calm₂.markFail stuck, fun late fuel => ?_⟩
    have walked : walk dom late (.act a :: rest) s [] m₁ = (.stuck, m₂) := by
      rw [walk, ticked₂]
      simp [total.reachable, refusal]
    rw [seekPlan, ticked]
    simp [known, calm₁.successes, walked]

/-- Actions that can all be taken are a plan. -/
theorem seekPlan_done {dom : Domain σ α τ} (total : dom.Total) {s s' : σ} {a : α} {acts : List α}
    {m : Memo σ α τ} (calm : Calm dom (acts.length + 3) m)
    (ran : dom.run (a :: acts) s = some s') :
    ∃ m', m'.budget.Unasked ∧ ∀ late fuel,
      seekPlan dom late fuel s ((a :: acts).map .act) m = (some (a :: acts), m') := by
  obtain ⟨m₁, calm₁, ticked⟩ := calm.exceeded
  have calmWalk : Calm dom ((a :: acts).length + 1) m₁ := calm₁
  obtain ⟨m₂, calm₂, walked⟩ := walk_actions total [] (a :: acts) [] ran calmWalk
  obtain ⟨m₃, calm₃, ticked₃⟩ := calm₂.exceeded
  have notFailed : (s, Task.act a :: acts.map .act) ∉ m₁.fails := by
    intro failed
    obtain ⟨b, rest, same, refusal⟩ := calm₁.fails _ failed
    obtain ⟨middle, taken, -⟩ := Option.bind_eq_some_iff.mp ran
    injection same with same _
    injection same with same
    rw [same, refusal] at taken
    cases taken
  refine ⟨m₃.markSuccess (s, .act a :: acts.map .act) (a :: acts), calm₃.unasked,
    fun late fuel => ?_⟩
  have walked' : walk dom late (.act a :: acts.map .act) s [] m₁ = (.done (a :: acts), m₃) := by
    have walked := walked late
    rw [List.append_nil] at walked
    rw [← List.map_cons, walked, walk, ticked₃]
    rfl
  rw [List.map_cons, seekPlan, ticked]
  simp [notFailed, calm₁.successes, walked']

/-- The methods of a task tried at a state, with nothing left to do after it. -/
def expand (dom : Domain σ α τ) (late : Nat → Bool) (fuel : Nat) (s : σ) (t : τ)
    (methods : List (Method σ α τ)) (m : Memo σ α τ) : Option (List α) × Memo σ α τ :=
  tryMethods dom methods (seekPlan dom late fuel s) s t []
    (methodOrder methods.length (m.scores t)) [] (m.widen t methods.length)

/-- Actions that can all be taken lead to the task behind them. -/
theorem seekPlan_branch {dom : Domain σ α τ} (total : dom.Total) {k : Nat} {s s' : σ}
    {acts : List α} {t : τ} {methods : List (Method σ α τ)} {m : Memo σ α τ}
    (known : dom.methods t = some methods) (calm : Calm dom (acts.length + k + 2) m)
    (ran : dom.run acts s = some s') :
    ∃ m', Calm dom k m' ∧ ∀ plan m'', ∃ m₃, m₃.budget = m''.budget ∧ ∀ late fuel,
      expand dom late fuel s' t methods m' = (some plan, m'') →
        seekPlan dom late (fuel + 1) s (acts.map .act ++ [.compound t]) m =
          (some (acts ++ plan), m₃) := by
  obtain ⟨m₁, calm₁, ticked⟩ := calm.exceeded
  have calmWalk : Calm dom (acts.length + (k + 1)) m₁ := calm₁
  obtain ⟨m₂, calm₂, walked⟩ := walk_actions total [.compound t] acts [] ran calmWalk
  obtain ⟨m₃, calm₃, ticked₃⟩ := calm₂.exceeded
  have notFailed : (s, acts.map Task.act ++ [.compound t]) ∉ m₁.fails := by
    intro failed
    obtain ⟨b, rest, same, refusal⟩ := calm₁.fails _ failed
    cases acts with
    | nil => simp at same
    | cons a acts =>
        obtain ⟨middle, taken, -⟩ := Option.bind_eq_some_iff.mp ran
        simp only [List.map_cons, List.cons_append, List.cons.injEq, Task.act.injEq] at same
        rw [same.1, refusal] at taken
        cases taken
  have notEmpty : (acts.map Task.act ++ [Task.compound t]).isEmpty = false := by simp
  refine ⟨m₃, calm₃, fun plan m'' => ?_⟩
  refine ⟨m''.markSuccess (s, acts.map .act ++ [.compound t]) (acts ++ plan), rfl,
    fun late fuel expanded => ?_⟩
  have walked' : walk dom late (acts.map .act ++ [.compound t]) s [] m₁ =
      (.branch s' acts t [], m₃) := by
    rw [walked, walk, ticked₃]
    simp [total.reachable]
  unfold expand at expanded
  rw [seekPlan, ticked]
  simp only [Bool.false_eq_true, ↓reduceIte, notEmpty, notFailed, calm₁.successes,
    List.lookup_nil, walked', known, expanded]

/-! ### The first method that can be carried through -/

/-- Methods that do not apply, or are refused at once, are passed over in order; the first that
can be carried through gives the plan. -/
theorem tryMethods_first {dom : Domain σ α τ} (total : dom.Total)
    {methods : List (Method σ α τ)} {deep k i : Nat} {s : σ} {t : τ}
    {later : List Nat} {tasks : List (Task α τ)} (here : methods[i]? >>= (· s) = some tasks)
    (free : ¬ dom.Stuck s tasks) {Found : List α → Prop}
    (found : ∀ m, Calm dom k m →
      Finds deep (fun late fuel => seekPlan dom late fuel s tasks m) Found) :
    ∀ (skipped : List Nat) {seen : List (List (Task α τ))} {m : Memo σ α τ},
      Calm dom (2 * skipped.length + k) m → (∀ tasks ∈ seen, dom.Stuck s tasks) →
      (∀ j ∈ skipped, ∀ tasks, methods[j]? >>= (· s) = some tasks → dom.Stuck s tasks) →
      Finds deep (fun late fuel => tryMethods dom methods (seekPlan dom late fuel s) s t []
        (skipped ++ i :: later) seen m) Found
  | [], seen, m, calm, stuckSeen, _ => by
      have unseen : tasks ∉ seen := fun mem => free (stuckSeen tasks mem)
      obtain ⟨plan, m', unasked, good, sought⟩ := found m (by simpa using calm)
      refine ⟨plan, m'.note t i true, unasked, good, fun late fuel enough => ?_⟩
      have sought := sought late fuel enough
      simp only [List.nil_append, tryMethods, here]
      simp [unseen, total.prefixPlausible, sought]
  | j :: skipped, seen, m, calm, stuckSeen, pass => by
      have passRest : ∀ j ∈ skipped, ∀ tasks, methods[j]? >>= (· s) = some tasks →
          dom.Stuck s tasks := fun j mem => pass j (List.mem_cons_of_mem _ mem)
      have length : 2 * (j :: skipped).length + k = 2 * skipped.length + k + 2 := by
        rw [List.length_cons]
        omega
      rw [length] at calm
      have calmRest : Calm dom (2 * skipped.length + k) m := calm.mono (Nat.le_add_right _ 2)
      simp only [List.cons_append, tryMethods]
      cases decomposed : methods[j]? >>= (· s) with
      | none => exact tryMethods_first total here free found skipped calmRest stuckSeen passRest
      | some refused =>
          have stuck := pass j (List.mem_cons_self ..) refused decomposed
          simp only [List.append_nil, total.prefixPlausible, Bool.not_true, Bool.false_eq_true,
            ↓reduceIte]
          by_cases again : refused ∈ seen
          · simp only [again, ↓reduceIte]
            exact tryMethods_first total here free found skipped calmRest stuckSeen passRest
          · obtain ⟨m', calm', sought⟩ := seekPlan_stuck total calm stuck
            simp only [again, ↓reduceIte, sought]
            apply tryMethods_first total here free found skipped (calm'.note t j) _ passRest
            intro tasks mem
            rcases List.mem_cons.mp mem with rfl | old
            · exact stuck
            · exact stuckSeen tasks old

/-- The plan for a task comes from the first of its methods, as they are declared, that can be
carried through. -/
theorem expand_first {dom : Domain σ α τ} (total : dom.Total)
    {methods : List (Method σ α τ)} {deep k : Nat} {s : σ} {t : τ} (i : Nat)
    {tasks : List (Task α τ)} {Found : List α → Prop}
    (here : methods[i]? >>= (· s) = some tasks) (free : ¬ dom.Stuck s tasks)
    (pass : ∀ j < i, ∀ tasks, methods[j]? >>= (· s) = some tasks → dom.Stuck s tasks)
    (found : ∀ m, Calm dom k m →
      Finds deep (fun late fuel => seekPlan dom late fuel s tasks m) Found)
    {m : Memo σ α τ} (calm : Calm dom (2 * i + k) m) :
    Finds deep (fun late fuel => expand dom late fuel s t methods m) Found := by
  have inside : i < methods.length := by
    cases found : methods[i]? with
    | none => simp [found] at here
    | some method => exact (List.getElem?_eq_some_iff.mp found).1
  have order : List.range methods.length =
      List.range i ++ i :: (List.range (methods.length - i - 1)).map (i + 1 + ·) := by
    obtain ⟨n, size⟩ : ∃ n, methods.length = i + (n + 1) := ⟨methods.length - i - 1, by omega⟩
    have rest : methods.length - i - 1 = n := by omega
    rw [rest, size, List.range_add, List.range_succ_eq_map]
    simp [Function.comp_def, Nat.add_assoc, Nat.add_comm 1]
  unfold expand
  rw [methodOrder_of_low (calm.scores t), order]
  apply tryMethods_first total here free found (List.range i)
  · rw [List.length_range]
    exact calm.widen t methods.length
  · intro tasks mem
    cases mem
  · intro j mem
    exact pass j (List.mem_range.mp mem)

end GyreWard.Taskweft
