/-
Module: GyreWard.Model.Taskweft
Purpose: The depth-first HTN search of the vendored planner (`tw_planner.hpp`, `tw_seek_plan`),
  with its budget, its two memo caches, its learned method order and its pruning.
Trusted boundary: human-reviewed translation of the source
Main exports: Task, Domain, Budget, Memo, seekPlan
-/
import Mathlib.Logic.Function.Basic

namespace GyreWard.Taskweft

/-!
The search is generic in its state, its actions and its compound tasks.  The ward's domain has
no goals and no blacklist, so a task here is a call, and a call is an action or a compound task
by its type.  The memo caches and the scores are keyed by what the source hashes (a state and a
task list, a call), so the 64-bit hashes of two different keys are taken to be different.
-/

/-- A `TwCall`, told apart by the domain table that has its name. -/
inductive Task (α τ : Type) where
  | act (action : α)
  | compound (task : τ)
deriving DecidableEq, Repr

/-- A method: the subtasks it decomposes its task into, or `nullopt`. -/
abbrev Method (σ α τ : Type) := σ → Option (List (Task α τ))

/-- `TwDomain`; `none` is a name with no entry in `task_methods`. -/
structure Domain (σ α τ : Type) where
  act : α → σ → Option σ
  methods : τ → Option (List (Method σ α τ))

/-- `TW_MAX_DEPTH`. -/
def maxDepth : Nat := 400

/-- `TW_BUDGET_SAMPLE_EVERY`. -/
def sampleEvery : Nat := 256

/-- `TwBudget`; `asked` counts how often the clock was consulted. -/
structure Budget where
  tick : Nat := 0
  fired : Bool := false
  asked : Nat := 0
deriving DecidableEq, Repr

/-- `TwBudget::exceeded`, where `late k` says whether the `k`-th look at the clock is past the
deadline. -/
def Budget.exceeded (late : Nat → Bool) (b : Budget) : Bool × Budget :=
  if b.fired then (true, b)
  else if (b.tick + 1) % sampleEvery ≠ 0 then (false, { b with tick := b.tick + 1 })
  else (late b.asked, { tick := b.tick + 1, fired := late b.asked, asked := b.asked + 1 })

/-- What the calls of one search share: the budget, the caches and the scores. -/
structure Memo (σ α τ : Type) where
  budget : Budget := {}
  fails : List (σ × List (Task α τ)) := []
  successes : List ((σ × List (Task α τ)) × List α) := []
  scores : τ → List Int := fun _ => []

/-- How the fast path of one call ends: out of time, with a plan, stuck, or at a compound task. -/
inductive Walk (σ α τ : Type) where
  | late
  | done (plan : List α)
  | stuck
  | branch (state : σ) (plan : List α) (task : τ) (remaining : List (Task α τ))

section

variable {σ α τ : Type}

def Memo.exceeded (late : Nat → Bool) (m : Memo σ α τ) : Bool × Memo σ α τ :=
  let (out, budget) := m.budget.exceeded late
  (out, { m with budget := budget })

/-- `mark_fail`. -/
def Memo.markFail (key : σ × List (Task α τ)) (m : Memo σ α τ) : Memo σ α τ :=
  { m with fails := key :: m.fails }

/-- `mark_success`. -/
def Memo.markSuccess (key : σ × List (Task α τ)) (plan : List α) (m : Memo σ α τ) : Memo σ α τ :=
  { m with successes := (key, plan) :: m.successes }

/-- Has this compound task a method at all? -/
def Domain.hasMethod (dom : Domain σ α τ) (task : τ) : Bool :=
  (dom.methods task).any fun methods => !methods.isEmpty

/-- `tw_witness_oracle_goal_reach_cached` on tasks that are calls: something can be decomposed,
or nothing is skipped for want of a method. -/
def Domain.reachable (dom : Domain σ α τ) (tasks : List (Task α τ)) : Bool :=
  let calls := tasks.filterMap fun
    | .compound task => some task
    | .act _ => none
  calls.any dom.hasMethod || calls.all dom.hasMethod

/-- The fast path: actions are taken in place, without recursing. -/
def walk (dom : Domain σ α τ) (late : Nat → Bool) :
    List (Task α τ) → σ → List α → Memo σ α τ → Walk σ α τ × Memo σ α τ
  | [], _, plan, m =>
      let (out, m) := m.exceeded late
      (if out then .late else .done plan, m)
  | task :: rest, s, plan, m =>
      let (out, m) := m.exceeded late
      if out then (.late, m)
      else if !dom.reachable (task :: rest) then (.stuck, m)
      else
        match task with
        | .compound task => (.branch s plan task rest, m)
        | .act a =>
            match dom.act a s with
            | none => (.stuck, m)
            | some s' => walk dom late rest s' (plan ++ [a]) m

/-- The best score and where it stands: the first of the largest. -/
def bestScore : List Int → Nat → Nat × Int → Nat × Int
  | [], _, best => best
  | score :: rest, i, best => bestScore rest (i + 1) (if best.2 < score then (i, score) else best)

/-- `scores.resize(count, 0)` when the vector is shorter. -/
def widened (count : Nat) (scores : List Int) : List Int :=
  scores ++ List.replicate (count - scores.length) 0

/-- `tw_order_methods`: declaration order, unless one method has positive evidence. -/
def methodOrder (count : Nat) (scores : List Int) : List Nat :=
  let order := List.range count
  if count ≤ 1 then order
  else
    match (widened count scores).take count with
    | [] => order
    | first :: rest =>
        let (best, score) := bestScore rest 1 (0, first)
        if 0 < score ∧ best ≠ 0 then (order.set 0 best).set best 0 else order

/-- The scores vector of a task, grown to hold its methods. -/
def Memo.widen [DecidableEq τ] (task : τ) (count : Nat) (m : Memo σ α τ) : Memo σ α τ :=
  if count ≤ 1 then m
  else { m with scores := Function.update m.scores task (widened count (m.scores task)) }

/-- `tw_note_method_result`. -/
def Memo.note [DecidableEq τ] (task : τ) (method : Nat) (success : Bool) (m : Memo σ α τ) :
    Memo σ α τ :=
  let scores := widened (method + 1) (m.scores task)
  let score := scores.getD method 0 + if success then 2 else -1
  { m with
    scores := Function.update m.scores task (scores.set method (max (-64) (min 64 score))) }

/-- `tw_prefix_plausible`: the first two tasks are actions, or have an entry in the domain. -/
def Domain.prefixPlausible (dom : Domain σ α τ) (tasks : List (Task α τ)) : Bool :=
  (tasks.take 2).all fun
    | .act _ => true
    | .compound task => (dom.methods task).isSome

variable [DecidableEq τ] [DecidableEq α]

/-- The loop over the methods of a compound task, in the given order; `seek` is the recursive
call, and `seen` the decompositions already tried. -/
def tryMethods (dom : Domain σ α τ) (methods : List (Method σ α τ))
    (seek : List (Task α τ) → Memo σ α τ → Option (List α) × Memo σ α τ)
    (s : σ) (task : τ) (remaining : List (Task α τ)) :
    List Nat → List (List (Task α τ)) → Memo σ α τ → Option (List α) × Memo σ α τ
  | [], _, m => (none, m)
  | i :: order, seen, m =>
      match methods[i]? >>= (· s) with
      | none => tryMethods dom methods seek s task remaining order seen m
      | some subtasks =>
          let tasks := subtasks ++ remaining
          if tasks ∈ seen then tryMethods dom methods seek s task remaining order seen m
          else if !dom.prefixPlausible tasks then
            tryMethods dom methods seek s task remaining order (tasks :: seen) m
          else
            match seek tasks m with
            | (some plan, m) => (some plan, m.note task i true)
            | (none, m) =>
                tryMethods dom methods seek s task remaining order (tasks :: seen) (m.note task i false)

variable [DecidableEq σ]

/-- `tw_seek_plan`.  Fuel is spent on a branch, never on an action. -/
def seekPlan (dom : Domain σ α τ) (late : Nat → Bool) :
    Nat → σ → List (Task α τ) → Memo σ α τ → Option (List α) × Memo σ α τ
  | fuel, s, tasks, m =>
      let (out, m) := m.exceeded late
      if out then (none, m)
      else if tasks.isEmpty then (some [], m)
      else if (s, tasks) ∈ m.fails then (none, m)
      else
        match m.successes.lookup (s, tasks) with
        | some plan => (some plan, m)
        | none =>
            match walk dom late tasks s [] m with
            | (.late, m) => (none, m)
            | (.done plan, m) => (some plan, m.markSuccess (s, tasks) plan)
            | (.stuck, m) => (none, m.markFail (s, tasks))
            | (.branch s' taken task remaining, m) =>
                match fuel, dom.methods task with
                | 0, _ => (none, m.markFail (s, tasks))
                | _ + 1, none => (none, m.markFail (s, tasks))
                | fuel + 1, some methods =>
                    match tryMethods dom methods (seekPlan dom late fuel s') s' task remaining
                        (methodOrder methods.length (m.scores task)) []
                        (m.widen task methods.length) with
                    | (some plan, m) =>
                        (some (taken ++ plan), m.markSuccess (s, tasks) (taken ++ plan))
                    | (none, m) => (none, m.markFail (s, tasks))

end

end GyreWard.Taskweft
