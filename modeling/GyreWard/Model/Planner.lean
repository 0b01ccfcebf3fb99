/-
Module: GyreWard.Model.Planner
Purpose: The ward's planning domain and the Queen's decision (`planner.cpp`).
Trusted boundary: human-reviewed translation of the source
Main exports: PlanVenue, WardView, PlanState, wardDomain, queenPlan
-/
import GyreWard.Model.Taskweft
import Mathlib.Data.Fintype.Pi

namespace GyreWard

open Taskweft

/-- The venues by what they are for, in the order of `VENUES`. -/
inductive PlanVenue where
  | tavern
  | den
  | rails
  | plaza
  | chapel
  | row
deriving DecidableEq, Repr

namespace PlanVenue

instance : Fintype PlanVenue where
  elems := {tavern, den, rails, plaza, chapel, row}
  complete := by
    intro v
    cases v <;> decide

/-- The index into `VENUES`. -/
def index : PlanVenue → Nat
  | tavern => 0
  | den => 1
  | rails => 2
  | plaza => 3
  | chapel => 4
  | row => 5

end PlanVenue

/-- `ward_view_t`. -/
structure WardView where
  cycle : Int
  treasury : Int
  debt : Int
  nsparks : Int
  reserve : Int
  built : PlanVenue → Int
  cost : PlanVenue → Int
  worstWear : Int
  roomToGrow : Int
deriving DecidableEq

/-- The planning state: `state_of` copies the view. -/
abbrev PlanState := WardView

def wearThatCannotWait : Int := 60

def isBuilt (s : PlanState) (v : PlanVenue) : Bool := s.built v ≠ 0

/-- The actions of the domain. -/
inductive PlanAct where
  | commission (venue : PlanVenue)
  | hold
deriving DecidableEq, Repr

/-- The compound tasks of the domain. -/
inductive PlanTask where
  | runTheWard
  | makeTheWardEarn
  | keepTheSparksWorking
  | letWordGetOut
deriving DecidableEq, Repr

abbrev Subtasks := Option (List (Task PlanAct PlanTask))

/-- `act_commission`. -/
def actCommission (v : PlanVenue) (s : PlanState) : Option PlanState :=
  if isBuilt s v then none
  else if s.treasury < s.cost v + s.reserve then none
  else some
    { s with
      built := Function.update s.built v s.cycle
      treasury := s.treasury - s.cost v }

/-- `act_commission` and `act_hold`. -/
def planAct : PlanAct → PlanState → Option PlanState
  | .commission v, s => actCommission v s
  | .hold, s => some s

/-- `next_of`: buy this, then carry on with the same task. -/
def nextOf (s : PlanState) (task : PlanTask) (v : PlanVenue) : Subtasks :=
  if isBuilt s v then none else some [.act (.commission v), .compound task]

def mRails (s : PlanState) : Subtasks := nextOf s .makeTheWardEarn .rails
def mPlaza (s : PlanState) : Subtasks := nextOf s .makeTheWardEarn .plaza

def mSaveToEarn (s : PlanState) : Subtasks :=
  if !isBuilt s .rails || !isBuilt s .plaza then some [.act .hold] else none

def mThenTheSparks (_ : PlanState) : Subtasks := some [.compound .keepTheSparksWorking]

def mDen (s : PlanState) : Subtasks := nextOf s .keepTheSparksWorking .den
def mTavern (s : PlanState) : Subtasks := nextOf s .keepTheSparksWorking .tavern
def mChapel (s : PlanState) : Subtasks := nextOf s .keepTheSparksWorking .chapel

def mSaveForSparks (s : PlanState) : Subtasks :=
  if !isBuilt s .tavern || !isBuilt s .den || !isBuilt s .chapel then some [.act .hold] else none

def mThenTheWord (_ : PlanState) : Subtasks := some [.compound .letWordGetOut]

def mRow (s : PlanState) : Subtasks :=
  if isBuilt s .row || s.roomToGrow ≤ 0 then none else some [.act (.commission .row)]

def mWait (_ : PlanState) : Subtasks := some [.act .hold]

def mRepairFirst (s : PlanState) : Subtasks :=
  if isBuilt s .den then none
  else if s.worstWear < wearThatCannotWait then none
  else some [.act (.commission .den), .compound .keepTheSparksWorking]

def mEarnFirst (_ : PlanState) : Subtasks := some [.compound .makeTheWardEarn]

/-- `d.task_methods`: method order is decision order. -/
def wardMethods : PlanTask → List (Method PlanState PlanAct PlanTask)
  | .runTheWard => [mRepairFirst, mEarnFirst]
  | .makeTheWardEarn => [mRails, mPlaza, mSaveToEarn, mThenTheSparks]
  | .keepTheSparksWorking => [mDen, mTavern, mChapel, mSaveForSparks, mThenTheWord]
  | .letWordGetOut => [mRow, mWait]

/-- `ward_domain`. -/
def wardDomain : Domain PlanState PlanAct PlanTask :=
  { act := planAct, methods := fun task => some (wardMethods task) }

/-- The first venue a plan commissions, or `-1`. -/
def firstCommission : List PlanAct → Int
  | [] => -1
  | .commission v :: _ => v.index
  | .hold :: rest => firstCommission rest

/-- `queen_plan`: `none` is a refusal. -/
def queenPlan (late : Nat → Bool) (view : WardView) : Option Int :=
  match seekPlan wardDomain late maxDepth view [.compound .runTheWard] {} with
  | (plan, memo) => if memo.budget.fired then none else plan.map firstCommission

end GyreWard
