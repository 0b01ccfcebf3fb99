/-
Module: GyreWard.Proofs.Bracket
Purpose: When a cycle or a payment ends the transaction group it began.
Trusted boundary: none
Main exports: World.bracket, Holding, Ended, ended_groupAbort, ended_groupCommit, EndsItsGroups,
  GroupStarts, begun_groups_end_iff
-/
import GyreWard.Model.Service
import GyreWard.Proofs.Moves
import GyreWard.Proofs.Groups

namespace GyreWard

open Lib
open Lib.Action (MadeOf Leaves wp)

/-- What a group is held by: the lock, the plane's open group, the group on the stack, and the
`weft_txn_*` calls so far. -/
structure Bracket where
  locked : Bool
  isOpen : Bool
  txn : Nat
  mine : Nat
  calls : List TxnCall

def World.bracket (w : World) : Bracket :=
  { locked := w.plane.locked, isOpen := w.plane.isOpen, txn := w.plane.txn, mine := w.grp.txn
    calls := w.plane.calls }

theorem leaves_bracket_fallible : Leaves World.bracket fallible := by
  intro w
  rw [fallible_eq]
  split <;> rfl

theorem leaves_bracket_update (f : Gyre → Option Gyre) : Leaves World.bracket (update f) := by
  intro w
  unfold update
  split <;> rfl

/-- What stays inside the group leaves its bracket alone. -/
theorem Inside.leaves_bracket {α : Type} {x : Action World α} (inside : Inside α x) :
    Leaves World.bracket x := by
  cases inside with
  | fallible => exact leaves_bracket_fallible
  | update f => exact leaves_bracket_update f
  | remember f => exact fun _ => rfl
  | takePart h => exact fun _ => rfl
  | enlist h => exact fun _ => rfl

theorem leaves_bracket {α : Type} {x : Action World α} (made : MadeOf Inside α x) :
    Leaves World.bracket x :=
  made.leaves fun _ _ inside => inside.leaves_bracket

/-- Group `txn` is open and held, and the calls before it were `calls`. -/
def Holding (txn : Nat) (calls : List TxnCall) (w : World) : Prop :=
  w.bracket =
    { locked := true, isOpen := true, txn, mine := txn, calls := calls ++ [.began txn] }

/-- Group `txn` has been ended by one call, and the lock is free. -/
structure Ended (txn : Nat) (calls : List TxnCall) (w : World) : Prop where
  free : w.plane.locked = false
  ending : w.plane.calls = calls ++ [.began txn, .committed txn] ∨
    w.plane.calls = calls ++ [.began txn, .aborted txn]

section Ending

variable {txn : Nat} {calls : List TxnCall} {w : World}

theorem Holding.of_same {w' : World} (holding : Holding txn calls w)
    (same : w'.bracket = w.bracket) : Holding txn calls w' :=
  same.trans holding

theorem Ended.of_same {w' : World} (ended : Ended txn calls w)
    (same : w'.bracket = w.bracket) : Ended txn calls w' := by
  obtain ⟨free, ending⟩ := ended
  have locked : w'.plane.locked = w.plane.locked := congrArg Bracket.locked same
  have made : w'.plane.calls = w.plane.calls := congrArg Bracket.calls same
  exact ⟨locked.trans free, by rwa [made]⟩

/-- Work inside a held group comes back with the group held. -/
theorem wp_inside {α : Type} {x : Action World α} (made : MadeOf Inside α x)
    (holding : Holding txn calls w) :
    wp x (fun _ => Holding txn calls) (Holding txn calls) w :=
  Action.wp_mono ((leaves_bracket made).wp w) (fun _ _ same => holding.of_same same)
    fun _ same => holding.of_same same

theorem ended_weftTxnAbort (holding : Holding txn calls w) {E : World → Prop} :
    wp (weftTxnAbort txn) (fun _ => Ended txn calls) E w := by
  have isOpen : w.plane.isOpen = true := congrArg Bracket.isOpen holding
  have mine : w.plane.txn = txn := congrArg Bracket.txn holding
  have made : w.plane.calls = calls ++ [.began txn] := congrArg Bracket.calls holding
  have stillOpen : ¬ (¬ w.plane.isOpen = true ∨ w.plane.txn ≠ txn) := by simp [isOpen, mine]
  unfold weftTxnAbort observe
  rw [Action.wp_bind, Action.wp_modify, Action.wp_bind, Action.wp_read]
  refine Action.wp_ite (fun closed => absurd closed stillOpen) fun _ => ?_
  exact ⟨rfl, Or.inr (by simp [World.setPlane, made])⟩

theorem ended_weftTxnCommit (holding : Holding txn calls w) :
    wp (weftTxnCommit txn) (fun _ => Ended txn calls) (Ended txn calls) w := by
  have isOpen : w.plane.isOpen = true := congrArg Bracket.isOpen holding
  have mine : w.plane.txn = txn := congrArg Bracket.txn holding
  have made : w.plane.calls = calls ++ [.began txn] := congrArg Bracket.calls holding
  have stillOpen : ¬ (¬ w.plane.isOpen = true ∨ w.plane.txn ≠ txn) := by simp [isOpen, mine]
  -- the group is closed before the code looks at whether the record was written
  have closed : ∀ w' : World, w'.plane.calls = calls ++ [.began txn, .committed txn] →
      Ended txn calls (w'.setPlane fun p => { p with isOpen := false, locked := false }) :=
    fun w' made => ⟨rfl, Or.inl made⟩
  unfold weftTxnCommit observe
  rw [Action.wp_bind, Action.wp_modify, Action.wp_bind, Action.wp_read]
  refine Action.wp_ite (fun closed => absurd closed stillOpen) fun _ => ?_
  rw [Action.wp_bind, Action.wp_attempt]
  have recorded := leaves_bracket_fallible.wp
    (w.setPlane fun p => { p with calls := p.calls ++ [.committed txn] })
  refine Action.wp_mono recorded (fun _ w' same => ?_) fun w' same => ?_
  · refine closed w' ((congrArg Bracket.calls same).trans ?_)
    simp [World.bracket, World.setPlane, made]
  · refine closed w' ((congrArg Bracket.calls same).trans ?_)
    simp [World.bracket, World.setPlane, made]

/-- `group_abort` rolls every participant back and gives the lock up. -/
theorem ended_groupAbort (holding : Holding txn calls w) {E : World → Prop} :
    wp groupAbort (fun _ => Ended txn calls) E w := by
  have mine : w.grp.txn = txn := congrArg Bracket.mine holding
  have rolledBack : wp (Action.forEach w.grp.dbs sqlRollback) (fun _ => Holding txn calls) E w := by
    refine Action.wp_forEach (I := fun _ => Holding txn calls) holding ?_
    intro h rest w holding
    cases h with
    | ward => exact holding.of_same rfl
    | spark i => exact holding.of_same rfl
  unfold groupAbort
  rw [Action.wp_bind, Action.wp_read, Action.wp_bind]
  refine Action.wp_mono rolledBack (fun _ w' holding => ?_) fun _ h => h
  rw [mine]
  exact ended_weftTxnAbort holding

/-- `group_commit` ends the group whether or not it lands. -/
theorem ended_groupCommit (holding : Holding txn calls w) :
    wp groupCommit (fun _ => Ended txn calls) (Ended txn calls) w := by
  have mine : w.grp.txn = txn := congrArg Bracket.mine holding
  have committed : MadeOf Inside Unit (Action.forEach w.grp.dbs sqlCommit) :=
    .forEach fun h _ => made_sqlCommit h
  unfold groupCommit
  rw [Action.wp_bind, Action.wp_read, Action.wp_bind, Action.wp_onFail]
  refine Action.wp_mono (wp_inside committed holding) (fun _ w' holding => ?_) fun w' holding => ?_
  · rw [mine]
    exact ended_weftTxnCommit holding
  · exact ended_groupAbort holding

/-- What `cycle` does once its group has begun. -/
def cycleGroup : Action World Unit := do
  let arriving ← Action.onFail cycleWrites groupAbort
  groupCommit
  if arriving then
    let g ← Action.read (·.g)
    joinWard (g.wardNo * sparksPerWard + g.nsparks)

/-- What `pay_alone` does once its group has begun. -/
def payGroup (i : Nat) (amount : Int) (item : Option (Text × Text)) : Action World Unit := do
  Action.onFail (pay i amount item) groupAbort
  Action.onFail groupCommit (remember (Gyre.paid i (-amount)))

theorem ended_joinWard (ended : Ended txn calls w) (id : Int) :
    wp (joinWard id) (fun _ => Ended txn calls) (Ended txn calls) w := by
  have joined : MadeOf Inside Unit (joinWard id) :=
    (made_joinWard id).mono fun _ _ moves => moves.inside
  exact Action.wp_mono ((leaves_bracket joined).wp w) (fun _ _ same => ended.of_same same)
    fun _ same => ended.of_same same

/-- A cycle whose group has begun ends it, however it comes back. -/
theorem ended_cycleGroup (holding : Holding txn calls w) :
    wp cycleGroup (fun _ => Ended txn calls) (Ended txn calls) w := by
  have wrote : MadeOf Inside Bool cycleWrites :=
    made_cycleWrites.mono fun _ _ moves => moves.inside
  unfold cycleGroup
  rw [Action.wp_bind, Action.wp_onFail]
  refine Action.wp_mono (wp_inside wrote holding) (fun arriving w' holding => ?_)
    fun _ holding => ended_groupAbort holding
  rw [Action.wp_bind]
  refine Action.wp_mono (ended_groupCommit holding) (fun _ w'' ended => ?_) fun _ ended => ended
  refine Action.wp_ite (fun _ => ?_) fun _ => ended
  rw [Action.wp_bind, Action.wp_read]
  exact ended_joinWard ended _

/-- A payment whose group has begun ends it, however it comes back. -/
theorem ended_payGroup (holding : Holding txn calls w) (i : Nat) (amount : Int)
    (item : Option (Text × Text)) :
    wp (payGroup i amount item) (fun _ => Ended txn calls) (Ended txn calls) w := by
  have paid : MadeOf Inside Unit (pay i amount item) :=
    (made_pay i amount item).mono fun _ _ moves => moves.inside
  unfold payGroup
  rw [Action.wp_bind, Action.wp_onFail]
  refine Action.wp_mono (wp_inside paid holding) (fun _ w' holding => ?_)
    fun _ holding => ended_groupAbort holding
  rw [Action.wp_onFail]
  refine Action.wp_mono (ended_groupCommit holding) (fun _ _ ended => ended) fun w'' ended => ?_
  exact ended.of_same rfl

end Ending

/-! ### Every group that is begun is ended -/

/-- Every group that is begun in these calls is committed once or aborted once, and not both. -/
def AllEnded (made : List TxnCall) : Prop :=
  ∀ txn, .began txn ∈ made → made.count (.committed txn) + made.count (.aborted txn) = 1

/-- If the call comes back, it has ended every group it began, and the lock is free. -/
def EndsItsGroups {α : Type} (x : Action World α) (w : World) : Prop :=
  (x w).1 ≠ .halt →
    (x w).2.plane.locked = false ∧
      ∃ made, (x w).2.plane.calls = w.plane.calls ++ made ∧ AllEnded made

/-- The lock is held already, or `weft_txn_begin` fails, or the ward joins the group: the plane
fails neither `weft_txn_join` nor `BEGIN`, and the ward is open and in no transaction. -/
def GroupStarts (w : World) : Prop :=
  w.plane.locked = true ∨ w.plane.faults w.plane.tick = true ∨
    (w.plane.faults (w.plane.tick + 1) = false ∧ w.plane.faults (w.plane.tick + 2) = false ∧
      w.g.ward.isOpen = true ∧ w.g.ward.saved = none)

section Calls

variable {α : Type} {w : World}

theorem allEnded_nil : AllEnded [] := fun _ h => absurd h List.not_mem_nil

theorem Ended.allEnded {txn : Nat} {calls : List TxnCall} (ended : Ended txn calls w) :
    ∃ made, w.plane.calls = calls ++ made ∧ AllEnded made := by
  rcases ended.ending with committed | aborted
  · refine ⟨_, committed, fun other begun => ?_⟩
    obtain rfl : other = txn := by simpa using begun
    simp
  · refine ⟨_, aborted, fun other begun => ?_⟩
    obtain rfl : other = txn := by simpa using begun
    simp

theorem endsItsGroups_of_wp {x : Action World α} {txn : Nat}
    (ends : wp x (fun _ => Ended txn w.plane.calls) (Ended txn w.plane.calls) w) :
    EndsItsGroups x w := by
  intro returned
  unfold Action.wp at ends
  rcases run : x w with ⟨_ | _ | _, w'⟩ <;> rw [run] at ends
  · exact ⟨ends.free, ends.allEnded⟩
  · exact ⟨ends.free, ends.allEnded⟩
  · exact absurd (congrArg Prod.fst run) returned

/-- The ward's part in a group it cannot join: begun, and held for good. -/
theorem stuck_of_refused (w : World)
    (refused : ¬ (w.plane.faults (w.plane.tick + 1) = false ∧
      w.plane.faults (w.plane.tick + 2) = false ∧ w.g.CanBegin .ward)) :
    ∃ w', groupJoin .ward w.begun = (.fail, w') ∧
      Holding (w.plane.lastTxn + 1) w.plane.calls w' := by
  obtain ⟨w', run, _, _⟩ := groupJoin_refused (hasRoom_begun w) refused
  refine ⟨w', run, ?_⟩
  have joining : MadeOf Inside Unit (groupJoin .ward) :=
    (made_groupJoin .ward).mono fun _ _ moves => moves.inside
  have same := leaves_bracket joining w.begun
  rw [run] at same
  exact same

/-- A call that begins a group, and from then on always ends it, ends its groups exactly when the
group starts. -/
theorem bracketed_iff {rest : Action World α}
    (ends : ∀ w txn calls, Holding txn calls w →
      wp rest (fun _ => Ended txn calls) (Ended txn calls) w) (w : World) :
    EndsItsGroups (groupBegin >>= fun _ => rest) w ↔ GroupStarts w := by
  have begins := groupBegin_eq w
  cases locked : w.plane.locked with
  | true =>
      rw [locked, if_pos rfl] at begins
      have halts : (groupBegin >>= fun _ => rest) w = (.halt, { w with grp := {} }) := by
        rw [Action.bind_apply, begins]
      refine iff_of_true (fun returned => ?_) (Or.inl locked)
      exact absurd (congrArg Prod.fst halts) returned
  | false =>
    rw [locked, if_neg Bool.false_ne_true] at begins
    cases first : w.plane.faults w.plane.tick with
    | true =>
        rw [first, if_pos rfl] at begins
        refine iff_of_true (fun _ => ?_) (Or.inr (Or.inl first))
        rw [Action.bind_fail begins]
        exact ⟨locked, [], (List.append_nil _).symm, allEnded_nil⟩
    | false =>
      rw [first, if_neg Bool.false_ne_true] at begins
      by_cases joins : w.plane.faults (w.plane.tick + 1) = false ∧
          w.plane.faults (w.plane.tick + 2) = false ∧ w.g.CanBegin .ward
      · have lands := groupJoin_lands (hasRoom_begun w) joins.2.2 joins.1 joins.2.1
        have holding : Holding (w.plane.lastTxn + 1) w.plane.calls (w.begun.joined .ward) := rfl
        refine iff_of_true ?_ (Or.inr (Or.inr joins))
        exact endsItsGroups_of_wp (Action.wp_bind_ret (begins.trans lands) (ends _ _ _ holding))
      · obtain ⟨w', refused, holding⟩ := stuck_of_refused w joins
        have made : w'.plane.calls = w.plane.calls ++ [.began (w.plane.lastTxn + 1)] :=
          congrArg Bracket.calls holding
        refine iff_of_false (fun ended => ?_) fun starts => ?_
        · unfold EndsItsGroups at ended
          rw [Action.bind_fail (begins.trans refused)] at ended
          have held : w'.plane.locked = true := congrArg Bracket.locked holding
          have free := (ended (by simp)).1
          rw [held] at free
          exact Bool.noConfusion free
        · rcases starts with h | h | h
          · rw [locked] at h
            exact Bool.noConfusion h
          · rw [first] at h
            exact Bool.noConfusion h
          · exact joins h

end Calls

/-- A cycle and a payment end every group they begin, and leave the lock free, exactly when the
ward joins the group: a ward that cannot join leaves `group_begin` with the group it began. -/
theorem begun_groups_end_iff (w : World) :
    (EndsItsGroups cycle w ↔ GroupStarts w) ∧
      ∀ i amount item, EndsItsGroups (payAlone i amount item) w ↔ GroupStarts w := by
  constructor
  · -- the cycle counter is neither the plane's nor the connection's
    have counted : EndsItsGroups cycle w ↔
        EndsItsGroups (groupBegin >>= fun _ => cycleGroup)
          (w.setGyre fun g => { g with cycle := g.cycle + 1 }) := Iff.rfl
    rw [counted, bracketed_iff fun _ _ _ holding => ended_cycleGroup holding]
    rfl
  · intro i amount item
    exact bracketed_iff (fun _ _ _ holding => ended_payGroup holding i amount item) w

/-- A founded ward whose plane fails one `weft_txn_join`, the one of its first cycle. -/
def refusedJoin : World := World.founded 0 1 fun k => k == 13

/-- The first cycle of that ward fails with its group begun and the lock held, and the next one
never comes back. -/
theorem refused_join_keeps_the_lock :
    (foundWard liveName 0 1 0 (World.fresh fun k => k == 13)).1 = .ret () ∧
      ¬ EndsItsGroups cycle refusedJoin ∧ (cycle (cycle refusedJoin).2).1 = .halt := by
  have founded : (foundWard liveName 0 1 0 (World.fresh fun k => k == 13)).1 = .ret () := by
    decide +kernel
  have failed : (cycle refusedJoin).1 = .fail := by decide +kernel
  have held : (cycle refusedJoin).2.plane.locked = true := by decide +kernel
  have waits : (cycle (cycle refusedJoin).2).1 = .halt := by decide +kernel
  have returned : (cycle refusedJoin).1 ≠ .halt := by
    rw [failed]
    exact nofun
  refine ⟨founded, fun ended => ?_, waits⟩
  have free := (ended returned).1
  rw [held] at free
  exact Bool.noConfusion free

end GyreWard
