/-
Module: GyreWard.Proofs.SideBySide
Purpose: Two wards alike stay alike: through their groups, a payment, a cycle, every command and its
  reply.
Trusted boundary: none
Main exports: lockstep_groupBegin, lockstep_groupCommit, blind_payAlone, blind_cycle, blind_command,
  blind_wardAsk
-/
import GyreWard.Proofs.Alike
import GyreWard.Proofs.FailedCycle

namespace GyreWard

open Lib
open Lib.Action (Blind Lockstep Same)

/-! ### Groups -/

/-- Two wards alike, in groups with these numbers. -/
structure Numbered (txn txn' : Nat) (v w : World) : Prop where
  grouped : Grouped v w
  left : v.grp.txn = txn
  right : w.grp.txn = txn'

theorem Grouped.oneGroup {v w : World} (grouped : Grouped v w) : OneGroup v w :=
  grouped.alike.group grouped.held

theorem sees_numbered (txn txn' : Nat) : Sees (Numbered txn txn') where
  alike := fun _ _ numbered => numbered.grouped.alike
  after := fun v w numbered =>
    ⟨sees_grouped.after v w numbered.grouped, numbered.left, numbered.right⟩
  setGyre := fun v w numbered g begun =>
    ⟨sees_grouped.setGyre v w numbered.grouped g begun, numbered.left, numbered.right⟩

/-- The plane takes the same participant into both groups. -/
theorem Grouped.takePart {v w : World} (grouped : Grouped v w) (h : Handle) :
    Grouped (v.setPlane fun p => { p with parts := p.parts ++ [h] })
      (w.setPlane fun p => { p with parts := p.parts ++ [h] }) := by
  have alike := grouped.alike
  have one := grouped.oneGroup
  constructor
  · exact {
      g := alike.g
      begun := alike.begun
      ahead := ⟨alike.ahead.faults, alike.ahead.disk⟩
      locked := alike.locked
      group := fun _ => ⟨one.isOpen, one.mine, one.dbs, congrArg (· ++ [h]) one.parts⟩ }
  · exact grouped.held

/-- The same participant stands in both groups on the stack. -/
theorem Grouped.enlist {v w : World} (grouped : Grouped v w) (h : Handle) :
    Grouped (v.setGroup fun grp => { grp with dbs := grp.dbs ++ [h] })
      (w.setGroup fun grp => { grp with dbs := grp.dbs ++ [h] }) := by
  have alike := grouped.alike
  have one := grouped.oneGroup
  constructor
  · exact {
      g := alike.g
      begun := alike.begun
      ahead := ⟨alike.ahead.faults, alike.ahead.disk⟩
      locked := alike.locked
      group := fun _ => ⟨one.isOpen, one.mine, congrArg (· ++ [h]) one.dbs, one.parts⟩ }
  · exact grouped.held

/-- What the planes note of their calls makes no difference. -/
theorem Numbered.observed {txn txn' : Nat} {v w : World} (numbered : Numbered txn txn' v w)
    (call call' : TxnCall) :
    Numbered txn txn' (v.setPlane fun p => { p with calls := p.calls ++ [call] })
      (w.setPlane fun p => { p with calls := p.calls ++ [call'] }) := by
  have alike := numbered.grouped.alike
  have one := numbered.grouped.oneGroup
  have noted : Alike (v.setPlane fun p => { p with calls := p.calls ++ [call] })
      (w.setPlane fun p => { p with calls := p.calls ++ [call'] }) := {
    g := alike.g
    begun := alike.begun
    ahead := ⟨alike.ahead.faults, alike.ahead.disk⟩
    locked := alike.locked
    group := fun _ => ⟨one.isOpen, one.mine, one.dbs, one.parts⟩ }
  exact ⟨⟨noted, numbered.grouped.held⟩, numbered.left, numbered.right⟩

/-- Two planes let their groups go. -/
theorem Grouped.release {v w : World} (grouped : Grouped v w) {p q : Plane}
    (ahead : SameAhead { v with plane := p } { w with plane := q })
    (free : p.locked = false ∧ q.locked = false) :
    Alike { v with plane := p } { w with plane := q } where
  g := grouped.alike.g
  begun := grouped.alike.begun
  ahead := ahead
  locked := free.1.trans free.2.symm
  group := fun held => absurd (free.1.symm.trans held) nofun

/-- A participant joins the group, under whatever number each plane has given it. -/
theorem lockstep_weftTxnJoin (h : Handle) (txn txn' : Nat) :
    Lockstep (Numbered txn txn') (weftTxnJoin h txn) (weftTxnJoin h txn') (fun _ => Grouped)
      Grouped := by
  unfold weftTxnJoin
  apply Lockstep.bind ((blind_fallible (sees_numbered txn txn')).mono (fun _ _ numbered => numbered)
    (fun _ _ _ after => after) fun _ _ after => after.grouped)
  intro _
  apply Lockstep.peek
  intro v w numbered
  have grouped := numbered.grouped
  have one := grouped.oneGroup
  have mine := one.mine.1.trans numbered.left
  have mine' := one.mine.2.trans numbered.right
  simp only [id, grouped.alike.g, one.isOpen.1, one.isOpen.2, mine, mine', one.parts]
  have joined : Blind Grouped (if h ∈ w.plane.parts then pure ()
      else Action.modify (World.setPlane fun p => { p with parts := p.parts ++ [h] })) := by
    apply Lockstep.ite
    · intro _
      exact .pure _
    · intro _
      exact .modify fun _ _ grouped => grouped.takePart h
  have decided : Blind Grouped
      (if ¬ w.g.isConnected h = true ∨ ¬ true = true ∨ txn ≠ txn then Action.fail
        else if txnMaxParts ≤ w.plane.parts.length then Action.fail
        else if h ∈ w.plane.parts then pure ()
        else Action.modify (World.setPlane fun p => { p with parts := p.parts ++ [h] })) :=
    .ite (fun _ => .fail) fun _ => .ite (fun _ => .fail) fun _ => joined
  simpa using decided v w grouped

theorem blind_sqlBegin {R : World → World → Prop} (sees : Sees R) (h : Handle) :
    Blind R (sqlBegin h) := by
  cases h with
  | ward => exact (blind_fallible sees).bind fun _ => blind_onWard sees _
  | spark i => exact (blind_fallible sees).bind fun _ => blind_onSpark sees i _

theorem blind_sqlCommit {R : World → World → Prop} (sees : Sees R) (h : Handle) :
    Blind R (sqlCommit h) := by
  cases h with
  | ward => exact (blind_fallible sees).bind fun _ => blind_onWard sees _
  | spark i => exact (blind_fallible sees).bind fun _ => blind_onSpark sees i _

theorem blind_sqlRollback {R : World → World → Prop} (sees : Sees R) (h : Handle) :
    Blind R (sqlRollback h) := by
  cases h with
  | ward => exact blind_remember sees _ fun _ begun => begun
  | spark i => exact blind_remember sees _ fun _ begun => begun

theorem blind_groupJoin (h : Handle) : Blind Grouped (groupJoin h) := by
  unfold groupJoin
  apply Lockstep.peek
  intro v w grouped
  rw [grouped.oneGroup.dbs]
  have joined : Lockstep (Numbered v.grp.txn w.grp.txn)
      (do
        weftTxnJoin h v.grp.txn
        sqlBegin h
        Action.modify <| World.setGroup fun grp => { grp with dbs := grp.dbs ++ [h] })
      (do
        weftTxnJoin h w.grp.txn
        sqlBegin h
        Action.modify <| World.setGroup fun grp => { grp with dbs := grp.dbs ++ [h] })
      (fun _ => Grouped) Grouped := by
    apply Lockstep.bind (lockstep_weftTxnJoin h _ _)
    intro _
    apply Lockstep.bind (blind_sqlBegin sees_grouped h)
    intro _
    exact .modify fun _ _ grouped => grouped.enlist h
  have decided : Lockstep (Numbered v.grp.txn w.grp.txn)
      (if h ∈ w.grp.dbs then pure ()
        else if txnMaxParts ≤ w.grp.dbs.length then Action.fail
        else do
          weftTxnJoin h v.grp.txn
          sqlBegin h
          Action.modify <| World.setGroup fun grp => { grp with dbs := grp.dbs ++ [h] })
      (if h ∈ w.grp.dbs then pure ()
        else if txnMaxParts ≤ w.grp.dbs.length then Action.fail
        else do
          weftTxnJoin h w.grp.txn
          sqlBegin h
          Action.modify <| World.setGroup fun grp => { grp with dbs := grp.dbs ++ [h] })
      (fun _ => Grouped) Grouped := by
    apply Lockstep.ite
    · intro _
      exact fun _ _ numbered => .ret numbered.grouped
    · intro _
      apply Lockstep.ite
      · intro _
        exact fun _ _ numbered => .fail numbered.grouped
      · intro _
        exact joined
  exact decided v w ⟨grouped, rfl, rfl⟩

/-- Beginning a group: the one each plane opens has its own number. -/
theorem lockstep_groupBegin :
    Lockstep Alike groupBegin groupBegin (fun _ => Grouped) Alike := by
  intro v w alike
  have same : v.plane.faults v.plane.tick = w.plane.faults w.plane.tick := alike.ahead.faults 0
  have next := sees_alike.after v w alike
  rw [groupBegin_eq, groupBegin_eq, ← alike.locked, ← same]
  cases held : v.plane.locked with
  | true => exact .halt
  | false =>
      cases v.plane.faults v.plane.tick with
      | true =>
          apply Same.fail
          exact {
            g := next.g
            begun := next.begun
            ahead := ⟨next.ahead.faults, next.ahead.disk⟩
            locked := next.locked
            group := fun taken => absurd (held.symm.trans taken) nofun }
      | false =>
          have begun : Alike v.begun w.begun := {
            g := next.g
            begun := next.begun
            ahead := ⟨next.ahead.faults, next.ahead.disk⟩
            locked := rfl
            group := fun _ => ⟨⟨rfl, rfl⟩, ⟨rfl, rfl⟩, rfl, rfl⟩ }
          have joined := blind_groupJoin .ward v.begun w.begun ⟨begun, rfl⟩
          exact joined.mono (fun _ _ _ after => after) fun _ _ after => after.alike

theorem lockstep_weftTxnAbort (txn txn' : Nat) :
    Lockstep (Numbered txn txn') (weftTxnAbort txn) (weftTxnAbort txn') (fun _ => Alike) Alike := by
  unfold weftTxnAbort
  apply Lockstep.bind (Lockstep.modify fun _ _ numbered => numbered.observed _ _)
  intro _
  apply Lockstep.peek
  intro v w numbered
  have one := numbered.grouped.oneGroup
  have mine := one.mine.1.trans numbered.left
  have mine' := one.mine.2.trans numbered.right
  have ahead := numbered.grouped.alike.ahead
  simp only [one.isOpen.1, one.isOpen.2, mine, mine', not_true_eq_false, ne_eq, or_self,
    ↓reduceIte]
  exact .ret (numbered.grouped.release ⟨ahead.faults, ahead.disk⟩ ⟨rfl, rfl⟩)

/-- What `weft_txn_commit` does for the group that is open. -/
def recordGroup : Action World Unit := do
  let recorded ← Action.attempt fallible
  Action.modify <| World.setPlane fun p => { p with isOpen := false, locked := false }
  match recorded with
  | some () => pure ()
  | none => Action.fail

theorem lockstep_weftTxnCommit (txn txn' : Nat) :
    Lockstep (Numbered txn txn') (weftTxnCommit txn) (weftTxnCommit txn') (fun _ => Alike)
      Alike := by
  have closed : Lockstep (Numbered txn txn') recordGroup recordGroup (fun _ => Alike) Alike := by
    apply Lockstep.bind (Q := fun _ => Numbered txn txn')
    · apply Lockstep.attempt
      exact blind_fallible (sees_numbered txn txn')
    · intro recorded
      apply Lockstep.bind (Q := fun _ => Alike)
      · apply Lockstep.modify
        intro v w numbered
        have ahead := numbered.grouped.alike.ahead
        exact numbered.grouped.release ⟨ahead.faults, ahead.disk⟩ ⟨rfl, rfl⟩
      · intro _
        cases recorded with
        | none => exact .fail
        | some _ => exact .pure _
  unfold weftTxnCommit
  apply Lockstep.bind (Lockstep.modify fun _ _ numbered => numbered.observed _ _)
  intro _
  apply Lockstep.peek
  intro v w numbered
  have one := numbered.grouped.oneGroup
  have mine := one.mine.1.trans numbered.left
  have mine' := one.mine.2.trans numbered.right
  simp only [one.isOpen.1, one.isOpen.2, mine, mine', not_true_eq_false, ne_eq, or_self,
    ↓reduceIte]
  exact closed v w numbered

theorem lockstep_groupAbort : Lockstep Grouped groupAbort groupAbort (fun _ => Alike) Alike := by
  unfold groupAbort
  apply Lockstep.peek
  intro v w grouped
  rw [grouped.oneGroup.dbs]
  have aborted : Lockstep (Numbered v.grp.txn w.grp.txn)
      (do
        Action.forEach w.grp.dbs sqlRollback
        weftTxnAbort v.grp.txn)
      (do
        Action.forEach w.grp.dbs sqlRollback
        weftTxnAbort w.grp.txn)
      (fun _ => Alike) Alike := by
    apply Lockstep.bind (Q := fun _ => Numbered v.grp.txn w.grp.txn)
    · apply Lockstep.forEach
      intro h _
      exact (blind_sqlRollback (sees_numbered _ _) h).mono (fun _ _ numbered => numbered)
        (fun _ _ _ after => after) fun _ _ after => after.grouped.alike
    · intro _
      exact lockstep_weftTxnAbort _ _
  exact aborted v w ⟨grouped, rfl, rfl⟩

theorem lockstep_groupCommit : Lockstep Grouped groupCommit groupCommit (fun _ => Alike) Alike := by
  unfold groupCommit
  apply Lockstep.peek
  intro v w grouped
  rw [grouped.oneGroup.dbs]
  have committed : Lockstep (Numbered v.grp.txn w.grp.txn)
      (do
        Action.onFail (Action.forEach w.grp.dbs sqlCommit) groupAbort
        weftTxnCommit v.grp.txn)
      (do
        Action.onFail (Action.forEach w.grp.dbs sqlCommit) groupAbort
        weftTxnCommit w.grp.txn)
      (fun _ => Alike) Alike := by
    apply Lockstep.bind (Q := fun _ => Numbered v.grp.txn w.grp.txn)
    · apply Lockstep.onFail (F := Numbered v.grp.txn w.grp.txn)
      · apply Lockstep.forEach
        intro h _
        exact blind_sqlCommit (sees_numbered _ _) h
      · exact lockstep_groupAbort.mono (fun _ _ numbered => numbered.grouped)
          (fun _ _ _ after => after) fun _ _ after => after
    · intro _
      exact lockstep_weftTxnCommit _ _
  exact committed v w ⟨grouped, rfl, rfl⟩

/-! ### Paying -/

theorem blind_pay (i : Nat) (amount : Int) (item : Option (Text × Text)) :
    Blind Grouped (pay i amount item) := by
  have paid : Blind Grouped (remember (Gyre.paid i amount)) :=
    blind_remember sees_grouped _ fun _ begun => begun
  unfold pay
  apply Lockstep.bind (blind_groupJoin _)
  intro _
  apply Lockstep.bind (blind_read sees_grouped fun g => (g.sparks[i]?.map (·.id)).getD 0)
  intro id
  apply Lockstep.bind (blind_book sees_grouped _ _ _)
  intro _
  apply Lockstep.bind (blind_runSpark sees_grouped i _)
  intro _
  cases item with
  | none => exact paid
  | some named =>
      apply Lockstep.bind (blind_read sees_grouped (·.cycle))
      intro _
      exact .bind (blind_runSpark sees_grouped i _) fun _ => paid

theorem blind_payAlone (i : Nat) (amount : Int) (item : Option (Text × Text)) :
    Blind Alike (payAlone i amount item) := by
  unfold payAlone
  apply Lockstep.bind lockstep_groupBegin
  intro _
  apply Lockstep.bind (Q := fun _ => Grouped)
  · apply Lockstep.onFail
    · exact blind_pay i amount item
    · exact lockstep_groupAbort
  · intro _
    apply Lockstep.onFail
    · exact lockstep_groupCommit
    · exact blind_remember sees_alike _ fun _ begun => begun

/-! ### One cycle -/

theorem blind_movePlace {α : Type} {rest : Int → Action World α} (i id : Nat)
    (column : BoardRow → Int) (f : Int → Place → Place) (went : ∀ x, Blind Grouped (rest x)) :
    Blind Grouped (do
      let x ← scalar64Ward (selectContract id column)
      remember (Gyre.movePlace i (f x))
      rest x) := by
  apply Lockstep.bind (blind_scalarOr sees_grouped _ _)
  intro x
  exact .bind (blind_remember sees_grouped _ fun _ begun => begun) fun _ => went x

theorem blind_goToWork (i id : Nat) : Blind Grouped (goToWork i id) := by
  unfold goToWork
  apply blind_movePlace i id (·.place.x) fun x p => { p with x := x }
  intro _
  apply blind_movePlace i id (·.place.y) fun y p => { p with y := y }
  intro _
  apply blind_movePlace i id (·.place.z) fun z p => { p with z := z }
  intro _
  apply Lockstep.bind (blind_groupJoin _)
  intro _
  apply Lockstep.bind (blind_read sees_grouped fun g => g)
  intro g
  cases g.sparks[i]? with
  | some s => exact blind_runSpark sees_grouped i _
  | none => exact .pure _

theorem blind_settleContract (i id : Nat) (won : Bool) (earned : Int) (item : Option Text) :
    Blind Grouped (settleContract i id won earned item) := by
  unfold settleContract
  apply Lockstep.bind (blind_built sees_grouped 1)
  intro repaired
  apply Lockstep.bind (blind_remember sees_grouped (Gyre.setWear i (wornBy won repaired))
    fun _ begun => begun)
  intro _
  apply Lockstep.bind (blind_runWard sees_grouped _)
  intro _
  apply Lockstep.bind (blind_read sees_grouped (·.treasury))
  intro treasury
  apply Lockstep.ite
  · intro _
    exact .bind (blind_pay _ _ _) fun _ => blind_goToWork i id
  · intro _
    exact blind_goToWork i id

theorem blind_workContract (i : Nat) (s : Spark) (id : Nat) : Blind Grouped (workContract i s id) := by
  unfold workContract
  apply Lockstep.bind (blind_scalarOr sees_grouped _ _)
  intro payout
  apply Lockstep.bind (blind_scalarOr sees_grouped _ _)
  intro risk
  apply Lockstep.bind (blind_draw sees_grouped 100)
  intro roll
  apply Lockstep.ite
  · intro _
    apply Lockstep.bind (.bind (blind_keepContract sees_grouped _ _) fun _ => .pure _)
    intro item
    exact blind_settleContract _ _ _ _ _
  · intro _
    exact blind_settleContract _ _ _ _ _

theorem blind_sparkTurn (i : Nat) : Blind Grouped (sparkTurn i) := by
  unfold sparkTurn
  apply Lockstep.bind (blind_choose sees_grouped i)
  intro id
  apply Lockstep.ite
  · intro _
    exact .pure _
  · intro _
    apply Lockstep.bind (blind_read sees_grouped fun g => g.sparks[i]?)
    intro s
    cases s with
    | some s => exact blind_workContract _ _ _
    | none => exact .pure _

theorem lockstep_cycleWrites :
    Lockstep (fun v w => Grouped v w ∧ 1 ≤ v.g.cycle) cycleWrites cycleWrites (fun _ => Grouped)
      Grouped := by
  unfold cycleWrites
  apply Lockstep.bind (lockstep_commission sees_grouped)
  intro decided
  apply Lockstep.guard
  intro _
  apply Lockstep.bind (blind_postBoard sees_grouped)
  intro _
  apply Lockstep.bind (blind_read sees_grouped (·.sparks.length))
  intro n
  apply Lockstep.bind (.forEach fun i _ => blind_sparkTurn i)
  intro _
  apply Lockstep.bind (blind_debtClock sees_grouped)
  intro _
  apply Lockstep.bind (blind_built sees_grouped 5)
  intro row
  apply Lockstep.bind (blind_read sees_grouped id)
  intro g
  exact .bind (blind_runWard sees_grouped _) fun _ => .pure _

/-- A cycle, whose count keeps the clock out of the Queen's plan. -/
theorem blind_cycle : Blind Alike cycle := by
  unfold cycle
  have counted : Lockstep Alike (remember fun g => { g with cycle := g.cycle + 1 })
      (remember fun g => { g with cycle := g.cycle + 1 })
      (fun _ v w => Alike v w ∧ 1 ≤ v.counter) Alike := by
    apply Lockstep.modify
    intro v w alike
    have begun : 1 ≤ v.g.cycle + 1 := Int.le_add_of_nonneg_left alike.begun
    have next := sees_alike.setGyre v w alike { v.g with cycle := v.g.cycle + 1 }
      (le_trans Int.one_nonneg begun)
    constructor
    · unfold World.setGyre
      rw [← alike.g]
      exact next
    · exact begun
  apply Lockstep.bind counted
  intro _
  apply Lockstep.bind (lockstep_groupBegin.frame uncounted_groupBegin.leaves (1 ≤ ·))
  intro _
  apply Lockstep.bind (Q := fun _ => Grouped)
  · apply Lockstep.onFail
    · exact lockstep_cycleWrites
    · exact lockstep_groupAbort
  · intro arriving
    apply Lockstep.bind lockstep_groupCommit
    intro _
    apply Lockstep.ite
    · intro _
      exact .bind (blind_read sees_alike id) fun _ => blind_joinWard sees_alike _
    · intro _
      exact .pure _

/-! ### Commands -/

theorem blind_cycleLoop (n : Nat) : Blind Alike (cycleLoop n) := by
  induction n with
  | zero => exact .pure _
  | succ n ih =>
      unfold cycleLoop
      apply Lockstep.bind (Q := fun _ => Alike)
      · apply Lockstep.attempt
        exact blind_cycle
      · intro cycled
        cases cycled with
        | none => exact .pure _
        | some _ =>
            apply Lockstep.bind (blind_honest sees_alike)
            intro honest
            apply Lockstep.ite
            · intro _
              exact ih
            · intro _
              exact .pure _

theorem blind_runCycle (n : Option Int) : Blind Alike (runCycle n) := by
  unfold runCycle
  apply Lockstep.bind (blind_cycleLoop _)
  intro why
  cases why with
  | none => exact .pure _
  | some _ => exact .pure _

theorem blind_runCommission (venue : Option Int) : Blind Alike (runCommission venue) := by
  unfold runCommission
  apply Lockstep.bind (Q := fun _ => Alike)
  · apply Lockstep.attempt
    exact blind_buildVenue sees_alike _
  · intro built
    cases built with
    | none => exact .pure _
    | some _ => exact .pure _

theorem blind_runPay (who amount : Option Int) : Blind Alike (runPay who amount) := by
  unfold runPay
  apply Lockstep.bind (blind_read sees_alike id)
  intro g
  cases findSpark (who.getD (-1)) g.sparks with
  | none => exact .pure _
  | some i =>
      apply Lockstep.ite
      · intro _
        exact .pure _
      · intro _
        apply Lockstep.bind (Q := fun _ => Alike)
        · apply Lockstep.attempt
          exact blind_payAlone i _ none
        · intro paid
          cases paid with
          | none => exact .pure _
          | some _ => exact .pure _

theorem blind_closeWard : Blind Alike closeWard :=
  blind_remember sees_alike _ fun _ begun => begun

theorem blind_runRestart : Blind Alike runRestart := by
  unfold runRestart
  apply Lockstep.bind (blind_read sees_alike id)
  intro g
  apply Lockstep.bind blind_closeWard
  intro _
  apply Lockstep.bind (blind_remember sees_alike (fun _ => Gyre.zero) fun _ _ => Int.le_refl 0)
  intro _
  apply Lockstep.bind (Q := fun _ => Alike)
  · apply Lockstep.attempt
    exact blind_foundWard sees_alike _ _ _ _
  · intro founded
    cases founded with
    | some _ => exact .pure _
    | none =>
        apply Lockstep.bind (Q := fun _ => Alike)
        · apply Lockstep.modify
          intro v w alike
          exact {
            g := alike.g
            begun := alike.begun
            ahead := ⟨alike.ahead.faults, alike.ahead.disk⟩
            locked := alike.locked
            group := fun held =>
              have one := alike.group held
              ⟨one.isOpen, one.mine, one.dbs, one.parts⟩ }
        · intro _
          exact .pure _

theorem blind_command (command : Command) : Blind Alike command.run := by
  cases command with
  | look => exact .pure _
  | cycle n => exact blind_runCycle n
  | commission venue => exact blind_runCommission venue
  | pay who amount => exact blind_runPay who amount
  | restart => exact blind_runRestart
  | quit => exact .pure _
  | unknown => exact .pure _

/-! ### Replies -/

theorem blind_sayRows (key : Text) (select : WardTables → List (List SqlValue)) (ncols : Nat)
    (cols : List Text) (c : Cbor) : Blind Alike (sayRows key select ncols cols c) := by
  unfold sayRows
  apply Lockstep.bind (Q := fun _ => Alike)
  · apply Lockstep.attempt
    exact blind_fallible sees_alike
  · intro prepared
    apply Lockstep.bind (blind_read sees_alike id)
    intro g
    apply Lockstep.ite
    · intro _
      exact .pure _
    · intro _
      exact .pure _

theorem blind_saySparkLoop (sparks : List Spark) (i : Nat) (c : Cbor) :
    Blind Alike (saySparkLoop sparks i c) := by
  induction sparks generalizing i c with
  | nil => exact .pure _
  | cons s rest ih =>
      unfold saySparkLoop
      apply Lockstep.bind (blind_scalarOr sees_alike _ _)
      intro wire
      apply Lockstep.bind (blind_scalarOr sees_alike _ _)
      intro owner
      exact ih _ _

theorem blind_sayWard (c : Cbor) : Blind Alike (sayWard c) := by
  unfold sayWard
  apply Lockstep.bind (blind_read sees_alike id)
  intro g
  apply Lockstep.bind (blind_sayRows _ _ _ _ _)
  intro c
  apply Lockstep.bind (blind_sayRows _ _ _ _ _)
  intro c
  exact .bind (blind_read sees_alike id) fun _ => blind_saySparkLoop _ _ _

theorem blind_wardReply (a : Answer) (c : Cbor) : Blind Alike (wardReply a c) := by
  unfold wardReply replyHonest
  apply Lockstep.bind (Q := fun _ => Alike)
  · apply Lockstep.bind (blind_read sees_alike (·.ward.isOpen))
    intro isOpen
    apply Lockstep.ite
    · intro _
      exact blind_honest sees_alike
    · intro _
      exact .pure _
  · intro h
    exact blind_sayWard _

theorem blind_wardAsk (command : Text) (cap : Nat) : Blind Alike (wardAsk command cap) := by
  unfold wardAsk
  apply Lockstep.bind (.bind (blind_command _) fun _ => blind_wardReply _ _)
  intro c
  exact .pure _

end GyreWard
