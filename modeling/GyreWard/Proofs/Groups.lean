/-
Module: GyreWard.Proofs.Groups
Purpose: Beginning a transaction group and joining it, one call at a time, with every way each call
  can be refused.
Trusted boundary: none
Main exports: Gyre.CanBegin, HasRoomFor, World.begun, World.joined, groupBegin_eq, groupJoin_lands,
  groupJoin_refused
-/
import GyreWard.Proofs.Statements

namespace GyreWard

open Lib

/-! ### Joining -/

/-- The participant has an open transaction that saved what it reads now. -/
def Gyre.began (h : Handle) (g : Gyre) : Gyre :=
  match h with
  | .ward => g.setWard fun c => { c with saved := some c.now }
  | .spark i => g.setSpark i fun s => { s with db := { s.db with saved := some s.db.now } }

/-- A participant can `BEGIN`: it is open, and in no transaction. -/
def Gyre.CanBegin (g : Gyre) : Handle → Prop
  | .ward => g.ward.isOpen = true ∧ g.ward.saved = none
  | .spark i => ∃ s, g.sparks[i]? = some s ∧ s.db.isOpen = true ∧ s.db.saved = none

/-- The world once a participant has joined the group. -/
def World.joined (h : Handle) (w : World) : World :=
  { g := w.g.began h
    plane := { w.plane with tick := w.plane.tick + 2, parts := w.plane.parts ++ [h] }
    grp := { w.grp with dbs := w.grp.dbs ++ [h] }
    stop := w.stop }

/-- The group on the stack is the one the plane has open, and has room for a participant that has
not joined. -/
structure HasRoomFor (h : Handle) (w : World) : Prop where
  isOpen : w.plane.isOpen = true
  mine : w.plane.txn = w.grp.txn
  notMember : h ∉ w.grp.dbs
  notPart : h ∉ w.plane.parts
  members : w.grp.dbs.length < txnMaxParts
  parts : w.plane.parts.length < txnMaxParts

theorem connected_of_canBegin {g : Gyre} {h : Handle} (can : g.CanBegin h) :
    g.isConnected h = true := by
  cases h with
  | ward => exact can.1
  | spark i =>
      obtain ⟨s, here, isOpen, _⟩ := can
      simp [Gyre.isConnected, here, isOpen]

theorem onSpark_begin {g : Gyre} {i : Nat} {s : Spark} (here : g.sparks[i]? = some s)
    (isOpen : s.db.isOpen = true) (noTxn : s.db.saved = none) :
    Gyre.onSpark i Conn.begin g = some (g.began (.spark i)) := by
  have begun : Conn.begin s.db = some { s.db with saved := some s.db.now } := by
    simp [Conn.begin, isOpen, noTxn]
  rw [Gyre.onSpark, here]
  simp only [begun, Option.map_some, Gyre.began]
  exact congrArg some (Gyre.setSpark_congr here rfl)

/-- `BEGIN` on a participant that can. -/
theorem sqlBegin_eq {w : World} {h : Handle} (can : w.g.CanBegin h) :
    sqlBegin h w =
      if w.plane.faults w.plane.tick then (.fail, w.after 1)
      else (.ret (), (w.after 1).setGyre (Gyre.began h)) := by
  cases h with
  | ward =>
      obtain ⟨isOpen, noTxn⟩ := can
      refine (statement_eq _ w).trans ?_
      simp [Gyre.onWard, Conn.begin, isOpen, noTxn, World.setGyre, Gyre.began, Gyre.setWard]
  | spark i =>
      obtain ⟨s, here, isOpen, noTxn⟩ := can
      refine (statement_eq _ w).trans ?_
      rw [onSpark_begin here isOpen noTxn]
      rfl

/-- A participant that cannot `BEGIN` is refused, and nothing is done. -/
theorem sqlBegin_refused {w : World} {h : Handle} (cannot : ¬ w.g.CanBegin h) :
    sqlBegin h w = (.fail, w.after 1) := by
  cases h with
  | ward =>
      have closed : Gyre.onWard Conn.begin w.g = none := by
        have refused : Conn.begin w.g.ward = none := by
          simp only [Conn.begin, Option.isNone_iff_eq_none]
          exact if_neg cannot
        rw [Gyre.onWard, refused]
        rfl
      refine (statement_eq _ w).trans ?_
      simp [closed]
  | spark i =>
      have closed : Gyre.onSpark i Conn.begin w.g = none := by
        unfold Gyre.onSpark
        cases here : w.g.sparks[i]? with
        | none => rfl
        | some s =>
            simp only [Conn.begin, Option.isNone_iff_eq_none]
            rw [if_neg fun can => cannot ⟨s, here, can⟩]
            rfl
      refine (statement_eq _ w).trans ?_
      simp [closed]

/-- The world once the plane has taken a participant into the open group. -/
def World.taken (h : Handle) (w : World) : World :=
  (w.after 1).setPlane fun p => { p with parts := p.parts ++ [h] }

/-- The plane takes a participant into the group that is open. -/
theorem weftTxnJoin_eq {w : World} {h : Handle} (room : HasRoomFor h w) :
    weftTxnJoin h w.grp.txn w =
      if w.plane.faults w.plane.tick = true ∨ w.g.isConnected h = false then (.fail, w.after 1)
      else (.ret (), w.taken h) := by
  have notFull : ¬ txnMaxParts ≤ w.plane.parts.length := Nat.not_le.mpr room.parts
  unfold weftTxnJoin
  rw [Action.bind_apply, fallible_eq]
  cases word : w.plane.faults w.plane.tick with
  | true => rfl
  | false =>
      cases connected : w.g.isConnected h with
      | true =>
          simp [Action.bind_apply, connected, room.isOpen, room.mine, notFull, room.notPart,
            World.taken]
      | false => simp [Action.bind_apply, connected]

/-- A participant that can join, over a plane that does not fail the two operations, joins. -/
theorem groupJoin_lands {w : World} {h : Handle} (room : HasRoomFor h w) (can : w.g.CanBegin h)
    (joins : w.plane.faults w.plane.tick = false)
    (begins : w.plane.faults (w.plane.tick + 1) = false) :
    groupJoin h w = (.ret (), w.joined h) := by
  have notFull : ¬ txnMaxParts ≤ w.grp.dbs.length := Nat.not_le.mpr room.members
  have taken := weftTxnJoin_eq room
  simp only [joins, connected_of_canBegin can, Bool.false_eq_true, Bool.true_eq_false, or_self,
    ↓reduceIte] at taken
  have begun : sqlBegin h (w.taken h) = (.ret (), ((w.taken h).after 1).setGyre (Gyre.began h)) :=
    (sqlBegin_eq (w := w.taken h) can).trans (if_neg (Bool.eq_false_iff.mp begins))
  unfold groupJoin
  rw [Action.bind_ret (Action.read_apply _ _)]
  simp only [room.notMember, notFull, ↓reduceIte]
  rw [Action.bind_ret taken, Action.bind_ret begun]
  rfl

/-- Otherwise the join fails, and the ward and the group on the stack are as they were. -/
theorem groupJoin_refused {w : World} {h : Handle} (room : HasRoomFor h w)
    (refused : ¬ (w.plane.faults w.plane.tick = false ∧
      w.plane.faults (w.plane.tick + 1) = false ∧ w.g.CanBegin h)) :
    ∃ w', groupJoin h w = (.fail, w') ∧ w'.g = w.g ∧ w'.grp = w.grp := by
  have notFull : ¬ txnMaxParts ≤ w.grp.dbs.length := Nat.not_le.mpr room.members
  have taken := weftTxnJoin_eq room
  unfold groupJoin
  rw [Action.bind_ret (Action.read_apply _ _)]
  simp only [room.notMember, notFull, ↓reduceIte]
  by_cases turned : w.plane.faults w.plane.tick = true ∨ w.g.isConnected h = false
  · rw [if_pos turned] at taken
    exact ⟨_, Action.bind_fail taken, rfl, rfl⟩
  · rw [if_neg turned] at taken
    rw [Action.bind_ret taken]
    have begun : sqlBegin h (w.taken h) = (.fail, (w.taken h).after 1) := by
      by_cases can : w.g.CanBegin h
      · refine (sqlBegin_eq (w := w.taken h) can).trans (if_pos ?_)
        rw [not_or] at turned
        by_contra fine
        exact refused ⟨Bool.eq_false_iff.mpr turned.1, Bool.eq_false_iff.mpr fine, can⟩
      · exact sqlBegin_refused can
    exact ⟨_, Action.bind_fail begun, rfl, rfl⟩

/-! ### Beginning -/

/-- The world once `weft_txn_begin` has opened a group for the group on the stack. -/
def World.begun (w : World) : World :=
  { w with
    plane :=
      { w.plane with
        tick := w.plane.tick + 1, locked := true, isOpen := true, txn := w.plane.lastTxn + 1
        parts := [], lastTxn := w.plane.lastTxn + 1
        calls := w.plane.calls ++ [.began (w.plane.lastTxn + 1)] }
    grp := { txn := w.plane.lastTxn + 1 } }

theorem hasRoom_begun (w : World) : HasRoomFor .ward w.begun where
  isOpen := rfl
  mine := rfl
  notMember := List.not_mem_nil
  notPart := List.not_mem_nil
  members := Nat.zero_lt_succ _
  parts := Nat.zero_lt_succ _

/-- `group_begin` waits for a lock that is held, fails when `weft_txn_begin` does, and otherwise
joins the ward. -/
theorem groupBegin_eq (w : World) :
    groupBegin w =
      if w.plane.locked then (.halt, { w with grp := {} })
      else if w.plane.faults w.plane.tick then (.fail, { w.after 1 with grp := {} })
      else groupJoin .ward w.begun := by
  unfold groupBegin weftTxnBegin
  rw [Action.bind_ret (Action.modify_apply _ _), Action.bind_apply,
    Action.bind_ret (Action.read_apply _ _)]
  cases locked : w.plane.locked with
  | true => simp [World.setGroup, locked, Action.bind_apply]
  | false =>
      simp only [World.setGroup, locked, Bool.false_eq_true, ↓reduceIte]
      rw [Action.bind_apply, fallible_eq]
      cases w.plane.faults w.plane.tick with
      | true => rfl
      | false => rfl

/-- `group_begin`, by what it leaves when `weft_txn_begin` fails and where it joins the ward from
when it does not. -/
theorem wp_groupBegin {w : World} {Q : Unit → World → Prop} {E : World → Prop}
    (refused : E { w.after 1 with grp := {} })
    (joins : Action.wp (groupJoin .ward) Q E w.begun) : Action.wp groupBegin Q E w := by
  have begins := groupBegin_eq w
  unfold Action.wp at joins ⊢
  rw [begins]
  cases w.plane.locked with
  | true => exact trivial
  | false =>
      cases w.plane.faults w.plane.tick with
      | true => exact refused
      | false => exact joins

end GyreWard
