/-
Module: GyreWard.Proofs.Enrolment
Purpose: What a cycle joins and where it writes: every database once, never more than there are
  contracts to take, and nothing to a database that has not joined.
Trusted boundary: none
Main exports: WardTables.unclaimed, CycleCall, Enrolled, safely_groupJoin, safely_choose,
  safely_sparkTurn, cycle_stays_in_its_group
-/
import GyreWard.Lib.Calls
import GyreWard.Proofs.AccountBook
import GyreWard.Proofs.Apart

namespace GyreWard

open Lib
open Lib.Action (MadeOf Leaves Safely Abides wp)

/-- The contracts nobody has taken. -/
def WardTables.unclaimed (t : WardTables) : Nat := t.board.countP fun r => r.taken == -1

/-- The participants there can be in a cycle: the ward, and a Spark for every contract. -/
def cycleParts : Nat := 1 + (boardSize + 3)

/-- A cycle has been counted. -/
def World.counted (w : World) : World := w.setGyre fun g => { g with cycle := g.cycle + 1 }

/-- The calls that a cycle called in `start` may make, each in the states it may be made in.  The group
on the stack is emptied once, before anything else; after that participants only join it.  One that
is in it joins without anything being done, and any other when the plane has not taken it in either and
fewer than ten have joined; so there is always a place for it.  Statements go to participants, and a
Spark arrives when the group has ended. -/
inductive CycleCall (start : World) : (α : Type) → Action World α → World → Prop where
  | ask (w : World) : CycleCall start Unit fallible w
  | remember {f : Gyre → Gyre} (apart : ∀ g, (f g).ward = g.ward ∧
      (f g).sparks.map (·.db) = g.sparks.map (·.db)) (w : World) : CycleCall start Unit (remember f) w
  | empty : CycleCall start Unit (Action.modify (World.setGroup fun _ => {})) start.counted
  | begin {w : World} (nobody : w.grp.dbs = []) : CycleCall start Nat weftTxnBegin w
  | number (txn : Nat) {w : World} (nobody : w.grp.dbs = []) :
      CycleCall start Unit (Action.modify (World.setGroup fun grp => { grp with txn := txn })) w
  | again {h : Handle} {w : World} (member : h ∈ w.grp.dbs) : CycleCall start Unit (groupJoin h) w
  | join {h : Handle} {w : World} (room : HasRoomFor h w) (few : w.grp.dbs.length < cycleParts) :
      CycleCall start Unit (groupJoin h) w
  | onWard {stmt : WardTables → Option WardTables} {w : World} (member : Handle.ward ∈ w.grp.dbs) :
      CycleCall start Unit (update (Gyre.onWard (Conn.execute stmt))) w
  | onSpark {i : Nat} {stmt : SparkTables → Option SparkTables} {w : World}
      (member : Handle.spark i ∈ w.grp.dbs) :
      CycleCall start Unit (update (Gyre.onSpark i (Conn.execute stmt))) w
  | abort {w : World} (once : w.grp.dbs.Nodup) (few : w.grp.dbs.length ≤ cycleParts) :
      CycleCall start Unit groupAbort w
  | commit {w : World} (once : w.grp.dbs.Nodup) (few : w.grp.dbs.length ≤ cycleParts) :
      CycleCall start Unit groupCommit w
  | arrive (id : Int) {w : World} (ended : w.plane.isOpen = false) :
      CycleCall start Unit (joinWard id) w

/-! ### Who is in the group -/

/-- The group that is open has the participants `dbs`, on the stack and on the plane, and at most `places`
contracts can still be taken. -/
structure Enrolled (dbs : List Handle) (places : Nat) (w : World) : Prop where
  isOpen : w.plane.isOpen = true
  mine : w.plane.txn = w.grp.txn
  group : w.grp.dbs = dbs
  parts : w.plane.parts = dbs
  named : ∀ s ∈ w.g.sparks, s.id ≠ -1
  unclaimed : w.g.ward.now.unclaimed ≤ places

/-- The participants of a cycle: each once, the ward among them, and a place for everybody who can
still take a contract. -/
structure Roll (places : Nat) (dbs : List Handle) : Prop where
  once : dbs.Nodup
  ward : Handle.ward ∈ dbs
  room : dbs.length + places ≤ cycleParts

/-- A group that can be ended. -/
structure Closing (w : World) : Prop where
  once : w.grp.dbs.Nodup
  few : w.grp.dbs.length ≤ cycleParts

section Enrolled

variable {dbs : List Handle} {places : Nat} {start w : World}

theorem Roll.fewer {more : Nat} (roll : Roll more dbs) (le : places ≤ more) : Roll places dbs :=
  ⟨roll.once, roll.ward, le_trans (Nat.add_le_add_left le _) roll.room⟩

theorem Enrolled.more {more : Nat} (enrolled : Enrolled dbs places w) (le : places ≤ more) :
    Enrolled dbs more w :=
  { enrolled with unclaimed := le_trans enrolled.unclaimed le }

theorem Enrolled.closing {left : Nat} (enrolled : Enrolled dbs places w) (roll : Roll left dbs) :
    Closing w := by
  constructor
  · rw [enrolled.group]
    exact roll.once
  · rw [enrolled.group]
    exact le_trans (Nat.le_add_right _ _) roll.room

/-- What leaves the group, the plane's part in it and the Sparks' ids alone, and puts no contract back. -/
theorem Enrolled.of_same (enrolled : Enrolled dbs places w) {w' : World}
    (isOpen : w'.plane.isOpen = w.plane.isOpen) (txn : w'.plane.txn = w.plane.txn)
    (parts : w'.plane.parts = w.plane.parts) (grp : w'.grp = w.grp)
    (ids : w'.g.sparks.map (·.id) = w.g.sparks.map (·.id))
    (fewer : w'.g.ward.now.unclaimed ≤ w.g.ward.now.unclaimed) : Enrolled dbs places w' where
  isOpen := isOpen.trans enrolled.isOpen
  mine := by
    rw [txn, grp]
    exact enrolled.mine
  group := by
    rw [grp]
    exact enrolled.group
  parts := parts.trans enrolled.parts
  named := by
    intro s mem
    have listed : s.id ∈ w.g.sparks.map (·.id) := by
      rw [← ids]
      exact List.mem_map_of_mem mem
    obtain ⟨s', there, same⟩ := List.mem_map.mp listed
    rw [← same]
    exact enrolled.named s' there
  unclaimed := le_trans fewer enrolled.unclaimed

theorem Enrolled.after (enrolled : Enrolled dbs places w) (n : Nat) : Enrolled dbs places (w.after n) :=
  enrolled.of_same rfl rfl rfl rfl rfl le_rfl

theorem ids_setSpark (g : Gyre) (i : Nat) {f : Spark → Spark} (same : ∀ s, (f s).id = s.id) :
    (g.setSpark i f).sparks.map (·.id) = g.sparks.map (·.id) := by
  apply List.ext_getElem?
  intro k
  rw [List.getElem?_map, List.getElem?_map, setSpark_at]
  split
  · cases g.sparks[k]? with
    | none => rfl
    | some s => exact congrArg some (same s)
  · rfl

theorem dbs_setSpark (g : Gyre) (i : Nat) {f : Spark → Spark} (same : ∀ s, (f s).db = s.db) :
    (g.setSpark i f).sparks.map (·.db) = g.sparks.map (·.db) := by
  apply List.ext_getElem?
  intro k
  rw [List.getElem?_map, List.getElem?_map, setSpark_at]
  split
  · cases g.sparks[k]? with
    | none => rfl
    | some s => exact congrArg some (same s)
  · rfl

/-! ### What is written down -/

/-- What is changed in memory is in no database, and nobody's id. -/
theorem Bookkeeping.apart {f : Gyre → Gyre} (keeps : Bookkeeping f) (g : Gyre) :
    (f g).ward = g.ward ∧ (f g).sparks.map (·.db) = g.sparks.map (·.db) ∧
      (f g).sparks.map (·.id) = g.sparks.map (·.id) := by
  cases keeps with
  | spend cost => exact ⟨rfl, rfl, rfl⟩
  | draw r => exact ⟨rfl, rfl, rfl⟩
  | earn amount => exact ⟨rfl, rfl, rfl⟩
  | paid i amount =>
      exact ⟨rfl, dbs_setSpark _ i fun _ => rfl, ids_setSpark _ i fun _ => rfl⟩
  | setWear i f => exact ⟨rfl, dbs_setSpark g i fun _ => rfl, ids_setSpark g i fun _ => rfl⟩
  | movePlace i f => exact ⟨rfl, dbs_setSpark g i fun _ => rfl, ids_setSpark g i fun _ => rfl⟩
  | compound => exact ⟨rfl, rfl, rfl⟩
  | retire amount => exact ⟨rfl, rfl, rfl⟩

theorem unclaimed_updateContract (t : WardTables) (id : Nat) {f : BoardRow → BoardRow}
    (same : ∀ r, (f r).taken = r.taken) :
    WardTables.unclaimed { t with board := updateContract id f t.board } = t.unclaimed := by
  change (t.board.map _).countP _ = _
  rw [List.countP_map]
  apply List.countP_congr
  intro r _
  rw [Function.comp_apply]
  split
  · rw [same]
  · rfl

/-- What takes no contract puts none back. -/
theorem Jotting.unclaimed {stmt : WardTables → Option WardTables} (jots : Jotting stmt)
    {t t' : WardTables} (run : stmt t = some t') : t'.unclaimed ≤ t.unclaimed := by
  cases jots with
  | built venue cycle =>
      rw [existing_some run]
      exact le_rfl
  | ledger row =>
      rw [existing_some run]
      exact le_rfl
  | clear =>
      rw [existing_some run]
      exact Nat.zero_le _
  | outcome id won =>
      rw [existing_some run]
      exact le_of_eq (unclaimed_updateContract t id fun _ => rfl)
  | books cycle treasury debt issued retired =>
      rw [existing_some run]
      exact le_rfl

theorem safely_fallible (enrolled : Enrolled dbs places w) :
    Safely (CycleCall start) fallible (fun _ => Enrolled dbs places) (Enrolled dbs places) w :=
  .call (.ask w) (wp_fallible (enrolled.after 1) (enrolled.after 1))

/-- A statement on the ward, which is in the group. -/
theorem safely_onWard (enrolled : Enrolled dbs places w) (member : Handle.ward ∈ dbs)
    {stmt : WardTables → Option WardTables} {left : Nat}
    (effect : ∀ t, stmt w.g.ward.now = some t → t.unclaimed ≤ left) :
    Safely (CycleCall start) (update (Gyre.onWard (Conn.execute stmt)))
      (fun _ => Enrolled dbs left) (Enrolled dbs places) w := by
  apply Safely.call
  · apply CycleCall.onWard
    rw [enrolled.group]
    exact member
  · unfold wp update
    cases run : Gyre.onWard (Conn.execute stmt) w.g with
    | none => exact enrolled
    | some g =>
        obtain ⟨c, executed, made⟩ := onWard_eq_some.mp run
        obtain ⟨_, t, took, conn⟩ := Conn.execute_eq_some.mp executed
        rw [made, conn]
        exact ⟨enrolled.isOpen, enrolled.mine, enrolled.group, enrolled.parts, enrolled.named,
          effect t took⟩

theorem Jotted.safely {α : Type} {x : Action World α} (jots : Jotted α x)
    (enrolled : Enrolled dbs places w) (member : Handle.ward ∈ dbs) :
    Safely (CycleCall start) x (fun _ => Enrolled dbs places) (Enrolled dbs places) w := by
  cases jots with
  | fallible => exact safely_fallible enrolled
  | onWard jots =>
      apply safely_onWard enrolled member
      exact fun t took => le_trans (jots.unclaimed took) enrolled.unclaimed
  | @remember f keeps =>
      apply Safely.call
      · exact .remember (fun g => ⟨(keeps.apart g).1, (keeps.apart g).2.1⟩) w
      · have same := keeps.apart w.g
        have tables : (f w.g).ward.now.unclaimed ≤ w.g.ward.now.unclaimed := by rw [same.1]
        exact enrolled.of_same rfl rfl rfl rfl same.2.2 tables

/-- What is only jotted down stays in the group. -/
theorem safely_jotted {α : Type} {x : Action World α} (made : MadeOf Jotted α x)
    (enrolled : Enrolled dbs places w) (member : Handle.ward ∈ dbs) :
    Safely (CycleCall start) x (fun _ => Enrolled dbs places) (Enrolled dbs places) w :=
  made.safely (fun _ _ jots _ enrolled => jots.safely enrolled member) enrolled

theorem EntryOf.safely {i : Nat} {α : Type} {x : Action World α} (entry : EntryOf i α x)
    (enrolled : Enrolled dbs places w) (ward : Handle.ward ∈ dbs) (member : Handle.spark i ∈ dbs) :
    Safely (CycleCall start) x (fun _ => Enrolled dbs places) (Enrolled dbs places) w := by
  cases entry with
  | jot jots => exact jots.safely enrolled ward
  | @onSpark stmt runs =>
      apply Safely.call
      · apply CycleCall.onSpark
        rw [enrolled.group]
        exact member
      · unfold wp update
        cases run : Gyre.onSpark i (Conn.execute stmt) w.g with
        | none => exact enrolled
        | some g =>
            obtain ⟨s, c, here, executed, made⟩ := onSpark_eq_some.mp run
            have same : g.sparks.map (·.id) = w.g.sparks.map (·.id) := by
              rw [made]
              exact ids_setSpark w.g i fun _ => rfl
            have tables : g.ward.now.unclaimed ≤ w.g.ward.now.unclaimed := by
              rw [made]
              exact le_rfl
            exact enrolled.of_same rfl rfl rfl rfl same tables

theorem safely_entry {i : Nat} {α : Type} {x : Action World α} (made : MadeOf (EntryOf i) α x)
    (enrolled : Enrolled dbs places w) (ward : Handle.ward ∈ dbs) (member : Handle.spark i ∈ dbs) :
    Safely (CycleCall start) x (fun _ => Enrolled dbs places) (Enrolled dbs places) w :=
  made.safely (fun _ _ entry _ enrolled => entry.safely enrolled ward member) enrolled

/-! ### Joining -/

/-- The participants once `h` is among them. -/
def enlist (h : Handle) (dbs : List Handle) : List Handle := if h ∈ dbs then dbs else dbs ++ [h]

theorem mem_enlist {h k : Handle} : k ∈ enlist h dbs ↔ k ∈ dbs ∨ k = h := by
  unfold enlist
  split
  · constructor
    · exact Or.inl
    · rintro (mem | rfl)
      · exact mem
      · assumption
  · rw [List.mem_append, List.mem_singleton]

theorem enlist_again {h : Handle} : enlist h (enlist h dbs) = enlist h dbs := by
  have there : h ∈ enlist h dbs := mem_enlist.mpr (Or.inr rfl)
  generalize enlist h dbs = joined at there
  unfold enlist
  rw [if_pos there]

theorem Roll.enlist {h : Handle} (roll : Roll (places + 1) dbs) :
    Roll places (GyreWard.enlist h dbs) := by
  unfold GyreWard.enlist
  split
  · exact roll.fewer (Nat.le_succ _)
  · constructor
    · apply List.nodup_append.mpr
      constructor
      · exact roll.once
      constructor
      · exact List.nodup_singleton h
      · rintro k mem _ here rfl
        rw [List.mem_singleton.mp here] at mem
        contradiction
    · exact List.mem_append_left _ roll.ward
    · have room := roll.room
      rw [List.length_append, List.length_singleton]
      omega

/-- A join leaves the participant in the group, or the group as it was. -/
theorem wp_groupJoin_enrolled (enrolled : Enrolled dbs places w) (h : Handle) :
    wp (groupJoin h) (fun _ => Enrolled (enlist h dbs) places) (fun w' => w'.grp = w.grp) w := by
  unfold groupJoin
  rw [Action.wp_bind, Action.wp_read, enrolled.group]
  unfold enlist
  apply Action.wp_ite
  · intro member
    rw [if_pos member]
    exact enrolled
  intro absent
  rw [if_neg absent]
  apply Action.wp_ite
  · intro _
    exact rfl
  intro _
  have taken : wp (weftTxnJoin h w.grp.txn) (fun _ w' => w'.g = w.g ∧ w'.grp = w.grp ∧
      w'.plane.isOpen = true ∧ w'.plane.txn = w.plane.txn ∧ w'.plane.parts = dbs ++ [h])
      (fun w' => w'.grp = w.grp) w := by
    unfold weftTxnJoin
    rw [Action.wp_bind]
    apply wp_fallible
    · exact rfl
    rw [Action.wp_bind, Action.wp_read]
    apply Action.wp_ite
    · intro _
      exact rfl
    intro _
    apply Action.wp_ite
    · intro _
      exact rfl
    intro _
    apply Action.wp_ite
    · intro member
      have known : h ∈ w.plane.parts := member
      rw [enrolled.parts] at known
      exact absurd known absent
    · intro _
      refine ⟨rfl, rfl, enrolled.isOpen, rfl, ?_⟩
      change w.plane.parts ++ [h] = _
      rw [enrolled.parts]
  rw [Action.wp_bind]
  apply Action.wp_mono taken _ fun _ same => same
  intro _ w₁ joined
  obtain ⟨same_g, same_grp, isOpen, txn, parts⟩ := joined
  have began : wp (sqlBegin h) (fun _ w' => w'.plane.isOpen = true ∧ w'.plane.txn = w.plane.txn ∧
      w'.plane.parts = dbs ++ [h] ∧ w'.grp = w.grp ∧ w'.g.ward.now = w.g.ward.now ∧
      w'.g.sparks.map (·.id) = w.g.sparks.map (·.id)) (fun w' => w'.grp = w.grp) w₁ := by
    cases h with
    | ward =>
        apply wp_statement
        · exact same_grp
        intro g run
        obtain ⟨c, begun, made⟩ := onWard_eq_some.mp run
        obtain ⟨_, _, conn⟩ := Conn.begin_eq_some.mp begun
        rw [made, conn]
        refine ⟨isOpen, txn, parts, same_grp, ?_, ?_⟩
        · change w₁.g.ward.now = _
          rw [same_g]
        · change w₁.g.sparks.map (·.id) = _
          rw [same_g]
    | spark i =>
        apply wp_statement
        · exact same_grp
        intro g run
        obtain ⟨s, c, here, begun, made⟩ := onSpark_eq_some.mp run
        rw [made]
        refine ⟨isOpen, txn, parts, same_grp, ?_, ?_⟩
        · change w₁.g.ward.now = _
          rw [same_g]
        · have ids : (w₁.g.setSpark i fun s => { s with db := c }).sparks.map (·.id) =
              w₁.g.sparks.map (·.id) := ids_setSpark w₁.g i fun _ => rfl
          change (w₁.g.setSpark i fun s => { s with db := c }).sparks.map (·.id) = _
          rw [ids, same_g]
  rw [Action.wp_bind]
  apply Action.wp_mono began _ fun _ same => same
  intro _ w₂ opened
  obtain ⟨isOpen, txn, parts, grp, tables, ids⟩ := opened
  change Enrolled (dbs ++ [h]) places (w₂.setGroup fun grp => { grp with dbs := grp.dbs ++ [h] })
  constructor
  · exact isOpen
  · change w₂.plane.txn = w₂.grp.txn
    rw [txn, grp]
    exact enrolled.mine
  · change w₂.grp.dbs ++ [h] = _
    rw [grp, enrolled.group]
  · exact parts
  · have same : Enrolled dbs places { w₂ with plane := w.plane, grp := w.grp } :=
      enrolled.of_same rfl rfl rfl rfl ids (le_of_eq (congrArg WardTables.unclaimed tables))
    exact same.named
  · change w₂.g.ward.now.unclaimed ≤ places
    rw [tables]
    exact enrolled.unclaimed

/-- A participant can join as long as there is a place for them. -/
theorem safely_groupJoin (enrolled : Enrolled dbs places w) (closing : Closing w) {h : Handle}
    (fits : h ∈ dbs ∨ dbs.length < cycleParts) :
    Safely (CycleCall start) (groupJoin h) (fun _ => Enrolled (enlist h dbs) places) Closing w := by
  apply Safely.call
  · by_cases member : h ∈ dbs
    · apply CycleCall.again
      rw [enrolled.group]
      exact member
    · have few := fits.resolve_left member
      have small : dbs.length < txnMaxParts := lt_trans few (by decide)
      apply CycleCall.join
      · exact
          { isOpen := enrolled.isOpen, mine := enrolled.mine
            notMember := by rw [enrolled.group]; exact member
            notPart := by rw [enrolled.parts]; exact member
            members := by rw [enrolled.group]; exact small
            parts := by rw [enrolled.parts]; exact small }
      · rw [enrolled.group]
        exact few
  · apply Action.wp_mono (wp_groupJoin_enrolled enrolled h) (fun _ _ enrolled => enrolled)
    intro w' same
    constructor
    · rw [same]
      exact closing.once
    · rw [same]
      exact closing.few

/-! ### Taking a contract -/

/-- A contract that is taken by somebody is one fewer to take. -/
theorem unclaimed_updateTaken {t : WardTables} {spark : Int} (real : spark ≠ -1) {r : BoardRow}
    (mem : r ∈ t.board) (free : r.taken = -1) :
    WardTables.unclaimed
      { t with board := updateContract r.id (fun r => { r with taken := spark }) t.board } <
      t.unclaimed := by
  generalize named : (fun r : BoardRow => { r with taken := spark }) = claim
  have fewer : ∀ rows : List BoardRow,
      (updateContract r.id claim rows).countP (fun r => r.taken == -1) ≤
        rows.countP fun r => r.taken == -1 := by
    intro rows
    unfold updateContract
    rw [List.countP_map]
    apply List.countP_mono_left
    intro c _ still
    rw [Function.comp_apply] at still
    split at still
    · rw [← named] at still
      exact absurd (beq_iff_eq.mp still) real
    · exact still
  obtain ⟨before, after, split⟩ := List.append_of_mem mem
  have parts : updateContract r.id claim t.board =
      updateContract r.id claim before ++ claim r :: updateContract r.id claim after := by
    rw [split]
    unfold updateContract
    rw [List.map_append, List.map_cons, if_pos rfl]
  have gone : (claim r :: updateContract r.id claim after).countP (fun r => r.taken == -1) =
      (updateContract r.id claim after).countP fun r => r.taken == -1 := by
    apply List.countP_cons_of_neg
    rw [← named]
    exact fun same => real (beq_iff_eq.mp same)
  have there : (r :: after).countP (fun r => r.taken == -1) =
      (after.countP fun r => r.taken == -1) + 1 := by
    apply List.countP_cons_of_pos
    exact beq_iff_eq.mpr free
  have first := fewer before
  have last := fewer after
  unfold WardTables.unclaimed
  rw [parts, split, List.countP_append, List.countP_append, gone, there]
  omega

/-- A question to the ward is answered, and nothing is different. -/
theorem safely_asked {α : Type} {x : Action World α} (made : MadeOf Jotted α x) (asks : Asks x)
    (enrolled : Enrolled dbs places w) (member : Handle.ward ∈ dbs) :
    Safely (CycleCall start) x (fun _ w' => Enrolled dbs places w' ∧ w'.g = w.g)
      (Enrolled dbs places) w := by
  have safely : Safely (CycleCall start) x (fun _ => Enrolled dbs places) (Enrolled dbs places) w :=
    safely_jotted made enrolled member
  have same : Leaves World.g x := asks.leaves _ fun _ _ => rfl
  constructor
  · exact safely.abides
  · exact Action.wp_mono (Action.wp_and safely.ends (same.wp w)) (fun _ _ h => h) fun _ h => h.1

/-- A Spark who chooses a contract takes it from those that can still be taken. -/
theorem safely_choose (enrolled : Enrolled dbs places w) (member : Handle.ward ∈ dbs) (i : Nat) :
    Safely (CycleCall start) (choose i)
      (fun id w' => Enrolled dbs places w' ∧
        (0 ≤ id → ∃ left, places = left + 1 ∧ Enrolled dbs left w'))
      (Enrolled dbs places) w := by
  have nothing : ∀ {w' : World}, Enrolled dbs places w' → Enrolled dbs places w' ∧
      (0 ≤ (-1 : Int) → ∃ left, places = left + 1 ∧ Enrolled dbs left w') :=
    fun enrolled => ⟨enrolled, fun found => absurd found (by decide)⟩
  unfold choose
  apply Safely.bind
  have asking : Safely (CycleCall start) (Action.attempt fallible) (fun _ => Enrolled dbs places)
      (Enrolled dbs places) w := .attempt (safely_fallible enrolled)
  apply asking.mono _ fun _ err => err
  intro asked w₁ enrolled₁
  cases asked with
  | none => exact .pure (nothing enrolled₁)
  | some _ =>
      apply Safely.read
      cases looked : openContracts w₁.g with
      | none => exact .pure (nothing enrolled₁)
      | some rows =>
          cases here : w₁.g.sparks[i]? with
          | none => exact .pure (nothing enrolled₁)
          | some s =>
              apply Safely.bind
              apply (safely_asked (jotted_built 0) (asks_built 0) enrolled₁ member).mono _ fun _ err => err
              rintro rested w₂ ⟨enrolled₂, same₂⟩
              apply Safely.bind
              apply (safely_asked (jotted_built 4) (asks_built 4) enrolled₂ member).mono _ fun _ err => err
              rintro backed w₃ ⟨enrolled₃, same₃⟩
              have same : w₃.g = w₁.g := same₃.trans same₂
              dsimp only
              generalize 100 - s.wear + (if rested = true then 25 else 0) +
                (if backed = true then 20 else 0) = nerve
              apply Safely.ite
              · intro negative
                exact .pure ⟨enrolled₃, fun found => absurd found (not_le.mpr negative)⟩
              intro found
              obtain ⟨r, offered, best⟩ := (bestContract_mem nerve rows).resolve_left found
              have number : (bestContract nerve rows).1.toNat = r.id := by
                rw [best]
                rfl
              rw [number]
              have standing : rows = w₁.g.ward.now.board.filter fun r => r.taken == -1 := by
                unfold openContracts at looked
                split at looked
                · exact (Option.some.inj looked).symm
                · cases looked
              rw [standing] at offered
              obtain ⟨mem, free⟩ := List.mem_filter.mp offered
              have real : s.id ≠ -1 := enrolled₁.named s (List.mem_of_getElem? here)
              -- at least this contract could still be taken
              have one : 0 < w₃.g.ward.now.unclaimed := by
                rw [same]
                exact List.countP_pos_iff.mpr ⟨r, mem, free⟩
              obtain ⟨left, more⟩ := Nat.exists_eq_succ_of_ne_zero
                (Nat.pos_iff_ne_zero.mp (lt_of_lt_of_le one enrolled₃.unclaimed))
              have taking : Safely (CycleCall start) (runWard (updateTaken r.id s.id))
                  (fun _ => Enrolled dbs left) (Enrolled dbs places) w₃ := by
                apply Safely.bind
                apply (safely_asked (.move .fallible) asks_fallible enrolled₃ member).mono _
                  fun _ err => err
                rintro _ w₄ ⟨enrolled₄, same₄⟩
                apply safely_onWard enrolled₄ member
                intro t took
                have there : r ∈ w₄.g.ward.now.board := by
                  rw [same₄, same]
                  exact mem
                have fewer := unclaimed_updateTaken real there (beq_iff_eq.mp free)
                rw [existing_some took]
                have bound := enrolled₄.unclaimed
                omega
              apply Safely.bind
              apply Safely.attempt
              apply taking.mono
              · intro _ w₄ enrolled₄
                exact .pure ⟨enrolled₄.more (by omega), fun _ => ⟨left, more, enrolled₄⟩⟩
              · intro w₄ enrolled₄
                exact .pure (nothing enrolled₄)

/-! ### The turn of a Spark -/

theorem safely_pay (enrolled : Enrolled dbs places w) (roll : Roll (places + 1) dbs) (i : Nat)
    (amount : Int) (item : Option (Text × Text)) :
    Safely (CycleCall start) (pay i amount item)
      (fun _ => Enrolled (enlist (.spark i) dbs) places) Closing w := by
  have room : dbs.length < cycleParts := by
    have room := roll.room
    omega
  have joined := roll.enlist (h := .spark i)
  rw [pay_eq]
  apply Safely.bind
  apply (safely_groupJoin enrolled (enrolled.closing roll) (Or.inr room)).mono _ fun _ err => err
  intro _ w₁ enrolled₁
  apply (safely_entry (made_payEntries i amount item) enrolled₁ joined.ward
    (mem_enlist.mpr (Or.inr rfl))).mono (fun _ _ enrolled => enrolled)
  exact fun _ failed => failed.closing joined

/-- What is jotted down first, and then the rest. -/
theorem safely_jotted_then {α β : Type} {x : Action World α} {next : α → Action World β}
    {Q : β → World → Prop} (made : MadeOf Jotted α x) (enrolled : Enrolled dbs places w) {left : Nat}
    (roll : Roll left dbs)
    (rest : ∀ a w', Enrolled dbs places w' → Safely (CycleCall start) (next a) Q Closing w') :
    Safely (CycleCall start) (x >>= next) Q Closing w := by
  apply Safely.bind
  apply (safely_jotted made enrolled roll.ward).mono rest
  exact fun _ failed => failed.closing roll

theorem safely_goToWork (enrolled : Enrolled dbs places w) (roll : Roll places dbs) {i : Nat}
    (fits : Handle.spark i ∈ dbs ∨ dbs.length < cycleParts) (id : Nat)
    (joined : Roll places (enlist (.spark i) dbs)) :
    Safely (CycleCall start) (goToWork i id)
      (fun _ => Enrolled (enlist (.spark i) dbs) places) Closing w := by
  rw [goToWork_eq]
  apply safely_jotted_then (jotted_goThere i id) enrolled roll
  intro _ w₁ enrolled₁
  apply Safely.bind
  apply (safely_groupJoin enrolled₁ (enrolled₁.closing roll) fits).mono _ fun _ err => err
  intro _ w₂ enrolled₂
  apply (safely_entry (made_workEntries i) enrolled₂ joined.ward
    (mem_enlist.mpr (Or.inr rfl))).mono (fun _ _ enrolled => enrolled)
  exact fun _ failed => failed.closing joined

/-- The Spark joins with the wage or on the way to work, and once. -/
theorem safely_settleContract (enrolled : Enrolled dbs places w) (roll : Roll (places + 1) dbs)
    (i id : Nat) (won : Bool) (earned : Int) (item : Option Text) :
    Safely (CycleCall start) (settleContract i id won earned item)
      (fun _ => Enrolled (enlist (.spark i) dbs) places) Closing w := by
  have fewer := roll.fewer (Nat.le_succ _)
  have joined := roll.enlist (h := .spark i)
  have room : dbs.length < cycleParts := by
    have room := roll.room
    omega
  unfold settleContract
  apply safely_jotted_then (jotted_built 1) enrolled fewer
  intro repaired w₁ enrolled₁
  apply safely_jotted_then (jotted_remember (.setWear i _)) enrolled₁ fewer
  intro _ w₂ enrolled₂
  apply safely_jotted_then (jotted_runWard (.outcome id won)) enrolled₂ fewer
  intro _ w₃ enrolled₃
  apply Safely.read
  apply Safely.ite
  · intro _
    apply Safely.bind
    apply (safely_pay enrolled₃ roll i _ _).mono _ fun _ err => err
    intro _ w₄ enrolled₄
    have twice := @enlist_again dbs (.spark i)
    have going : Safely (CycleCall start) (goToWork i id)
        (fun _ => Enrolled (enlist (.spark i) (enlist (.spark i) dbs)) places) Closing w₄ := by
      apply safely_goToWork enrolled₄ joined (Or.inl (mem_enlist.mpr (Or.inr rfl))) id
      rw [twice]
      exact joined
    rw [twice] at going
    exact going
  · intro _
    exact safely_goToWork enrolled₃ fewer (Or.inr room) id joined

theorem safely_workContract (enrolled : Enrolled dbs places w) (roll : Roll (places + 1) dbs)
    (i : Nat) (s : Spark) (id : Nat) :
    Safely (CycleCall start) (workContract i s id)
      (fun _ => Enrolled (enlist (.spark i) dbs) places) Closing w := by
  have fewer := roll.fewer (Nat.le_succ _)
  unfold workContract
  apply safely_jotted_then (jotted_scalarOr _ _) enrolled fewer
  intro payout w₁ enrolled₁
  apply safely_jotted_then (jotted_scalarOr _ _) enrolled₁ fewer
  intro risk w₂ enrolled₂
  apply safely_jotted_then (jotted_draw 100) enrolled₂ fewer
  intro die w₃ enrolled₃
  dsimp only
  apply Safely.ite
  · intro _
    apply safely_jotted_then (.bind (jotted_keepContract payout s.id) fun _ => .pure _) enrolled₃ fewer
    intro item w₄ enrolled₄
    exact safely_settleContract enrolled₄ roll i id _ _ item
  · intro _
    apply safely_jotted_then (.pure _) enrolled₃ fewer
    intro item w₄ enrolled₄
    exact safely_settleContract enrolled₄ roll i id _ _ item

/-- The turn of a Spark takes nobody but them into the group, and a contract for it. -/
theorem safely_sparkTurn (enrolled : Enrolled dbs places w) (roll : Roll places dbs) (i : Nat) :
    Safely (CycleCall start) (sparkTurn i)
      (fun _ w' => ∃ dbs' places', Enrolled dbs' places' w' ∧ Roll places' dbs') Closing w := by
  unfold sparkTurn
  apply Safely.bind
  apply (safely_choose enrolled roll.ward i).mono
  · rintro id w₁ ⟨enrolled₁, took⟩
    apply Safely.ite
    · intro _
      exact .pure ⟨dbs, places, enrolled₁, roll⟩
    intro found
    obtain ⟨left, more, enrolled₁⟩ := took (not_lt.mp found)
    rw [more] at roll
    apply Safely.read
    cases here : w₁.g.sparks[i]? with
    | none => exact .pure ⟨dbs, left, enrolled₁, roll.fewer (Nat.le_succ _)⟩
    | some s =>
        apply (safely_workContract enrolled₁ roll i s id.toNat).mono _ fun _ err => err
        exact fun _ _ worked => ⟨_, left, worked, roll.enlist⟩
  · exact fun _ failed => failed.closing roll

/-! ### The board -/

/-- A contract is posted for somebody to take. -/
theorem safely_postContract (enrolled : Enrolled dbs places w) {left : Nat} (roll : Roll left dbs)
    (i : Nat) :
    Safely (CycleCall start) (postContract i) (fun _ => Enrolled dbs (places + 1)) Closing w := by
  unfold postContract
  apply safely_jotted_then (jotted_draw 9) enrolled roll
  intro kind w₁ enrolled₁
  apply safely_jotted_then (jotted_draw 55) enrolled₁ roll
  intro risk w₂ enrolled₂
  apply safely_jotted_then (jotted_draw 20) enrolled₂ roll
  intro extra w₃ enrolled₃
  apply safely_jotted_then (jotted_built 3) enrolled₃ roll
  intro plaza w₄ enrolled₄
  apply Safely.read
  apply Safely.bind
  apply Safely.bind
  apply (safely_fallible enrolled₄).mono _ fun _ failed => failed.closing roll
  intro _ w₅ enrolled₅
  apply (safely_onWard enrolled₅ roll.ward _).mono _ fun _ failed => failed.closing roll
  · exact places + 1
  · intro t posted
    rw [existing_some posted]
    unfold WardTables.unclaimed
    rw [List.countP_append]
    exact Nat.add_le_add enrolled₅.unclaimed List.countP_le_length
  intro _ w₆ enrolled₆
  apply Safely.bind
  constructor
  · unfold wireIdOrExit
    cases wireId w₄.g.wardNo (wireContractBase + nextRowid w₄.g.ward.now.board) with
    | some wire => exact .pure _ _
    | none => exact .halt _
  apply wp_wireIdOrExit
  intro wire _
  apply Safely.bind
  apply (safely_fallible enrolled₆).mono _ fun _ failed => failed.closing roll
  intro _ w₇ enrolled₇
  apply (safely_onWard enrolled₇ roll.ward _).mono (fun _ _ named => named)
    fun _ failed => failed.closing roll
  intro t named
  rw [unless_some named, unclaimed_updateContract]
  · exact enrolled₇.unclaimed
  · exact fun _ => rfl

/-- The board has six contracts, or nine. -/
theorem safely_postBoard (enrolled : Enrolled dbs places w) (roll : Roll (boardSize + 3) dbs) :
    Safely (CycleCall start) postBoard (fun _ => Enrolled dbs (boardSize + 3)) Closing w := by
  unfold postBoard
  apply safely_jotted_then (jotted_built 2) enrolled roll
  intro rails w₁ enrolled₁
  dsimp only
  have few : (List.range (boardSize + if rails then 3 else 0)).length ≤ boardSize + 3 := by
    rw [List.length_range]
    cases rails with
    | true => exact le_rfl
    | false => exact Nat.le_add_right ..
  generalize List.range (boardSize + if rails then 3 else 0) = contracts at few
  apply Safely.bind
  apply Safely.bind
  apply (safely_fallible enrolled₁).mono _ fun _ failed => failed.closing roll
  intro _ w₂ enrolled₂
  have emptied : ∀ t, deleteBoard w₂.g.ward.now = some t → t.unclaimed ≤ 0 := by
    intro t cleared
    rw [existing_some cleared]
    exact le_rfl
  apply (safely_onWard enrolled₂ roll.ward emptied).mono _ fun _ failed => failed.closing roll
  intro _ w₃ enrolled₃
  -- as many contracts can be taken as have been posted
  apply Safely.mono (Q := fun _ w => ∃ k, k + ([] : List Nat).length = contracts.length ∧
    Enrolled dbs k w) _ _ fun _ err => err
  · apply Safely.forEach (I := fun rest w => ∃ k, k + rest.length = contracts.length ∧ Enrolled dbs k w)
    · exact ⟨0, Nat.zero_add _, enrolled₃⟩
    · rintro i rest w ⟨k, all, enrolled⟩
      apply (safely_postContract enrolled roll i).mono _ fun _ err => err
      intro _ w' enrolled'
      rw [List.length_cons] at all
      exact ⟨k + 1, by omega, enrolled'⟩
  · rintro _ w' ⟨k, all, enrolled'⟩
    rw [List.length_nil, Nat.add_zero] at all
    exact enrolled'.more (le_trans (le_of_eq all) few)

/-! ### The cycle -/

theorem safely_cycleWrites (enrolled : Enrolled [.ward] places w) :
    Safely (CycleCall start) cycleWrites (fun _ => Closing) Closing w := by
  have roll : Roll (boardSize + 3) [Handle.ward] :=
    ⟨List.nodup_singleton _, List.mem_singleton_self _, le_rfl⟩
  unfold cycleWrites
  apply safely_jotted_then jotted_commission enrolled roll
  intro decided w₁ enrolled₁
  apply Safely.ite
  · intro _
    exact .bind (.fail (enrolled₁.closing roll))
  intro _
  apply Safely.bind
  apply (safely_postBoard enrolled₁ roll).mono _ fun _ err => err
  intro _ w₂ enrolled₂
  apply Safely.read
  apply Safely.bind
  apply Safely.mono (Q := fun _ w => ∃ dbs places, Enrolled dbs places w ∧ Roll places dbs) _ _
    fun _ err => err
  · apply Safely.forEach (I := fun _ w => ∃ dbs places, Enrolled dbs places w ∧ Roll places dbs)
    · exact ⟨_, _, enrolled₂, roll⟩
    · rintro i rest w ⟨dbs, places, enrolled, roll⟩
      exact safely_sparkTurn enrolled roll i
  rintro _ w₃ ⟨dbs, places, enrolled₃, roll₃⟩
  apply safely_jotted_then jotted_debtClock enrolled₃ roll₃
  intro _ w₄ enrolled₄
  apply safely_jotted_then (jotted_built 5) enrolled₄ roll₃
  intro row w₅ enrolled₅
  apply Safely.read
  apply safely_jotted_then (jotted_runWard (.books _ _ _ _ _)) enrolled₅ roll₃
  intro _ w₆ enrolled₆
  exact .pure (enrolled₆.closing roll₃)

/-- A group that begins has nobody in it, and then the ward. -/
theorem safely_groupBegin (named : ∀ s ∈ start.g.sparks, s.id ≠ -1) :
    Safely (CycleCall start) groupBegin
      (fun _ => Enrolled [.ward] start.g.ward.now.unclaimed) (fun _ => True) start.counted := by
  unfold groupBegin
  apply Safely.bind
  apply Safely.call .empty
  change Safely _ _ _ _ (start.counted.setGroup fun _ => {})
  have began : wp weftTxnBegin (fun txn w => w.g = start.counted.g ∧ w.grp.dbs = [] ∧
      w.plane.isOpen = true ∧ w.plane.txn = txn ∧ w.plane.parts = []) (fun _ => True)
      (start.counted.setGroup fun _ => {}) := by
    unfold weftTxnBegin observe
    rw [Action.wp_bind, Action.wp_read]
    apply Action.wp_ite
    · exact fun _ => trivial
    intro _
    rw [Action.wp_bind]
    apply wp_fallible
    · exact trivial
    exact ⟨rfl, rfl, rfl, rfl, rfl⟩
  apply Safely.bind
  apply Safely.call (.begin rfl)
  apply Action.wp_mono began _ fun _ _ => trivial
  rintro txn w₁ ⟨same, nobody, isOpen, number, parts⟩
  apply Safely.bind
  apply Safely.call (.number txn nobody)
  change Safely _ _ _ _ (w₁.setGroup fun grp => { grp with txn := txn })
  have empty : Enrolled [] start.g.ward.now.unclaimed
      (w₁.setGroup fun grp => { grp with txn := txn }) := by
    constructor
    · exact isOpen
    · exact number
    · exact nobody
    · exact parts
    · change ∀ s ∈ w₁.g.sparks, s.id ≠ -1
      rw [same]
      exact named
    · change w₁.g.ward.now.unclaimed ≤ _
      rw [same]
      exact le_rfl
  have closing : Closing (w₁.setGroup fun grp => { grp with txn := txn }) := by
    constructor
    · rw [empty.group]
      exact List.nodup_nil
    · rw [empty.group]
      exact Nat.zero_le _
  exact (safely_groupJoin empty closing (Or.inr (by decide))).mono (fun _ _ joined => joined)
    fun _ _ => trivial

/-- A group that has been committed is open no longer. -/
theorem groupCommit_ends (w : World) :
    wp groupCommit (fun _ w' => w'.plane.isOpen = false) (fun _ => True) w := by
  unfold groupCommit
  apply Action.wp_bind_any
  intro grp w₁
  apply Action.wp_bind_any
  intro _ w₂
  unfold weftTxnCommit observe
  rw [Action.wp_bind, Action.wp_modify, Action.wp_bind, Action.wp_read]
  apply Action.wp_ite
  · exact fun _ => trivial
  intro _
  apply Action.wp_bind_any
  intro recorded w₃
  rw [Action.wp_bind, Action.wp_modify]
  cases recorded with
  | some _ => exact rfl
  | none => exact trivial

end Enrolled

/-- In a ward none of whose Sparks is called -1, which on the board means nobody, a cycle makes only calls
that it may make: every database joins its group and begins a transaction at most once, at most ten
do and no more than there is room for, and no statement before the commit goes to a database that
has not joined. -/
theorem cycle_stays_in_its_group (w : World) (named : ∀ s ∈ w.g.sparks, s.id ≠ -1) :
    Abides (CycleCall w) Unit cycle w := by
  have safely : Safely (CycleCall w) cycle (fun _ _ => True) (fun _ => True) w := by
    unfold cycle
    apply Safely.bind
    apply Safely.call
    · exact CycleCall.remember (f := fun g => { g with cycle := g.cycle + 1 }) (fun _ => ⟨rfl, rfl⟩) w
    change Safely _ _ _ _ w.counted
    apply Safely.bind
    apply (safely_groupBegin named).mono _ fun _ _ => trivial
    intro _ w₁ enrolled
    apply Safely.bind
    apply Safely.onFail (F := Closing)
    · apply (safely_cycleWrites enrolled).mono _ fun _ closing => closing
      intro arriving w₂ closing
      apply Safely.bind
      apply Safely.call (.commit closing.once closing.few)
      apply Action.wp_mono (groupCommit_ends w₂) _ fun _ _ => trivial
      intro _ w₃ ended
      apply Safely.ite
      · intro _
        apply Safely.read
        exact .call (.arrive _ ended) (Action.wp_any fun _ _ => trivial)
      · intro _
        exact .pure trivial
    · intro w₂ closing
      exact .call (.abort closing.once closing.few) (Action.wp_any fun _ _ => trivial)
  exact safely.abides

/-- The first cycle of a ward of two Sparks stays in its group. -/
theorem first_cycle_stays_in_its_group :
    Abides (CycleCall (World.founded 2 7 fun _ => false)) Unit cycle
      (World.founded 2 7 fun _ => false) :=
  cycle_stays_in_its_group _ (by decide +kernel)

/-! ### No Spark is called -1 -/

/-- The ids of a ward's Sparks are numbers of its zone or of another's, and none is negative. -/
def Gyre.Numbered (g : Gyre) : Prop := ∀ s ∈ g.sparks, 0 ≤ s.id

theorem Gyre.Numbered.named {g : Gyre} (numbered : g.Numbered) : ∀ s ∈ g.sparks, s.id ≠ -1 := by
  intro s mem same
  have real := numbered s mem
  rw [same] at real
  exact absurd real (by decide)

theorem Gyre.Numbered.of_roster {g g' : Gyre} (numbered : g.Numbered) (same : g'.roster = g.roster) :
    g'.Numbered := by
  intro s mem
  have listed : s.id ∈ g'.sparks.map (·.id) := List.mem_map_of_mem mem
  rw [ids_roster, same, ← ids_roster] at listed
  obtain ⟨s', there, alike⟩ := List.mem_map.mp listed
  rw [← alike]
  exact numbered s' there

theorem numbered_withSparks {g : Gyre} (numbered : g.Numbered) {ids : List Int}
    (real : ∀ id ∈ ids, 0 ≤ id) : (g.withSparks ids).Numbered := by
  rw [withSparks_eq]
  intro s mem
  rcases List.mem_append.mp mem with old | new
  · exact numbered s old
  · obtain ⟨id, there, made⟩ := List.mem_map.mp new
    rw [← made]
    exact real id there

/-- A Spark who arrives is numbered by the zone: a ward without a number could not name them. -/
theorem HasSeat.numbered {g : Gyre} (seat : HasSeat (g.wardNo * sparksPerWard + g.nsparks) g)
    (numbered : g.Numbered) : (g.withSpark (g.wardNo * sparksPerWard + g.nsparks)).Numbered := by
  have real : 0 ≤ g.wardNo * sparksPerWard + g.nsparks := by
    obtain ⟨wire, named⟩ := Option.isSome_iff_exists.mp seat.named
    have ward := (wireId_eq_some.mp named).1
    have zone := Int.mul_nonneg ward (Int.natCast_nonneg sparksPerWard)
    exact Int.add_nonneg zone (Int.natCast_nonneg _)
  exact numbered_withSparks numbered (List.forall_mem_singleton.mpr real)

section Numbered

variable {w : World}

theorem numbered_stir {α : Type} {x : Action World α} (made : MadeOf Stir α x)
    (numbered : w.g.Numbered) : wp x (fun _ w' => w'.g.Numbered) (fun w' => w'.g.Numbered) w := by
  apply Action.wp_mono ((leaves_roster made).wp w)
  · exact fun _ _ same => numbered.of_roster same
  · exact fun _ same => numbered.of_roster same

theorem numbered_cycle (numbered : w.g.Numbered) :
    wp cycle (fun _ w' => w'.g.Numbered) (fun w' => w'.g.Numbered) w := by
  rw [cycle_eq, Action.wp_bind]
  apply Action.wp_mono (numbered_stir stir_cycleBody numbered) _ fun _ h => h
  intro arriving w₁ numbered₁
  apply Action.wp_ite
  · intro _
    rw [Action.wp_bind, Action.wp_read]
    apply Action.wp_mono (wp_joinWard _ w₁)
    · intro _ w₂ joined
      rw [joined.2]
      exact joined.1.numbered numbered₁
    · intro w₂ same
      rw [same]
      exact numbered₁
  · intro _
    exact numbered₁

theorem numbered_foundWard (dbPrefix : Text) (n : Nat) (seed : UInt64) {base : Int}
    (real : 0 ≤ base) (empty : w.g.sparks = []) :
    wp (foundWard dbPrefix n seed base) (fun _ w' => w'.g.Numbered) (fun w' => w'.g.Numbered) w := by
  have nobody : (w.g.foundedAs dbPrefix seed base).Numbered := by
    intro s mem
    change s ∈ w.g.sparks at mem
    rw [empty] at mem
    cases mem
  apply Action.wp_mono (wp_foundWard dbPrefix n seed base w)
  · intro _ w' founded
    rw [founded]
    apply numbered_withSparks nobody
    intro id mem
    obtain ⟨i, _, made⟩ := List.mem_map.mp mem
    rw [← made]
    exact Int.add_nonneg real (Int.natCast_nonneg i)
  · intro w' stopped
    rcases stopped with unfounded | ⟨ids, founded, further⟩
    · intro s mem
      rw [unfounded.sparks, empty] at mem
      cases mem
    · rw [founded]
      exact numbered_withSparks nobody fun id mem => le_trans real (further id mem)

theorem numbering : WardInvariant Gyre.Numbered where
  cycle := numbered_cycle
  build := fun i _ numbered => numbered_stir (stir_writes (made_buildVenue i)) numbered
  pay := fun i amount _ numbered => numbered_stir (stir_payAlone i amount none) numbered
  found := by
    intro n seed w zeroed
    apply numbered_foundWard liveName n seed (Int.le_refl 0)
    rw [zeroed]
    rfl

/-- No ward that a service comes through has a Spark called -1. -/
theorem Reached.numbered (reached : Reached w) : w.g.Numbered := numbering.reached reached

/-- A call that succeeds in a game numbers nobody anew but a Spark who arrives. -/
theorem play_numbered {game game' : Game} {call : Play}
    (numbered : ∀ g ∈ game.wards, g.Numbered) (succeeds : game.play call = some game') :
    ∀ g ∈ game'.wards, g.Numbered := by
  have onOne : ∀ {i : Nat} {x : Action World Unit}, game.onWard i x = some game' →
      (∀ w : World, w.g.Numbered → wp x (fun _ w' => w'.g.Numbered) (fun w' => w'.g.Numbered) w) →
      ∀ g ∈ game'.wards, g.Numbered := by
    intro i x run keeps g mem
    obtain ⟨old, w, here, ran, after⟩ := onWard_some run
    rw [after] at mem
    rcases List.mem_or_eq_of_mem_set mem with other | same
    · exact numbered g other
    · rw [same]
      exact Action.wp_ret (keeps _ (numbered old (List.mem_of_getElem? here))) ran
  cases call with
  | cycle i => exact onOne succeeds fun _ numbered => numbered_cycle numbered
  | build i venue =>
      exact onOne succeeds fun _ numbered => numbered_stir (stir_writes (made_buildVenue venue)) numbered
  | pay i spark amount item =>
      exact onOne succeeds fun _ numbered => numbered_stir (stir_payAlone spark amount item) numbered
  | migrate i j idx =>
      intro g mem
      obtain ⟨_, leaving, entering, p, here, there, ran, after⟩ := migrate_some succeeds
      obtain ⟨s, s', moved⟩ := Action.wp_ret (migrate_moves idx _) ran
      obtain ⟨wire, t, _, _, made⟩ := moved.spark
      have goes := numbered leaving (List.mem_of_getElem? here)
      rw [after] at mem
      rcases List.mem_or_eq_of_mem_set mem with rest | same
      · rcases List.mem_or_eq_of_mem_set rest with other | same
        · exact numbered g other
        · intro c listed
          rw [same, moved.left] at listed
          exact goes c (List.mem_of_mem_eraseIdx listed)
      · intro c listed
        rw [same, moved.came] at listed
        rcases List.mem_append.mp listed with old | new
        · exact numbered entering (List.mem_of_getElem? there) c old
        · rw [List.mem_singleton.mp new, made]
          exact goes s (List.mem_of_getElem? moved.here)

/-- No ward of a game has a Spark called -1 either. -/
theorem Plays.numbered {meets : Game → Play → Prop} {game : Game} (plays : Plays meets game) :
    ∀ g ∈ game.wards, g.Numbered := by
  induction plays with
  | founded shards =>
      induction shards with
      | none plane =>
          intro g mem
          cases mem
      | ward _ _ _ founded ih =>
          intro g mem
          rcases List.mem_append.mp mem with old | new
          · exact ih g old
          · rw [List.mem_singleton.mp new]
            exact Action.wp_ret (numbered_foundWard _ _ _ (Int.natCast_nonneg _) rfl) founded
  | played _ _ succeeds ih => exact play_numbered ih succeeds

end Numbered

end GyreWard
