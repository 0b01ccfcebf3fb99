/-
Module: GyreWard.Proofs.Alike
Purpose: What a ward does depends on the ward alone: not on what the store held before, nor on the
  clock, the numbers of the groups or the calls a plane has seen.
Trusted boundary: none
Main exports: SameAhead, Alike, Grouped, Sees, lockstep_commission, blind_joinWard, blind_foundWard
-/
import GyreWard.Lib.Lockstep
import GyreWard.Proofs.Groups
import GyreWard.Proofs.Decision

namespace GyreWard

open Lib
open Lib.Action (Blind Lockstep Same)

/-! ### Two wards alike -/

/-- From here on two planes treat a ward the same: they fail the same calls, and the database of a
ward whose `DROP` fails, three calls after its opening, holds the same on both. -/
structure SameAhead (v w : World) : Prop where
  faults : ∀ k, v.plane.faults (v.plane.tick + k) = w.plane.faults (w.plane.tick + k)
  disk : ∀ k name, v.plane.faults (v.plane.tick + k + 3) = true →
    v.plane.wardDisk (v.plane.tick + k) name = w.plane.wardDisk (w.plane.tick + k) name

theorem SameAhead.after {v w : World} (ahead : SameAhead v w) :
    SameAhead (v.after 1) (w.after 1) where
  faults := by
    intro k
    have later := ahead.faults (1 + k)
    rwa [← Nat.add_assoc, ← Nat.add_assoc] at later
  disk := by
    intro k name
    have later := ahead.disk (1 + k) name
    rwa [← Nat.add_assoc, ← Nat.add_assoc] at later

/-- The group on the stack is the one the plane has open, and has the same participants on both
sides. -/
structure OneGroup (v w : World) : Prop where
  isOpen : v.plane.isOpen = true ∧ w.plane.isOpen = true
  mine : v.plane.txn = v.grp.txn ∧ w.plane.txn = w.grp.txn
  dbs : v.grp.dbs = w.grp.dbs
  parts : v.plane.parts = w.plane.parts

/-- The same ward over two planes that treat it the same from here on, both of them free or both held
by the same group. -/
structure Alike (v w : World) : Prop where
  g : v.g = w.g
  begun : 0 ≤ v.g.cycle
  ahead : SameAhead v w
  locked : v.plane.locked = w.plane.locked
  group : v.plane.locked = true → OneGroup v w

/-- Two wards alike, inside a group. -/
structure Grouped (v w : World) : Prop where
  alike : Alike v w
  held : v.plane.locked = true

/-- A relation between wards that are alike, which a plane's ticks and a change of the ward keep. -/
structure Sees (R : World → World → Prop) : Prop where
  alike : ∀ v w, R v w → Alike v w
  after : ∀ v w, R v w → R (v.after 1) (w.after 1)
  setGyre : ∀ v w, R v w → ∀ g : Gyre, 0 ≤ g.cycle → R { v with g := g } { w with g := g }

theorem sees_alike : Sees Alike where
  alike := fun _ _ alike => alike
  after := fun _ _ alike =>
    { alike with
      ahead := alike.ahead.after
      group := fun held =>
        have same := alike.group held
        ⟨same.isOpen, same.mine, same.dbs, same.parts⟩ }
  setGyre := fun _ _ alike _ begun =>
    { g := rfl, begun, ahead := ⟨alike.ahead.faults, alike.ahead.disk⟩, locked := alike.locked
      group := fun held =>
        have same := alike.group held
        ⟨same.isOpen, same.mine, same.dbs, same.parts⟩ }

theorem sees_grouped : Sees Grouped where
  alike := fun _ _ grouped => grouped.alike
  after := fun v w grouped => ⟨sees_alike.after v w grouped.alike, grouped.held⟩
  setGyre := fun v w grouped g begun => ⟨sees_alike.setGyre v w grouped.alike g begun, grouped.held⟩

theorem blind_wireIdOrExit {R : World → World → Prop} (ward : Int) (loc : Nat) : Blind R (wireIdOrExit ward loc) := by
  unfold wireIdOrExit
  cases wireId ward loc with
  | none => exact .halt
  | some wire => exact .pure wire

/-- `DROP TABLE` leaves nothing of what a Spark's database held before. -/
theorem joinWard_forgets (id : Int) :
    joinWard id = (do
      let g ← Action.read (·.g)
      if maxSparks ≤ g.sparks.length ∨ sparksPerWard ≤ g.sparks.length then Action.fail
      fallible
      fallible
      fallible
      fallible
      fallible
      let wire ← wireIdOrExit g.wardNo (sparkLocal id)
      fallible
      match foundSpark (sparkRow id wire (classOwner .spark g.wardNo)) {} with
      | some tables =>
          remember fun g' =>
            { g' with
              sparks := g'.sparks ++
                [{ db := { name := sparkName g.dbPrefix id, isOpen := true, now := tables, saved := none }
                   id, purse := 0, wear := 0, place := sparkHome id }] }
      | none => Action.fail) := rfl

/-- The ward with nothing in its tables. -/
def Gyre.emptied (g : Gyre) : Gyre := { g with ward := { g.ward with now := {} } }

/-- In `j` calls from a `DROP`, what an opened database held before makes no difference but to a
`DROP` that fails. -/
structure Opening (R : World → World → Prop) (tick tick' : Nat) (name : Text) (j : Nat)
    (v w : World) : Prop where
  related : R v w
  disk : v.plane.faults (v.plane.tick + j) = true →
    v.plane.wardDisk tick name = w.plane.wardDisk tick' name

/-- Two wards that `R` relates but for what their open databases hold, and altogether if the next
call fails. -/
structure Opened (R : World → World → Prop) (v w : World) : Prop where
  isOpen : v.g.ward.isOpen = true ∧ w.g.ward.isOpen = true
  emptied : R (v.setGyre Gyre.emptied) (w.setGyre Gyre.emptied)
  refused : v.plane.faults v.plane.tick = true → R v w

theorem dropWard_eq {w : World} (isOpen : w.g.ward.isOpen = true) :
    update (Gyre.onWard (Conn.execute dropWard)) w = (.ret (), w.setGyre Gyre.emptied) := by
  simp [update, Gyre.onWard, Conn.execute, isOpen, dropWard, World.setGyre, Gyre.emptied]

section Blindness

variable {R : World → World → Prop} (sees : Sees R) {α : Type}

/-! ### Statements -/

include sees

theorem blind_fallible : Blind R fallible := by
  intro v w related
  have same : v.plane.faults v.plane.tick = w.plane.faults w.plane.tick :=
    (sees.alike v w related).ahead.faults 0
  rw [fallible_eq, fallible_eq, same]
  cases w.plane.faults w.plane.tick with
  | true => exact .fail (sees.after v w related)
  | false => exact .ret (sees.after v w related)

theorem blind_remember (f : Gyre → Gyre) (keeps : ∀ g, 0 ≤ g.cycle → 0 ≤ (f g).cycle) :
    Blind R (remember f) := by
  apply Lockstep.modify
  intro v w related
  have alike := sees.alike v w related
  have next := sees.setGyre v w related (f v.g) (keeps _ alike.begun)
  unfold World.setGyre
  rw [← alike.g]
  exact next

theorem blind_read (f : Gyre → α) : Blind R (Action.read fun w => f w.g) := by
  intro v w related
  rw [Action.read_apply, Action.read_apply, (sees.alike v w related).g]
  exact .ret related

theorem blind_update {f : Gyre → Option Gyre} (keeps : ∀ g g', f g = some g' → g'.cycle = g.cycle) :
    Blind R (update f) := by
  intro v w related
  have alike := sees.alike v w related
  unfold update
  rw [← alike.g]
  cases effect : f v.g with
  | none => exact .fail related
  | some g =>
      have begun : 0 ≤ g.cycle := keeps _ g effect ▸ alike.begun
      exact .ret (sees.setGyre v w related g begun)

theorem blind_onWard (f : Conn WardTables → Option (Conn WardTables)) :
    Blind R (update (Gyre.onWard f)) := by
  apply blind_update sees
  intro g g' run
  have ⟨c, _, made⟩ := onWard_eq_some.mp run
  rw [made]

theorem blind_onSpark (i : Nat) (f : Conn SparkTables → Option (Conn SparkTables)) :
    Blind R (update (Gyre.onSpark i f)) := by
  apply blind_update sees
  intro g g' run
  have ⟨s, c, _, _, made⟩ := onSpark_eq_some.mp run
  rw [made]
  rfl

theorem blind_runWard (stmt : WardTables → Option WardTables) : Blind R (runWard stmt) :=
  (blind_fallible sees).bind fun _ => blind_onWard sees _

theorem blind_runSpark (i : Nat) (stmt : SparkTables → Option SparkTables) :
    Blind R (runSpark i stmt) :=
  (blind_fallible sees).bind fun _ => blind_onSpark sees i _

theorem blind_scalarOr (missing : Int) (query : Gyre → Option Int) :
    Blind R (scalarOr missing query) := by
  apply Lockstep.bind (Q := fun _ => R)
  · apply Lockstep.attempt
    exact blind_fallible sees
  · intro asked
    cases asked with
    | none => exact .pure _
    | some _ => exact blind_read sees fun g => (query g).getD missing

/-! ### Building -/

theorem blind_built (venue : Int) : Blind R (built venue) :=
  (blind_scalarOr sees _ _).bind fun _ => .pure _

theorem blind_book (what : Entry) (amount spark : Int) : Blind R (book what amount spark) :=
  (blind_read sees (·.cycle)).bind fun _ => blind_runWard sees _

theorem blind_buildVenue (i : Int) : Blind R (buildVenue i) := by
  unfold buildVenue
  apply Lockstep.guard
  intro _
  cases venues[i.toNat]? with
  | none => exact .fail
  | some v =>
      apply Lockstep.bind (blind_read sees (·.treasury))
      intro treasury
      apply Lockstep.guard
      intro _
      apply Lockstep.bind (blind_built sees i)
      intro stands
      apply Lockstep.guard
      intro _
      apply Lockstep.bind (blind_remember sees (Gyre.spend v.cost) fun _ begun => begun)
      intro _
      apply Lockstep.bind (blind_read sees (·.cycle))
      intro cycle
      exact .bind (blind_runWard sees _) fun _ => blind_book sees _ _ _

theorem blind_viewBuilt (places : List Nat) : Blind R (viewBuilt places) := by
  induction places with
  | nil => exact .pure _
  | cons _ _ ih => exact .bind (blind_scalarOr sees _ _) fun _ => .bind ih fun _ => .pure _

theorem blind_wardView : Blind R wardView :=
  .bind (blind_read sees id) fun _ => .bind (blind_viewBuilt sees _) fun _ => .pure _

/-- The view the planner is handed is of a ward that has counted as many cycles. -/
theorem lockstep_wardView :
    Lockstep (fun v w => R v w ∧ 1 ≤ v.g.cycle) wardView wardView
      (fun view v w => R v w ∧ 1 ≤ view.cycle) R := by
  intro v w related
  have came := blind_wardView sees v w related.1
  have ⟨view, seen, cycle⟩ := wardView_after v
  rw [seen] at came ⊢
  generalize wardView w = q at came
  cases came with
  | ret after => exact .ret ⟨after, cycle ▸ related.2⟩

/-- What `commission` does about the venue she decided on. -/
def carryOut (i : Int) : Action World Int := do
  if i < 0 ∨ (nVenues : Int) ≤ i then return -1
  match ← Action.attempt (buildVenue i) with
  | some () => return i
  | none => return -1

/-- Once the ward has counted a cycle, the clock makes no difference to what is commissioned. -/
theorem lockstep_commission :
    Lockstep (fun v w => R v w ∧ 1 ≤ v.g.cycle) commission commission (fun _ => R) R := by
  unfold commission
  apply Lockstep.bind (lockstep_wardView sees)
  intro view
  by_cases named : 1 ≤ view.cycle
  · have asked : Lockstep (fun v w => R v w ∧ 1 ≤ view.cycle) (Action.attempt fallible)
        (Action.attempt fallible) (fun _ => R) R := by
      apply Lockstep.attempt
      exact (blind_fallible sees).mono (fun _ _ related => related.1) (fun _ _ _ after => after)
        fun _ _ after => after
    apply Lockstep.bind asked
    intro answered
    cases answered with
    | none => exact .pure _
    | some _ =>
        apply Lockstep.peek
        intro v w related
        rw [queenPlan_eq v.plane.late named, queenPlan_eq w.plane.late named]
        have decided : Blind R (carryOut (queensDecision view)) := by
          apply Lockstep.ite
          · intro _
            exact .pure _
          · intro _
            apply Lockstep.bind (Q := fun _ => R)
            · apply Lockstep.attempt
              exact blind_buildVenue sees _
            · intro built
              cases built with
              | none => exact .pure _
              | some _ => exact .pure _
        exact decided v w related
  · exact fun v w related => absurd related.2 named

/-! ### The board -/

theorem blind_draw (n : UInt32) : Blind R (draw n) := by
  apply Lockstep.bind (blind_read sees (·.rng))
  intro rng
  cases rngBelow rng n with
  | none => exact .halt
  | some drawn =>
      exact .bind (blind_remember sees _ fun _ begun => begun) fun _ => .pure _

theorem blind_postContract (i : Nat) : Blind R (postContract i) := by
  unfold postContract
  apply Lockstep.bind (blind_draw sees 9)
  intro kind
  apply Lockstep.bind (blind_draw sees 55)
  intro risk
  apply Lockstep.bind (blind_draw sees 20)
  intro more
  apply Lockstep.bind (blind_built sees 3)
  intro plaza
  apply Lockstep.bind (blind_read sees id)
  intro g
  apply Lockstep.bind (blind_runWard sees _)
  intro _
  exact .bind (blind_wireIdOrExit _ _) fun _ => blind_runWard sees _

theorem blind_postBoard : Blind R postBoard := by
  apply Lockstep.bind (blind_built sees 2)
  intro rails
  exact .bind (blind_runWard sees _) fun _ => .forEach fun i _ => blind_postContract sees i

theorem blind_choose (i : Nat) : Blind R (choose i) := by
  unfold choose
  apply Lockstep.bind (Q := fun _ => R)
  · apply Lockstep.attempt
    exact blind_fallible sees
  · intro asked
    cases asked with
    | none => exact .pure _
    | some _ =>
        apply Lockstep.bind (blind_read sees fun g => (openContracts g, g.sparks[i]?))
        intro found
        rcases found with ⟨rows, spark⟩
        cases rows with
        | none => exact .pure _
        | some rows =>
            cases spark with
            | none => exact .pure _
            | some s =>
                apply Lockstep.bind (blind_built sees 0)
                intro rested
                apply Lockstep.bind (blind_built sees 4)
                intro backed
                apply Lockstep.ite
                · intro _
                  exact .pure _
                · intro _
                  apply Lockstep.bind (Q := fun _ => R)
                  · apply Lockstep.attempt
                    exact blind_runWard sees _
                  · intro took
                    cases took with
                    | none => exact .pure _
                    | some _ => exact .pure _

theorem blind_keepContract (payout spark : Int) : Blind R (keepContract payout spark) := by
  apply Lockstep.bind (blind_read sees id)
  intro g
  apply Lockstep.bind (blind_remember sees (Gyre.earn payout) fun _ begun => begun)
  intro _
  exact .bind (blind_book sees _ _ _) fun _ => .pure _

theorem blind_debtClock : Blind R debtClock := by
  apply Lockstep.bind (blind_remember sees Gyre.compound fun _ begun => begun)
  intro _
  apply Lockstep.bind (blind_read sees clockPayment)
  intro paid
  apply Lockstep.ite
  · intro _
    exact .bind (blind_remember sees (Gyre.retire paid) fun _ begun => begun) fun _ => blind_book sees _ _ _
  · intro _
    exact .pure _

/-! ### Looking -/

theorem blind_sumSparks (query : SparkTables → Option Int) (places : List Nat) :
    Blind R (sumSparks query places) := by
  induction places with
  | nil => exact .pure _
  | cons _ _ ih => exact .bind (blind_scalarOr sees _ _) fun _ => .bind ih fun _ => .pure _

theorem blind_purses : Blind R purses :=
  .bind (blind_read sees (·.sparks.length)) fun _ => blind_sumSparks sees _ _

theorem blind_honest : Blind R honest := by
  apply Lockstep.bind (blind_read sees id)
  intro g
  apply Lockstep.bind (blind_purses sees)
  intro held
  apply Lockstep.ite
  · intro _
    exact .pure _
  · intro _
    exact .bind (blind_sumSparks sees _ _) fun _ => .pure _

/-! ### Arrivals -/

theorem blind_joinWard (id : Int) : Blind R (joinWard id) := by
  rw [joinWard_forgets]
  apply Lockstep.bind (blind_read sees fun g => g)
  intro g
  apply Lockstep.guard
  intro _
  apply Lockstep.bind (blind_fallible sees)
  intro _
  apply Lockstep.bind (blind_fallible sees)
  intro _
  apply Lockstep.bind (blind_fallible sees)
  intro _
  apply Lockstep.bind (blind_fallible sees)
  intro _
  apply Lockstep.bind (blind_fallible sees)
  intro _
  apply Lockstep.bind (blind_wireIdOrExit _ _)
  intro wire
  apply Lockstep.bind (blind_fallible sees)
  intro _
  cases foundSpark (sparkRow id wire (classOwner .spark g.wardNo)) {} with
  | none => exact .fail
  | some tables => exact blind_remember sees _ fun _ begun => begun

/-! ### Founding -/

theorem blind_foundVenue (i : Nat) (v : Venue) : Blind R (foundVenue i v) :=
  .bind (blind_read sees (·.wardNo)) fun _ => .bind (blind_wireIdOrExit _ _) fun _ =>
    blind_runWard sees _

theorem lockstep_opening (tick tick' : Nat) (name : Text) (j : Nat) :
    Lockstep (Opening R tick tick' name (j + 1)) fallible fallible
      (fun _ => Opening R tick tick' name j) R := by
  intro v w opening
  have after := sees.after v w opening.related
  have same : v.plane.faults v.plane.tick = w.plane.faults w.plane.tick :=
    (sees.alike v w opening.related).ahead.faults 0
  have sooner := opening.disk
  rw [Nat.add_comm j, ← Nat.add_assoc] at sooner
  rw [fallible_eq, fallible_eq, ← same]
  cases v.plane.faults v.plane.tick with
  | true => exact .fail after
  | false => exact .ret ⟨after, sooner⟩

/-- Opening a database, whatever is in it. -/
theorem lockstep_openWard (name : Text) :
    Lockstep R (openWard name) (openWard name) (fun _ => Opened R) R := by
  unfold openWard
  apply Lockstep.bind (blind_remember sees (fun g => { g with ward := Conn.null {} })
    fun _ begun => begun)
  intro _
  apply Lockstep.peek
  intro v w related
  have opened : Lockstep (Opening R v.plane.tick w.plane.tick name 3)
      (do
        fallible
        fallible
        fallible
        let disk ← Action.read (·.plane.wardDisk)
        remember fun g =>
          { g with ward := { name, isOpen := true, now := disk v.plane.tick name, saved := none } })
      (do
        fallible
        fallible
        fallible
        let disk ← Action.read (·.plane.wardDisk)
        remember fun g =>
          { g with ward := { name, isOpen := true, now := disk w.plane.tick name, saved := none } })
      (fun _ => Opened R) R := by
    apply Lockstep.bind (lockstep_opening sees _ _ name 2)
    intro _
    apply Lockstep.bind (lockstep_opening sees _ _ name 1)
    intro _
    apply Lockstep.bind (lockstep_opening sees _ _ name 0)
    intro _
    apply Lockstep.peek
    intro v' w' opening
    have alike := sees.alike v' w' opening.related
    apply Same.ret
    constructor
    · exact ⟨rfl, rfl⟩
    · have next := sees.setGyre v' w' opening.related
        { v'.g with ward := { name, isOpen := true, now := {}, saved := none } } alike.begun
      unfold World.setGyre Gyre.emptied
      rw [← alike.g]
      exact next
    · intro turned
      have disk := opening.disk turned
      have next := sees.setGyre v' w' opening.related
        { v'.g with
          ward := { name, isOpen := true, now := v'.plane.wardDisk v.plane.tick name, saved := none } }
        alike.begun
      unfold World.setGyre
      rw [← alike.g, ← disk]
      exact next
  apply opened v w
  constructor
  · exact related
  · exact (sees.alike v w related).ahead.disk 0 name

theorem lockstep_dropWard :
    Lockstep (Opened R) (runWard dropWard) (runWard dropWard) (fun _ => R) R := by
  intro v w opened
  have same : v.plane.faults v.plane.tick = w.plane.faults w.plane.tick :=
    (sees.alike _ _ opened.emptied).ahead.faults 0
  unfold runWard
  rw [Action.bind_apply, Action.bind_apply, fallible_eq, fallible_eq, ← same]
  cases turned : v.plane.faults v.plane.tick with
  | true => exact .fail (sees.after v w (opened.refused turned))
  | false =>
      change Same _ R (update _ (v.after 1)) (update _ (w.after 1))
      have left : (v.after 1).g.ward.isOpen = true := opened.isOpen.1
      have right : (w.after 1).g.ward.isOpen = true := opened.isOpen.2
      rw [dropWard_eq left, dropWard_eq right]
      exact .ret (sees.after _ _ opened.emptied)

/-- `found_ward` forgets whatever stood under the ward's name before. -/
theorem blind_foundWard (dbPrefix : Text) (n : Nat) (seed : UInt64) (base : Int) :
    Blind R (foundWard dbPrefix n seed base) := by
  unfold foundWard
  apply Lockstep.bind (lockstep_openWard sees _)
  intro _
  have named : Lockstep (Opened R)
      (remember fun g =>
        { g with dbPrefix := fitted 64 dbPrefix, wardNo := base.tdiv sparksPerWard })
      (remember fun g =>
        { g with dbPrefix := fitted 64 dbPrefix, wardNo := base.tdiv sparksPerWard })
      (fun _ => Opened R) R := by
    apply Lockstep.modify
    intro v w opened
    have alike := sees.alike _ _ opened.emptied
    have next := sees.setGyre _ _ opened.emptied
      { v.g.emptied with dbPrefix := fitted 64 dbPrefix, wardNo := base.tdiv sparksPerWard }
      alike.begun
    constructor
    · exact opened.isOpen
    · have same : v.g.emptied = w.g.emptied := alike.g
      have right : Gyre.emptied
          { w.g with dbPrefix := fitted 64 dbPrefix, wardNo := base.tdiv sparksPerWard } =
          { v.g.emptied with
            dbPrefix := fitted 64 dbPrefix, wardNo := base.tdiv sparksPerWard } := by
        rw [same]
        rfl
      unfold World.setGyre
      rw [right]
      exact next
    · intro turned
      have related := opened.refused turned
      have alike := sees.alike v w related
      have next := sees.setGyre v w related
        { v.g with dbPrefix := fitted 64 dbPrefix, wardNo := base.tdiv sparksPerWard } alike.begun
      unfold World.setGyre
      rw [← alike.g]
      exact next
  apply Lockstep.bind named
  intro _
  apply Lockstep.bind (lockstep_dropWard sees)
  intro _
  apply Lockstep.bind (blind_runWard sees _)
  intro _
  apply Lockstep.bind (Lockstep.forEach fun p _ => blind_foundVenue sees p.2 p.1)
  intro _
  apply Lockstep.bind (blind_remember sees (Gyre.opened seed) fun _ _ => Int.le_refl 0)
  intro _
  apply Lockstep.bind (blind_read sees id)
  intro g
  apply Lockstep.bind (blind_wireIdOrExit _ _)
  intro wire
  apply Lockstep.bind (blind_runWard sees _)
  intro _
  exact .forEach fun i _ => blind_joinWard sees _

end Blindness

end GyreWard
