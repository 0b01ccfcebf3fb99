/-
Module: GyreWard.Proofs.Venues
Purpose: A venue that was paid for stands until the ward is founded again, and is paid for once, unless
  a player commissions it before the ward has counted a cycle.
Trusted boundary: none
Main exports: cycleOpening, Buys, Serviced, Since, VenuesStand, Patient, paid_venues_stand
-/
import GyreWard.Abstract.Sites
import GyreWard.Proofs.Served

namespace GyreWard

open Lib
open Lib.Action (wp)

/-! ### What is built in a command -/

/-- A cycle up to the Queen's commission, which answers with the venue it built, or with a number
below zero. -/
def cycleOpening : Action World Int := do
  remember fun g => { g with cycle := g.cycle + 1 }
  groupBegin
  commission

/-- In one of the `n` cycles of a `/cycle`, `build_venue(g, i)` returns 0. -/
inductive CycleBuys (i : Int) : Nat → World → Prop where
  | now {n : Nat} {w w₁ : World} (opened : cycleOpening w = (.ret i, w₁)) (venue : 0 ≤ i) :
      CycleBuys i (n + 1) w
  | later {n : Nat} {w w₁ w₂ : World} (cycled : cycle w = (.ret (), w₁))
      (checked : honest w₁ = (.ret true, w₂)) (buys : CycleBuys i n w₂) : CycleBuys i (n + 1) w

/-- In this command, `build_venue(g, i)` returns 0. -/
def Buys (i : Int) : Command → World → Prop
  | .commission venue, w => venue.getD (-1) = i ∧ ∃ w', buildVenue i w = (.ret (), w')
  | .cycle n, w => CycleBuys i (cycleCount n) w
  | _, _ => False

/-- The worlds a ward comes through by commands that succeed and that `meets` admits, over a plane
that fails nothing. -/
inductive Serviced (meets : Gyre → Command → Prop) : World → Prop where
  | founded {nsparks : Nat} {seed : UInt64} {w w' : World}
      (quiet : ∀ k, w.plane.faults k = false) (founds : Founds nsparks seed w w') :
      Serviced meets w'
  | served {line : Text} {answer : Answer} {w w' : World} (before : Serviced meets w)
      (admitted : meets w.g (commandOf line)) (serves : Serves line answer w w')
      (fine : ¬ answer.Failed) : Serviced meets w'

/-- Those since `build_venue(g, i)` has returned 0, up to the next restart. -/
inductive Since (meets : Gyre → Command → Prop) (i : Int) : World → Prop where
  | bought {line : Text} {answer : Answer} {w w' : World} (before : Serviced meets w)
      (buys : Buys i (commandOf line) w) (admitted : meets w.g (commandOf line))
      (serves : Serves line answer w w') (fine : ¬ answer.Failed) : Since meets i w'
  | served {line : Text} {answer : Answer} {w w' : World} (before : Since meets i w)
      (going : commandOf line ≠ .restart) (admitted : meets w.g (commandOf line))
      (serves : Serves line answer w w') (fine : ¬ answer.Failed) : Since meets i w'

/-- What the venues that stand cost, together. -/
def World.standingCost (w : World) : Int :=
  ((List.range nVenues).map fun (j : Nat) =>
    if (built j w).1 = .ret true then costOf j else 0).sum

/-- A venue that was paid for stands, and is paid for once. -/
structure VenuesStand (meets : Gyre → Command → Prop) : Prop where
  stands : ∀ i w, Since meets i w → (built i w).1 = .ret true
  refused : ∀ i w, Since meets i w → (buildVenue i w).1 = .fail ∧ ∀ c, ¬ Buys i c w
  spent : ∀ w, Serviced meets w → w.g.spent = w.standingCost

/-- Before the ward has counted a cycle, nobody commissions a venue that it can pay for. -/
def Patient (g : Gyre) : Command → Prop
  | .commission venue =>
      g.cycle = 0 → ∀ v, venues[(venue.getD (-1)).toNat]? = some v → 0 ≤ venue.getD (-1) →
        g.treasury < v.cost
  | _ => True

/-! ### One cycle -/

section Cycles

variable {b : Till} {w : World}

/-- The opening of a cycle counts it, and builds what it answers with. -/
theorem wp_cycleOpening (keeping : Keeping b w) (standing : b.standing = true) :
    wp cycleOpening
      (fun decided w' =>
        (∃ v, b.count.CanBuild decided v ∧ Keeping (b.count.build decided v.cost) w') ∨
          decided < 0 ∧ Keeping b.count w') (fun _ => True) w := by
  have counted : Keeping b.count (w.setGyre fun g => { g with cycle := g.cycle + 1 }) := by
    constructor
    · exact keeping.quiet
    · rw [← keeping.till]
      rfl
  unfold cycleOpening
  rw [Action.wp_bind]
  change wp _ _ _ (w.setGyre fun g => { g with cycle := g.cycle + 1 })
  rw [Action.wp_bind]
  apply unbooked_groupBegin.wp counted
  intro _ w₁ keeping₁
  exact wp_commission_decides keeping₁ standing

/-- A cycle that has come back has opened, and the Queen's decision stood at its work. -/
theorem cycle_opened {w' : World} (run : cycle w = (.ret (), w')) :
    ∃ decided arriving w₁ w₂, cycleOpening w = (.ret decided, w₁) ∧
      cycleWork decided w₁ = (.ret arriving, w₂) ∧
      (do
        groupCommit
        if arriving then
          let g ← Action.read (·.g)
          joinWard (g.wardNo * sparksPerWard + g.nsparks)) w₂ = (.ret (), w') := by
  have ⟨_, _, counted, run⟩ := Action.bind_eq_ret run
  cases counted
  have ⟨_, _, began, run⟩ := Action.bind_eq_ret run
  have ⟨arriving, w₂, wrote, ended⟩ := Action.bind_eq_ret run
  have ⟨decided, w₁, decides, worked⟩ := Action.bind_eq_ret (Action.onFail_eq_ret wrote)
  refine ⟨decided, arriving, w₁, w₂, ?_, worked, ended⟩
  change (groupBegin >>= fun _ => commission)
    (w.setGyre fun g => { g with cycle := g.cycle + 1 }) = _
  rw [Action.bind_ret began]
  exact decides

/-- What a cycle builds stands after it, with all that stood before. -/
theorem cycle_sited (keeping : Keeping b w) (balanced : b.Balanced) (standing : b.standing = true)
    (sited : b.Sited) {w' : World} (run : cycle w = (.ret (), w')) :
    ∃ b', Keeping b' w' ∧ Till.Steps b b' ∧ b'.Sited ∧ (∀ i, b.Stands i → b'.Stands i) ∧
      ∀ i w₁, cycleOpening w = (.ret i, w₁) → 0 ≤ i → b'.Stands i := by
  have ⟨decided, arriving, w₁, w₂, opening, worked, ended⟩ := cycle_opened run
  have first : Till.Steps b b.count := .single .count
  have started : 0 < b.count.cycle := Int.lt_add_one_of_le sited.begun
  have sited₀ : b.count.Sited := ⟨Int.le_of_lt started, sited.spent⟩
  -- what the Queen decides, in the book
  have ⟨b₁, keeping₁, steps₁, started₁, sited₁, stands₁, bought⟩ : ∃ b₁, Keeping b₁ w₁ ∧
      Till.Steps b b₁ ∧ 0 < b₁.cycle ∧ b₁.Sited ∧ (∀ i, b.Stands i → b₁.Stands i) ∧
      (0 ≤ decided → b₁.Stands decided) := by
    rcases Action.wp_ret (wp_cycleOpening keeping standing) opening with ⟨v, can, kept⟩ | ⟨no, kept⟩
    · have stands : ∀ i, b.Stands i → (b.count.build decided v.cost).Stands i :=
        fun i stood => Till.Stands.build (b := b.count) stood can
      exact ⟨_, kept, first.tail (.build can), started, sited₀.build can started, stands,
        fun _ => Till.stands_build can started⟩
    · exact ⟨_, kept, first, started, sited₀, fun _ stands => stands, fun real => by omega⟩
  have ⟨b₂, steps₂, published, keeping₂⟩ := Action.wp_ret (wp_cycleWork_book keeping₁
    (steps₁.balanced balanced) (steps₁.standing.trans standing) decided) worked
  have ⟨b₃, steps₃, _, keeping₃⟩ :=
    Action.wp_ret (wp_cycleEnd_book keeping₂ published arriving) ended
  have after : Till.Steps b₁ b₃ := steps₂.trans steps₃
  have ⟨_, sited₃, stands₃⟩ := after.sited started₁ sited₁
  refine ⟨b₃, keeping₃, steps₁.trans after, sited₃, ?_, ?_⟩
  · exact fun i stands => stands₃ i (stands₁ i stands)
  · intro i w' opened venue
    rw [opening] at opened
    cases opened
    exact stands₃ decided (bought venue)

/-- The loop of `/cycle`, unless it stops in the middle of a cycle. -/
theorem cycleLoop_sited {n : Nat} (keeping : Keeping b w) (balanced : b.Balanced)
    (standing : b.standing = true) (sited : b.Sited) {why : Option Text} {w' : World}
    (run : cycleLoop n w = (.ret why, w')) (going : why ≠ some (text "the ward stopped mid-cycle")) :
    ∃ b', Keeping b' w' ∧ b'.Sited ∧ (∀ i, b.Stands i → b'.Stands i) ∧
      ∀ i, CycleBuys i n w → b'.Stands i := by
  induction n generalizing b w with
  | zero =>
      have ⟨_, same⟩ := Action.pure_eq_ret run
      refine ⟨b, same ▸ keeping, sited, fun _ stands => stands, ?_⟩
      intro i buys
      cases buys
  | succ n ih =>
      have ⟨came, w₁, tried, run⟩ := Action.bind_eq_ret run
      rcases Action.attempt_eq_ret tried with ⟨_, back, cycled⟩ | ⟨stopped, _⟩
      · rw [back] at run
        have ⟨b₁, keeping₁, steps, sited₁, stands₁, bought₁⟩ :=
          cycle_sited keeping balanced standing sited cycled
        have ⟨fair, w₂, checked, run⟩ := Action.bind_eq_ret run
        have same := Action.wp_ret ((asks_honest.leaves World.seen fun _ _ => rfl).wp w₁) checked
        have keeping₂ := keeping₁.of_seen same
        cases fair with
        | true =>
            have ⟨b₂, keeping₃, sited₂, stands₂, bought₂⟩ := ih keeping₂ (steps.balanced balanced)
              (steps.standing.trans standing) sited₁ run
            refine ⟨b₂, keeping₃, sited₂, fun i stands => stands₂ i (stands₁ i stands), ?_⟩
            intro i buys
            cases buys with
            | now opened venue => exact stands₂ i (bought₁ i _ opened venue)
            | later cycled' checked' buys =>
                rw [cycled] at cycled'
                cases cycled'
                rw [checked] at checked'
                cases checked'
                exact bought₂ i buys
        | false =>
            have ⟨_, ended⟩ := Action.pure_eq_ret run
            refine ⟨b₁, ended ▸ keeping₂, sited₁, stands₁, ?_⟩
            intro i buys
            cases buys with
            | now opened venue => exact bought₁ i _ opened venue
            | later cycled' checked' _ =>
                rw [cycled] at cycled'
                cases cycled'
                rw [checked] at checked'
                cases checked'
      · rw [stopped] at run
        have ⟨told, _⟩ := Action.pure_eq_ret run
        exact absurd told.symm going

/-- No cycle builds what stands. -/
theorem CycleBuys.fresh {i : Int} {n : Nat} (buys : CycleBuys i n w) (keeping : Keeping b w)
    (balanced : b.Balanced) (standing : b.standing = true) (sited : b.Sited) : ¬ b.Stands i := by
  induction buys generalizing b with
  | now opened venue =>
      intro stands
      rcases Action.wp_ret (wp_cycleOpening keeping standing) opened with ⟨_, can, _⟩ | ⟨none, _⟩
      · exact stands can.unbuilt
      · omega
  | @later n w w₁ w₂ cycled checked _ ih =>
      intro stands
      have ⟨b₁, keeping₁, steps, sited₁, stands₁, _⟩ :=
        cycle_sited keeping balanced standing sited cycled
      have same := Action.wp_ret ((asks_honest.leaves World.seen fun _ _ => rfl).wp w₁) checked
      exact ih (keeping₁.of_seen same) (steps.balanced balanced) (steps.standing.trans standing)
        sited₁ (stands₁ i stands)

end Cycles

/-! ### Commands -/

section Commands

variable {w w' : World} {line : Text} {answer : Answer}

theorem serviced_undisturbed {meets : Gyre → Command → Prop} (serviced : Serviced meets w) :
    Undisturbed w := by
  induction serviced with
  | founded quiet founds => exact .founded quiet founds
  | served _ _ serves fine ih => exact .served ih serves fine

/-- `built` reads what the book says. -/
theorem built_stands (kept : Kept w) (i : Int) :
    (built i w).1 = .ret true ↔ w.g.till.Stands i := by
  have ready := kept.keeping.ready kept.standing
  rw [built_quiet ready.quiet, Till.Stands, built_till ready.isOpen ready.created]
  cases w.g.askWard (selectBuilt i) with
  | none => simp
  | some n => simp

theorem standingCost_sited (kept : Kept w) (sited : w.g.till.Sited) :
    w.g.spent = w.standingCost := by
  have spent : w.g.spent = _ := sited.spent
  rw [spent, World.standingCost]
  congr 1
  apply List.map_congr_left
  intro j _
  have column := built_stands kept j
  by_cases stands : w.g.till.Stands j
  · rw [if_pos (column.mpr stands), if_neg stands]
  · rw [if_neg fun told => stands (column.mp told), if_pos (not_not.mp stands)]

/-- `/cycle` in the book. -/
theorem runCycle_sited (kept : Kept w) (sited : w.g.till.Sited) {n : Option Int}
    (ran : runCycle n w = (.ret answer, w')) (fine : ¬ answer.Failed) :
    w'.g.till.Sited ∧ (∀ i, w.g.till.Stands i → w'.g.till.Stands i) ∧
      ∀ i, CycleBuys i (cycleCount n) w → w'.g.till.Stands i := by
  have ⟨why, w₁, looped, told⟩ := Action.bind_eq_ret ran
  have same : w₁ = w' := by
    cases why with
    | none => exact (Action.pure_eq_ret told).2
    | some _ => exact (Action.pure_eq_ret told).2
  have going : why ≠ some (text "the ward stopped mid-cycle") := by
    intro stopped
    rw [stopped] at told
    apply fine
    rw [← (Action.pure_eq_ret told).1]
    exact Or.inl rfl
  have ⟨b', keeping', sited', stands, bought⟩ :=
    cycleLoop_sited kept.keeping kept.balanced kept.standing sited looped going
  rw [← same, keeping'.till]
  exact ⟨sited', stands, bought⟩

/-- What a patient command builds stands after it, with all that stood before unless the ward is
founded again. -/
theorem command_sited (undisturbed : Undisturbed w) (sited : w.g.till.Sited)
    (patient : Patient w.g (commandOf line)) (serves : Serves line answer w w')
    (fine : ¬ answer.Failed) :
    w'.g.till.Sited ∧
      (commandOf line ≠ .restart → ∀ i, w.g.till.Stands i → w'.g.till.Stands i) ∧
      ∀ i, Buys i (commandOf line) w → w'.g.till.Stands i := by
  have kept := undisturbed.kept
  have ⟨turn, _⟩ := kept.serves undisturbed.reached.sound serves fine
  cases command : commandOf line with
  | cycle n =>
      have ⟨_, _, middle, ran, replied⟩ := serves.served
      have same : w'.g = middle.g := (asks_wardReply answer _).same_g replied
      rw [command] at ran
      have ⟨sited', stands, bought⟩ := runCycle_sited kept sited ran fine
      rw [same]
      exact ⟨sited', fun _ => stands, bought⟩
  | commission venue =>
      rw [command] at turn patient
      generalize w'.g.till = b' at turn ⊢
      cases turn with
      | built can =>
          have started : 0 < w.g.till.cycle := by
            rcases Int.lt_or_eq_of_le sited.begun with later | first
            · exact later
            · have short := patient first.symm _ can.listed can.lower
              exact absurd can.affordable (Int.not_le.mpr short)
          refine ⟨sited.build can started, fun _ i stands => stands.build can, ?_⟩
          intro i buys
          rw [← buys.1]
          exact Till.stands_build can started
      | unbuilt cannot =>
          refine ⟨sited, fun _ _ stands => stands, ?_⟩
          intro i buys
          have ⟨_, w₁, bought⟩ := buys
          have ⟨v, can, _⟩ := Action.wp_ret
            (wp_buildVenue_book kept.keeping kept.standing i) bought
          exact absurd (buys.1 ▸ can) (cannot v)
  | restart =>
      rw [command] at turn
      generalize w'.g.till = b' at turn ⊢
      cases turn
      exact ⟨Till.sited_fresh _, fun going => absurd rfl going, fun _ buys => buys.elim⟩
  | pay who amount =>
      rw [command] at turn
      generalize w'.g.till = b' at turn ⊢
      cases turn with
      | paid there found something reached =>
          exact ⟨⟨sited.begun, sited.spent⟩, fun _ _ stands => stands, fun _ buys => buys.elim⟩
      | unpaid cannot => exact ⟨sited, fun _ _ stands => stands, fun _ buys => buys.elim⟩
  | _ =>
      rw [command] at turn
      generalize w'.g.till = b' at turn ⊢
      cases turn
      exact ⟨sited, fun _ _ stands => stands, fun _ buys => buys.elim⟩

/-- Nothing that stands is built again. -/
theorem stands_refused (kept : Kept w) {i : Int} (stands : w.g.till.Stands i) :
    (buildVenue i w).1 = .fail := by
  have cannot : ∀ v, ¬ Buildable w.g i v := by
    intro v can
    have may := (canBuild_iff kept.keeping kept.standing i v).mpr can
    exact stands may.unbuilt
  have ⟨n, refused⟩ := buildVenue_refuses (kept.keeping.ready kept.standing) cannot
  rw [refused]

theorem stands_not_bought (kept : Kept w) (sited : w.g.till.Sited) {i : Int}
    (stands : w.g.till.Stands i) (c : Command) : ¬ Buys i c w := by
  intro buys
  cases c with
  | commission venue =>
      have ⟨_, w₁, bought⟩ := buys
      have refused := stands_refused kept stands
      rw [bought] at refused
      cases refused
  | cycle n =>
      have bought : CycleBuys i (cycleCount n) w := buys
      exact bought.fresh kept.keeping kept.balanced kept.standing sited stands
  | _ => exact buys

/-! ### Runs -/

theorem Serviced.sited (serviced : Serviced Patient w) : w.g.till.Sited := by
  induction serviced with
  | @founded n seed w w' quiet founds =>
      have keeping := Action.wp_ret (wp_foundWard_book quiet founds.zeroed n seed) founds.founded
      rw [keeping.till]
      exact Till.sited_fresh n
  | served before patient serves fine ih =>
      exact (command_sited (serviced_undisturbed before) ih patient serves fine).1

theorem Since.serviced {meets : Gyre → Command → Prop} {i : Int} (since : Since meets i w) :
    Serviced meets w := by
  induction since with
  | bought before _ admitted serves fine => exact before.served admitted serves fine
  | served _ _ admitted serves fine ih => exact ih.served admitted serves fine

theorem Since.stands {i : Int} (since : Since Patient i w) : w.g.till.Stands i := by
  induction since with
  | bought before buys patient serves fine =>
      exact (command_sited (serviced_undisturbed before) before.sited patient serves fine).2.2 i buys
  | served before going patient serves fine ih =>
      have undisturbed := serviced_undisturbed before.serviced
      exact (command_sited undisturbed before.serviced.sited patient serves fine).2.1 going i ih

end Commands

/-- Patience is enough. -/
theorem venuesStand_patient : VenuesStand Patient where
  stands := by
    intro i w since
    exact (built_stands (serviced_undisturbed since.serviced).kept i).mpr since.stands
  refused := by
    intro i w since
    have kept := (serviced_undisturbed since.serviced).kept
    exact ⟨stands_refused kept since.stands,
      stands_not_bought kept since.serviced.sited since.stands⟩
  spent := by
    intro w serviced
    exact standingCost_sited (serviced_undisturbed serviced).kept serviced.sited

/-- In a ward in which nobody commissions a venue before the first cycle, the ward has spent what the
venues that stand cost, and a venue that was paid for stands and is paid for once. -/
theorem paid_venues_stand (w : World) (serviced : Serviced Patient w) :
    w.g.spent = w.standingCost ∧
      ∀ i, Since Patient i w →
        (built i w).1 = .ret true ∧ (buildVenue i w).1 = .fail ∧ ∀ c, ¬ Buys i c w := by
  constructor
  · exact venuesStand_patient.spent w serviced
  · intro i since
    constructor
    · exact venuesStand_patient.stands i w since
    · exact venuesStand_patient.refused i w since

/-! ### A ward without Sparks -/

/-- A ward without Sparks, over a plane that fails nothing. -/
def emptyWard : World := World.founded 0 1 fun _ => false

theorem serviced_emptyWard (meets : Gyre → Command → Prop) : Serviced meets emptyWard := by
  have founds : (foundWard liveName 0 1 0 (World.fresh fun _ => false)).1 = .ret () := by
    decide +kernel
  have founded : Founds 0 1 (World.fresh fun _ => false) _ := ⟨rfl, rfl, ran_to founds⟩
  exact .founded (fun _ => rfl) founded

/-- A command that is answered well. -/
theorem answered_well {line : Text} {w : World}
    (well : (w.answer line).1.map (decide ·.Failed) = some false) :
    ∃ answer, Serves line answer w (w.answer line).2 ∧ ¬ answer.Failed := by
  have ⟨answer, answered, fine⟩ := Option.map_eq_some_iff.mp well
  exact ⟨answer, serves_answer answered, of_decide_eq_false fine⟩

/-- The rails that the Queen builds in the first cycle stand. -/
theorem rails_stand :
    ∃ w, Since Patient 2 w ∧ (built 2 w).1 = .ret true ∧ (buildVenue 2 w).1 = .fail := by
  have command : commandOf (text "cycle") = .cycle none := by decide +kernel
  have ⟨_, cycled, fine⟩ := answered_well (show (emptyWard.answer (text "cycle")).1.map
    (decide ·.Failed) = some false by decide +kernel)
  have opened : (cycleOpening emptyWard).1 = .ret 2 := by decide +kernel
  have once : cycleCount none = 1 := rfl
  have buys : Buys 2 (commandOf (text "cycle")) emptyWard := by
    rw [command]
    change CycleBuys 2 (cycleCount none) emptyWard
    rw [once]
    exact .now (ran_to opened) (by decide)
  have patient : Patient emptyWard.g (commandOf (text "cycle")) := by
    rw [command]
    trivial
  have since : Since Patient 2 _ := .bought (serviced_emptyWard _) buys patient cycled fine
  have ⟨_, standing⟩ := paid_venues_stand _ since.serviced
  exact ⟨_, since, (standing 2 since).1, (standing 2 since).2.1⟩

/-- A tavern that is commissioned before the first cycle is paid for, and does not stand. -/
theorem early_tavern_is_lost : ¬ VenuesStand fun _ _ => True := by
  intro stand
  have command : commandOf (text "commission 0") = .commission (some 0) := by decide +kernel
  have ⟨_, commissioned, fine⟩ := answered_well (show
    (emptyWard.answer (text "commission 0")).1.map (decide ·.Failed) = some false by
      decide +kernel)
  have accepted : (buildVenue 0 emptyWard).1 = .ret () := by decide +kernel
  have buys : Buys 0 (commandOf (text "commission 0")) emptyWard := by
    rw [command]
    exact ⟨rfl, _, ran_to accepted⟩
  have since : Since (fun _ _ => True) 0 _ :=
    .bought (serviced_emptyWard _) buys trivial commissioned fine
  have lost : (built 0 (emptyWard.answer (text "commission 0")).2).1 = .ret false := by
    decide +kernel
  have stands := stand.stands 0 _ since
  rw [lost] at stands
  cases stands

end GyreWard
