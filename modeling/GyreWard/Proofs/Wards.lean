/-
Module: GyreWard.Proofs.Wards
Purpose: Who is in which ward of a game, call by call; and when a ward outgrows its zone.
Trusted boundary: none
Main exports: Stir, cycleBody, cycle_eq, World.roster, leaves_roster, migrate_moves, wards_fit_their_zones
-/
import GyreWard.Model.Game
import GyreWard.Proofs.Sound

namespace GyreWard

open Lib
open Lib.Action (MadeOf Leaves wp Lands)

/-! ### What moves a ward -/

/-- The moves of a cycle up to its arrival, of a building and of a payment, with the groups around
them. -/
inductive Stir : (α : Type) → Action World α → Prop where
  | write {α : Type} {x : Action World α} (writes : Write α x) : Stir α x
  | count : Stir Unit (remember fun g => { g with cycle := g.cycle + 1 })
  | plane (f : Plane → Plane) : Stir Unit (Action.modify (World.setPlane f))
  | group (f : Group → Group) : Stir Unit (Action.modify (World.setGroup f))
  | beginWard : Stir Unit (update (Gyre.onWard Conn.begin))
  | beginSpark (i : Nat) : Stir Unit (update (Gyre.onSpark i Conn.begin))
  | commitWard : Stir Unit (update (Gyre.onWard Conn.commit))
  | commitSpark (i : Nat) : Stir Unit (update (Gyre.onSpark i Conn.commit))
  | rollbackWard : Stir Unit (remember (Gyre.setWard Conn.rollback))
  | rollbackSpark (i : Nat) :
      Stir Unit (remember (Gyre.setSpark i fun s => { s with db := s.db.rollback }))

theorem stir_fallible : MadeOf Stir Unit fallible := .move (.write .fallible)

/-- A group stirs nothing but its databases. -/
theorem stir_group {α : Type} {x : Action World α} (made : MadeOf GroupMove α x) :
    MadeOf Stir α x := by
  apply made.mono
  intro β y moves
  cases moves with
  | fallible => exact stir_fallible
  | plane _ => exact .move (.plane _)
  | group f => exact .move (.group f)
  | beginWard => exact .move .beginWard
  | beginSpark i => exact .move (.beginSpark i)
  | commitWard => exact .move .commitWard
  | commitSpark i => exact .move (.commitSpark i)
  | rollbackWard => exact .move .rollbackWard
  | rollbackSpark i => exact .move (.rollbackSpark i)

theorem stir_moves {α : Type} {x : Action World α} (made : MadeOf Move α x) : MadeOf Stir α x := by
  apply made.mono
  intro β y moves
  cases moves with
  | write writes => exact .move (.write writes)
  | join h => exact stir_group (grouped_groupJoin h)

theorem stir_writes {α : Type} {x : Action World α} (made : MadeOf Write α x) : MadeOf Stir α x :=
  made.mono fun _ _ writes => .move (.write writes)

theorem stir_payAlone (i : Nat) (amount : Int) (item : Option (Text × Text)) :
    MadeOf Stir Unit (payAlone i amount item) := by
  apply MadeOf.bind (stir_group grouped_groupBegin)
  intro _
  apply MadeOf.bind (.onFail (stir_moves (made_pay i amount item)) (stir_group grouped_groupAbort))
  intro _
  exact .onFail (stir_group grouped_groupCommit) (.move (.write (.remember (.paid i (-amount)))))

/-- A cycle up to its arrival; returns whether a Spark arrives. -/
def cycleBody : Action World Bool := do
  remember fun g => { g with cycle := g.cycle + 1 }
  groupBegin
  let arriving ← Action.onFail cycleWrites groupAbort
  groupCommit
  return arriving

/-- The arrival at the end of a cycle. -/
def arrival (arriving : Bool) : Action World Unit := do
  if arriving then
    let g ← Action.read (·.g)
    joinWard (g.wardNo * sparksPerWard + g.nsparks)

theorem cycle_eq : cycle = cycleBody >>= arrival := by
  simp only [cycle, cycleBody, arrival, bind_assoc, pure_bind]

theorem stir_cycleBody : MadeOf Stir Bool cycleBody := by
  apply MadeOf.bind (.move .count)
  intro _
  apply MadeOf.bind (stir_group grouped_groupBegin)
  intro _
  apply MadeOf.bind (.onFail (stir_moves made_cycleWrites) (stir_group grouped_groupAbort))
  intro _
  exact .bind (stir_group grouped_groupCommit) fun _ => .pure _

/-! ### Who is in a ward -/

/-- The ward's number, the name it was founded under, and its Sparks: their ids and the names of
their databases. -/
structure Roster where
  wardNo : Int
  dbPrefix : Text
  sparks : List (Int × Text)

def Gyre.roster (g : Gyre) : Roster :=
  { wardNo := g.wardNo, dbPrefix := g.dbPrefix, sparks := g.sparks.map fun s => (s.id, s.db.name) }

def World.roster (w : World) : Roster := w.g.roster

theorem roster_update {f : Gyre → Option Gyre} (same : ∀ g g', f g = some g' → g'.roster = g.roster) :
    Leaves World.roster (update f) := by
  intro w
  unfold update
  cases effect : f w.g with
  | none => rfl
  | some g => exact same w.g g effect

theorem roster_onWard (f : Conn WardTables → Option (Conn WardTables)) :
    Leaves World.roster (update (Gyre.onWard f)) := by
  apply roster_update
  intro g g' run
  have ⟨c, _, made⟩ := onWard_eq_some.mp run
  rw [made]
  rfl

theorem roster_setSpark {i : Nat} {f : Spark → Spark} {g : Gyre}
    (same : ∀ s, g.sparks[i]? = some s → (f s).id = s.id ∧ (f s).db.name = s.db.name) :
    (g.setSpark i f).roster = g.roster := by
  have sparks : (g.sparks.modify i f).map (fun s => (s.id, s.db.name)) =
      g.sparks.map fun s => (s.id, s.db.name) := by
    apply List.ext_getElem?
    intro k
    rw [List.getElem?_map, List.getElem?_modify, List.getElem?_map]
    by_cases here : i = k
    · cases there : g.sparks[k]? with
      | none => rfl
      | some s => simp [here, same s (here ▸ there)]
    · simp [here]
  simp only [Gyre.roster, Gyre.setSpark, sparks]

theorem roster_onSpark (i : Nat) {f : Conn SparkTables → Option (Conn SparkTables)}
    (same : ∀ c c', f c = some c' → c'.name = c.name) :
    Leaves World.roster (update (Gyre.onSpark i f)) := by
  apply roster_update
  intro g g' run
  have ⟨s, c, here, effect, made⟩ := onSpark_eq_some.mp run
  rw [made]
  apply roster_setSpark
  intro s' here'
  have alike : s = s' := Option.some.inj (here.symm.trans here')
  exact ⟨rfl, alike ▸ same _ _ effect⟩

theorem roster_fallible : Leaves World.roster fallible := asks_fallible.leaves _ fun _ _ => rfl

/-- What is changed in memory is nobody's seat. -/
theorem Bookkeeping.roster {f : Gyre → Gyre} (keeps : Bookkeeping f) (g : Gyre) :
    (f g).roster = g.roster := by
  cases keeps with
  | spend cost => rfl
  | draw r => rfl
  | earn amount => rfl
  | paid i amount => exact roster_setSpark fun _ _ => ⟨rfl, rfl⟩
  | setWear i f => exact roster_setSpark fun _ _ => ⟨rfl, rfl⟩
  | movePlace i f => exact roster_setSpark fun _ _ => ⟨rfl, rfl⟩
  | compound => rfl
  | retire amount => rfl

theorem Write.roster {α : Type} {x : Action World α} (writes : Write α x) :
    Leaves World.roster x := by
  cases writes with
  | fallible => exact roster_fallible
  | onWard runs => exact roster_onWard _
  | onSpark i runs =>
      apply roster_onSpark
      intro c c' run
      have ⟨_, t, _, made⟩ := Conn.execute_eq_some.mp run
      rw [made]
  | remember keeps => exact fun w => keeps.roster w.g
  | contract i =>
      apply (made_postContract i).leaves
      intro β y moves
      cases moves with
      | fallible => exact roster_fallible
      | onWard runs => exact roster_onWard _
      | draw r => exact fun w => (Bookkeeping.draw r).roster w.g

theorem Stir.roster {α : Type} {x : Action World α} (stir : Stir α x) :
    Leaves World.roster x := by
  cases stir with
  | write writes => exact writes.roster
  | count => exact fun _ => rfl
  | plane f => exact fun _ => rfl
  | group f => exact fun _ => rfl
  | beginWard => exact roster_onWard _
  | beginSpark i =>
      apply roster_onSpark
      intro c c' run
      rw [(Conn.begin_eq_some.mp run).2.2]
  | commitWard => exact roster_onWard _
  | commitSpark i =>
      apply roster_onSpark
      intro c c' run
      rw [(Conn.commit_eq_some.mp run).2]
  | rollbackWard => exact fun _ => rfl
  | rollbackSpark i =>
      intro w
      apply roster_setSpark
      intro s _
      constructor
      · rfl
      · change s.db.rollback.name = s.db.name
        unfold Conn.rollback
        cases s.db.saved <;> rfl

/-- Only arrivals and migrations change who is in a ward. -/
theorem leaves_roster {α : Type} {x : Action World α} (made : MadeOf Stir α x) :
    Leaves World.roster x :=
  made.leaves fun _ _ stir => stir.roster

/-! ### Calls that succeed -/

section Calls

variable {game game' : Game}

/-- A call on one ward that succeeds ran on that ward. -/
theorem onWard_some {i : Nat} {x : Action World Unit} (run : game.onWard i x = some game') :
    ∃ g w, game.wards[i]? = some g ∧ x { g, plane := game.plane } = (.ret (), w) ∧
      game' = { wards := game.wards.set i w.g, plane := w.plane } := by
  unfold Game.onWard at run
  cases here : game.wards[i]? with
  | none => simp [here] at run
  | some g =>
      simp only [here] at run
      cases ran : x { g, plane := game.plane } with
      | mk result w =>
          cases result with
          | ret done =>
              simp only [ran, Option.some.injEq] at run
              exact ⟨g, w, rfl, ran, run.symm⟩
          | fail => simp [ran] at run
          | halt => simp [ran] at run

/-- A migration that succeeds ran between two different wards. -/
theorem migrate_some {i j : Nat} {idx : Int} (run : game.play (.migrate i j idx) = some game') :
    i ≠ j ∧ ∃ leaving entering p, game.wards[i]? = some leaving ∧ game.wards[j]? = some entering ∧
      migrate idx { leaving, entering, plane := game.plane } = (.ret (), p) ∧
      game' = { wards := (game.wards.set i p.leaving).set j p.entering, plane := p.plane } := by
  change (if i = j then none else game.onWards i j (migrate idx)) = some game' at run
  by_cases same : i = j
  · rw [if_pos same] at run
    cases run
  · rw [if_neg same, Game.onWards] at run
    cases here : game.wards[i]? with
    | none => simp [here] at run
    | some leaving =>
        cases there : game.wards[j]? with
        | none => simp [here, there] at run
        | some entering =>
            simp only [here, there] at run
            cases ran : migrate idx { leaving, entering, plane := game.plane } with
            | mk result p =>
                cases result with
                | ret done =>
                    simp only [ran, Option.some.injEq] at run
                    exact ⟨same, leaving, entering, p, rfl, rfl, ran, run.symm⟩
                | fail => simp [ran] at run
                | halt => simp [ran] at run

end Calls

/-! ### Migration -/

section Passages

variable {α : Type} {p : Passage} {E : Passage → Prop}

theorem wp_onLeaving {x : Action World α} {Q : α → Passage → Prop} :
    wp (onLeaving x) Q E p ↔
      wp x (fun a w => Q a { p with leaving := w.g, plane := w.plane })
        (fun w => E { p with leaving := w.g, plane := w.plane })
        { g := p.leaving, plane := p.plane } := by
  unfold wp onLeaving
  cases x { g := p.leaving, plane := p.plane } with
  | mk result w => cases result <;> rfl

theorem wp_onEntering {x : Action World α} {Q : α → Passage → Prop} :
    wp (onEntering x) Q E p ↔
      wp x (fun a w => Q a { p with entering := w.g, plane := w.plane })
        (fun w => E { p with entering := w.g, plane := w.plane })
        { g := p.entering, plane := p.plane } := by
  unfold wp onEntering
  cases x { g := p.entering, plane := p.plane } with
  | mk result w => cases result <;> rfl

/-- A ward that is the same but for its books, its array and one row more in its ledger. -/
structure Posted (g g' : Gyre) : Prop where
  wardNo : g'.wardNo = g.wardNo
  dbPrefix : g'.dbPrefix = g.dbPrefix
  isOpen : g.ward.isOpen = true
  ward : ∃ row t, insertLedger row g.ward.now = some t ∧ g'.ward = { g.ward with now := t }

/-- Spark `s` at place `i` has left one ward and entered another as `s'`, under the wire name the
other ward gives them. -/
structure Moved (i : Nat) (s s' : Spark) (leaving entering leaving' entering' : Gyre) : Prop where
  here : leaving.sparks[i]? = some s
  room : entering.sparks.length < maxSparks
  spark : ∃ wire t, wireId entering.wardNo (sparkLocal s.id) = some wire ∧
    updateSparkWire s.id wire (classOwner .spark entering.wardNo) s.db.now = some t ∧
    s' = { s with db := { s.db with now := t } }
  left : leaving'.sparks = leaving.sparks.eraseIdx i
  came : entering'.sparks = entering.sparks ++ [s']
  leavingHouse : Posted leaving leaving'
  enteringHouse : Posted entering entering'

/-- The last step of a migration, once the Spark has the wire name of the other ward. -/
theorem move_moves {i : Nat} {s : Spark} {wire : Nat} {t : SparkTables} {leaving entering : Gyre}
    {q : Passage} (here : leaving.sparks[i]? = some s) (room : entering.sparks.length < maxSparks)
    (named : wireId entering.wardNo (sparkLocal s.id) = some wire)
    (effect : updateSparkWire s.id wire (classOwner .spark entering.wardNo) s.db.now = some t)
    (left : q.leaving.sparks =
      leaving.sparks.modify i fun s => { s with db := { s.db with now := t } })
    (came : q.entering.sparks = entering.sparks)
    (leavingHouse : Posted leaving q.leaving) (enteringHouse : Posted entering q.entering) :
    Moved i s { s with db := { s.db with now := t } } leaving entering (q.move i).leaving
      (q.move i).entering := by
  have there : q.leaving.sparks[i]? = some { s with db := { s.db with now := t } } := by
    rw [left, List.getElem?_modify_eq, here]
    rfl
  have moved : q.move i =
      { q with
        leaving := { q.leaving with sparks := q.leaving.sparks.eraseIdx i }
        entering :=
          { q.entering with
            sparks := q.entering.sparks ++ [{ s with db := { s.db with now := t } }] } } := by
    simp only [Passage.move, there]
  rw [moved]
  constructor
  · exact here
  · exact room
  · exact ⟨wire, t, named, effect, rfl⟩
  · simp only [left, List.eraseIdx_modify_of_eq]
  · simp only [came]
  · exact ⟨leavingHouse.wardNo, leavingHouse.dbPrefix, leavingHouse.isOpen, leavingHouse.ward⟩
  · exact ⟨enteringHouse.wardNo, enteringHouse.dbPrefix, enteringHouse.isOpen, enteringHouse.ward⟩

/-- A migration that succeeds moves one Spark. -/
theorem migrate_moves (idx : Int) (p : Passage) :
    wp (migrate idx)
      (fun _ p' => ∃ s s', Moved idx.toNat s s' p.leaving p.entering p'.leaving p'.entering)
      (fun _ => True) p := by
  unfold migrate
  rw [Action.wp_bind, Action.wp_read]
  apply Action.wp_ite
  · intro _
    trivial
  intro _
  apply Action.wp_ite
  · intro _
    trivial
  intro notFull
  cases here : (id p).leaving.sparks[idx.toNat]? with
  | none => trivial
  | some s =>
      dsimp only
      rw [Action.wp_bind, wp_onLeaving]
      change wp (onEntering (remember (Gyre.issue s.purse)) >>= fun _ => _) _ _
        { p with leaving := p.leaving.issue (-s.purse) }
      rw [Action.wp_bind, wp_onEntering]
      change wp (onLeaving (scalarSpark idx.toNat countHeld) >>= fun _ => _) _ _
        { p with
          leaving := p.leaving.issue (-s.purse), entering := p.entering.issue s.purse }
      rw [Action.wp_bind, wp_onLeaving]
      have asked : Leaves World.g (scalarSpark idx.toNat countHeld) :=
        (asks_scalarOr _ _).leaves _ fun _ _ => rfl
      apply Action.wp_mono (asked.wp _) _ fun _ _ => trivial
      intro carried w same
      cases w with
      | mk g plane grp stop =>
      cases same
      rw [Action.wp_bind, wp_onLeaving]
      change wp (onEntering (remember (Gyre.hold carried)) >>= fun _ => _) _ _
        { leaving := (p.leaving.issue (-s.purse)).hold (-carried)
          entering := p.entering.issue s.purse, plane }
      rw [Action.wp_bind, wp_onEntering]
      change wp (onLeaving (book .departed (-s.purse) s.id) >>= fun _ => _) _ _
        { leaving := (p.leaving.issue (-s.purse)).hold (-carried)
          entering := (p.entering.issue s.purse).hold carried, plane }
      rw [Action.wp_bind, wp_onLeaving]
      unfold book
      rw [Action.wp_bind, Action.wp_read]
      apply wp_runWard trivial
      intro leavingOpen left departed
      rw [Action.wp_bind, wp_onEntering, Action.wp_bind, Action.wp_read]
      apply wp_runWard trivial
      intro enteringOpen came arrived
      rw [Action.wp_bind, wp_onEntering]
      apply wp_wireIdOrExit
      intro wire named
      rw [Action.wp_bind, wp_onLeaving]
      apply wp_runSpark trivial
      intro s' t there _ effect
      have alike : s = s' := Option.some.inj (here.symm.trans there)
      subst alike
      apply Exists.intro s
      apply Exists.intro { s with db := { s.db with now := t } }
      have here : p.leaving.sparks[idx.toNat]? = some s := here
      have room : p.entering.sparks.length < maxSparks := Nat.not_le.mp notFull
      apply move_moves here room named effect
      · rfl
      · rfl
      · exact ⟨rfl, rfl, leavingOpen, _, left, departed, rfl⟩
      · exact ⟨rfl, rfl, enteringOpen, _, came, arrived, rfl⟩

theorem lands_onLeaving {x : Action World α} {Q : α → Passage → Prop}
    (lands : Lands x (fun a w => Q a { p with leaving := w.g, plane := w.plane })
      { g := p.leaving, plane := p.plane }) : Lands (onLeaving x) Q p := by
  have ⟨a, w, run, after⟩ := lands
  apply Lands.of_run _ after
  rw [onLeaving, run]

theorem lands_onEntering {x : Action World α} {Q : α → Passage → Prop}
    (lands : Lands x (fun a w => Q a { p with entering := w.g, plane := w.plane })
      { g := p.entering, plane := p.plane }) : Lands (onEntering x) Q p := by
  have ⟨a, w, run, after⟩ := lands
  apply Lands.of_run _ after
  rw [onEntering, run]

theorem lands_book {w : World} (quiet : Quiet w) (standing : w.g.Open) (what : Entry)
    (amount spark : Int) {Q : Unit → World → Prop}
    (after : ∀ w' : World, Quiet w' → w'.g.sparks = w.g.sparks → w'.g.wardNo = w.g.wardNo → Q () w') :
    Lands (book what amount spark) Q w := by
  unfold book
  apply Lands.bind
  apply Lands.of_run rfl
  apply lands_runWard quiet standing.isOpen
  · rw [insertLedger, WardTables.existing, if_pos standing.created]
  · apply after
    · exact quiet
    · rfl
    · rfl

/-- On a plane that fails nothing, a Spark with an open database can migrate. -/
theorem lands_migrate {idx : Int} {s : Spark} {wire : Nat}
    (quiet : ∀ k, p.plane.faults k = false)
    (inside : 0 ≤ idx ∧ idx < p.leaving.nsparks) (here : p.leaving.sparks[idx.toNat]? = some s)
    (room : p.entering.sparks.length < maxSparks) (leavingHouse : p.leaving.Open)
    (enteringHouse : p.entering.Open) (isOpen : s.db.isOpen = true)
    (created : s.db.now.created = true)
    (named : wireId p.entering.wardNo (sparkLocal s.id) = some wire) :
    Lands (migrate idx) (fun _ _ => True) p := by
  unfold migrate
  apply Lands.bind
  apply Lands.of_run rfl
  rw [if_neg (show ¬ (idx < 0 ∨ (id p).leaving.nsparks ≤ idx) by
    change ¬ (idx < 0 ∨ p.leaving.nsparks ≤ idx)
    omega)]
  rw [if_neg (show ¬ maxSparks ≤ (id p).entering.sparks.length from Nat.not_le.mpr room)]
  dsimp only [id]
  rw [here]
  dsimp only
  apply Lands.bind
  apply lands_onLeaving
  apply Lands.of_run rfl
  apply Lands.bind
  apply lands_onEntering
  apply Lands.of_run rfl
  apply Lands.bind
  apply lands_onLeaving
  apply Lands.of_run (scalarSpark_quiet _ _ _)
  · apply Lands.bind
    apply lands_onLeaving
    apply Lands.of_run rfl
    apply Lands.bind
    apply lands_onEntering
    apply Lands.of_run rfl
    apply Lands.bind
    apply lands_onLeaving
    apply lands_book
    · exact quiet
    · exact ⟨leavingHouse.isOpen, leavingHouse.created⟩
    intro w₁ quiet₁ sparks₁ _
    apply Lands.bind
    apply lands_onEntering
    apply lands_book
    · exact quiet₁
    · exact ⟨enteringHouse.isOpen, enteringHouse.created⟩
    intro w₂ quiet₂ _ _
    apply Lands.bind
    apply lands_onEntering
    apply lands_wireIdOrExit named
    apply Lands.bind
    apply lands_onLeaving
    have effect : updateSparkWire s.id wire (classOwner .spark p.entering.wardNo) s.db.now =
        some { s.db.now with
          spark := s.db.now.spark.map fun r =>
            if r.id = s.id then
              { r with wire := wire, owner := classOwner .spark p.entering.wardNo }
            else r } := by
      rw [updateSparkWire, updateSparkRow, SparkTables.existing, if_pos created]
    have here₁ : w₁.g.sparks[idx.toNat]? = some s := by
      rw [sparks₁]
      exact here
    have ran := runSpark_quiet (w := { g := w₁.g, plane := w₂.plane }) quiet₂ here₁ isOpen effect
    exact .of_run ran (.of_run rfl trivial)
  · exact quiet

end Passages


/-! ### A cycle -/

/-- A cycle that succeeds has come through its body, and the Spark who arrives, if one does, has a
seat. -/
theorem cycle_ret {w w' : World} (run : cycle w = (.ret (), w')) :
    ∃ arriving w₁, cycleBody w = (.ret arriving, w₁) ∧
      if arriving then
        HasSeat (w₁.g.wardNo * sparksPerWard + w₁.g.nsparks) w₁.g ∧
          w'.g = w₁.g.withSpark (w₁.g.wardNo * sparksPerWard + w₁.g.nsparks)
      else w'.g = w₁.g := by
  rw [cycle_eq] at run
  have ⟨arriving, w₁, body, rest⟩ := Action.bind_eq_ret run
  apply Exists.intro arriving
  apply Exists.intro w₁
  constructor
  · exact body
  · cases arriving with
    | false =>
        have same := (Action.pure_eq_ret rest).2
        simp [same]
    | true =>
        have joined := Action.wp_ret (wp_joinWard _ w₁) rest
        exact joined

theorem roster_sparks {g g' : Gyre} (same : g'.roster = g.roster) :
    g'.sparks.length = g.sparks.length := by
  have sparks := congrArg (List.length ∘ Roster.sparks) same
  simpa [Gyre.roster] using sparks

/-! ### Zones -/

/-- No Spark migrates into a full zone. -/
def Roomy (game : Game) : Play → Prop
  | .migrate _ j _ => ∀ g, game.wards[j]? = some g → g.sparks.length < sparksPerWard
  | _ => True

theorem withSparks_eq (ids : List Int) (g : Gyre) :
    g.withSparks ids =
      { g with sparks := g.sparks ++ ids.map (newSpark g.dbPrefix g.wardNo) } := by
  induction ids generalizing g with
  | nil => simp [Gyre.withSparks]
  | cons id rest ih =>
      change (g.withSpark id).withSparks rest = _
      rw [ih, Gyre.withSpark, List.append_assoc]
      rfl

/-- Founded wards fit their zones. -/
theorem Shards.fit {game : Game} (shards : Shards game) :
    ∀ g ∈ game.wards, g.sparks.length ≤ sparksPerWard := by
  induction shards with
  | none plane =>
      intro g mem
      cases mem
  | ward _ _ fits founded ih =>
      intro g mem
      rcases List.mem_append.mp mem with old | new
      · exact ih g old
      · have made := Action.wp_ret (wp_foundWard _ _ _ _ _) founded
        rw [List.mem_singleton.mp new, made, withSparks_eq]
        simpa [Gyre.foundedAs, Gyre.opened, Gyre.zero] using fits

/-- One call keeps every ward within its zone, when it moves nobody into a full one. -/
theorem play_fits {game game' : Game} {call : Play} (roomy : Roomy game call)
    (fits : ∀ g ∈ game.wards, g.sparks.length ≤ sparksPerWard)
    (succeeds : game.play call = some game') :
    ∀ g ∈ game'.wards, g.sparks.length ≤ sparksPerWard := by
  have stirred : ∀ {i : Nat} {x : Action World Unit}, MadeOf Stir Unit x →
      game.onWard i x = some game' → ∀ g ∈ game'.wards, g.sparks.length ≤ sparksPerWard := by
    intro i x made run g mem
    obtain ⟨old, w, here, ran, after⟩ := onWard_some run
    rw [after] at mem
    rcases List.mem_or_eq_of_mem_set mem with other | same
    · exact fits g other
    · have kept := Action.wp_ret ((leaves_roster made).wp _) ran
      rw [same, roster_sparks kept]
      exact fits old (List.mem_of_getElem? here)
  cases call with
  | build i venue => exact stirred (stir_writes (made_buildVenue venue)) succeeds
  | pay i spark amount item => exact stirred (stir_payAlone spark amount item) succeeds
  | cycle i =>
      intro g mem
      obtain ⟨old, w, here, ran, after⟩ := onWard_some succeeds
      rw [after] at mem
      rcases List.mem_or_eq_of_mem_set mem with other | same
      · exact fits g other
      · obtain ⟨arriving, w₁, body, rest⟩ := cycle_ret ran
        have kept := Action.wp_ret ((leaves_roster stir_cycleBody).wp _) body
        have before : w₁.g.sparks.length ≤ sparksPerWard := by
          rw [roster_sparks kept]
          exact fits old (List.mem_of_getElem? here)
        rw [same]
        cases arriving with
        | false =>
            rw [if_neg Bool.false_ne_true] at rest
            rw [rest]
            exact before
        | true =>
            rw [if_pos rfl] at rest
            rw [rest.2, Gyre.withSpark, List.length_append]
            exact rest.1.room
  | migrate i j idx =>
      intro g mem
      obtain ⟨_, leaving, entering, p, here, there, ran, after⟩ := migrate_some succeeds
      obtain ⟨s, s', moved⟩ := Action.wp_ret (migrate_moves idx _) ran
      rw [after] at mem
      rcases List.mem_or_eq_of_mem_set mem with rest | same
      · rcases List.mem_or_eq_of_mem_set rest with other | same
        · exact fits g other
        · rw [same, moved.left]
          exact le_trans (List.length_eraseIdx_le ..) (fits leaving (List.mem_of_getElem? here))
      · rw [same, moved.came, List.length_append]
        exact roomy entering there

/-- In a game in which nobody migrates into a full zone, every ward stays within its zone. -/
theorem wards_fit_their_zones (game : Game) (plays : Plays Roomy game) :
    ∀ g ∈ game.wards, fixedEntities + g.sparks.length ≤ wardAuthority := by
  have fits : ∀ g ∈ game.wards, g.sparks.length ≤ sparksPerWard := by
    induction plays with
    | founded shards => exact shards.fit
    | played _ roomy succeeds ih => exact play_fits roomy ih succeeds
  intro g mem
  have small := fits g mem
  unfold sparksPerWard wardAuthority at *
  unfold fixedEntities nVenues boardSize wardEntities wardHeadroom at *
  omega

/-! ### Games as `shard` founds them -/

/-- A ward as `shard` founds it: the `i`-th, with `n` Sparks. -/
def shardWard (i n : Nat) (seed : UInt64) : Gyre :=
  (Gyre.zero.foundedAs (shardName i) seed ((i * sparksPerWard : Nat) : Int)).withSparks
    ((List.range n).map fun (k : Nat) => ((i * sparksPerWard : Nat) : Int) + k)

/-- What the loop of `shard` founds are wards on bases a ward apart. -/
theorem shards_of_foundShards (nsparks : Nat) (seed : UInt64) (m : Nat) {k : Nat}
    {game game' : Game} (shards : Shards game) (there : game.wards.length = k)
    (few : k + m ≤ maxWards) (many : ∀ j < k + m, j * sparksPerWard < nsparks)
    (founded : foundShards nsparks seed (List.range' k m) (k * sparksPerWard) game = some game') :
    Shards game' := by
  induction m generalizing k game with
  | zero =>
      cases founded
      exact shards
  | succ m ih =>
      rw [List.range'_succ, foundShards] at founded
      cases run : foundWard (shardName k) (min (nsparks - k * sparksPerWard) sparksPerWard)
          (seed + UInt64.ofNat k) ((k * sparksPerWard : Nat) : Int)
          { g := Gyre.zero, plane := game.plane } with
      | mk result w =>
          rw [run] at founded
          cases result with
          | fail => cases founded
          | halt => cases founded
          | ret done =>
              have next : Shards { wards := game.wards ++ [w.g], plane := w.plane } := by
                have room : game.wards.length < maxWards := by omega
                apply Shards.ward shards room (Nat.min_le_right ..)
                rw [there]
                exact run
              cases m with
              | zero =>
                  cases founded
                  exact next
              | succ m =>
                  -- a ward that is not the last is full
                  have full : min (nsparks - k * sparksPerWard) sparksPerWard = sparksPerWard := by
                    have behind := many (k + 1) (by omega)
                    rw [Nat.add_mul, Nat.one_mul] at behind
                    omega
                  apply ih (k := k + 1) next
                  · simp [there]
                  · omega
                  · intro j small
                    exact many j (by omega)
                  · dsimp only at founded
                    rw [full] at founded
                    rw [Nat.add_mul, Nat.one_mul]
                    exact founded

/-- The game `shard` founds is one of wards founded as `shard` founds them. -/
theorem shards_of_shard {nsparks : Nat} {seed : UInt64} {plane : Plane} {game : Game}
    (founded : shard nsparks seed plane = some game) : Shards game := by
  unfold shard at founded
  dsimp only at founded
  split at founded
  · cases founded
  · rename_i few
    rw [List.range_eq_range'] at founded
    apply shards_of_foundShards nsparks seed _ (.none plane) rfl _ _ (k := 0) _
    · exact (nsparks + sparksPerWard - 1) / sparksPerWard
    · omega
    · intro j small
      have size : sparksPerWard = 1384 := rfl
      rw [size] at small ⊢
      omega
    · rw [Nat.zero_mul]
      exact founded

theorem base_number (i : Nat) : (((i * sparksPerWard : Nat) : Int)).tdiv sparksPerWard = i := by
  rw [Nat.cast_mul]
  exact Int.mul_tdiv_cancel _ (by decide)

/-- A Spark's local name does not wrap around. -/
theorem sparkLocal_eq {id : Int} (real : 0 ≤ id) (small : id < 2 ^ 31) :
    sparkLocal id = wireSparkBase + id.toNat := by
  unfold sparkLocal wireSparkBase
  omega

/-- A ward of a game is founded, when nothing fails. -/
theorem lands_shardWard {i n base : Nat} (seed : UInt64) (few : i < maxWards)
    (fits : n ≤ sparksPerWard) (at_base : base = i * sparksPerWard) (plane : Plane)
    (quiet : ∀ k, plane.faults k = false) :
    Lands (foundWard (shardName i) n seed (base : Int))
      (fun _ w => Quiet w ∧ w.g = shardWard i n seed) { g := Gyre.zero, plane } := by
  subst at_base
  have number := base_number i
  unfold maxWards at few
  apply lands_foundWard
  · exact quiet
  · rfl
  · rw [number]
    omega
  · rw [number]
    unfold wireWardMax wireLocalBits
    omega
  · exact fits
  · intro k small
    rw [number, wireId_eq_some.mpr ⟨by omega, _, _, rfl⟩]
    · rfl
    · unfold wireWardMax wireLocalBits
      omega
    · have size : sparksPerWard = 1384 := rfl
      rw [size] at fits ⊢
      rw [sparkLocal_eq (by omega) (by omega)]
      unfold wireSparkBase wireLocalMax wireLocalBits
      omega

/-- One turn of the loop of `shard`. -/
theorem foundShards_ward {nsparks n i placed : Nat} {seed : UInt64} {rest : List Nat}
    {wards : List Gyre} {plane : Plane} {w : World}
    (take : min (nsparks - placed) sparksPerWard = n)
    (run : foundWard (shardName i) n (seed + UInt64.ofNat i) (placed : Int)
      { g := Gyre.zero, plane } = (.ret (), w)) :
    foundShards nsparks seed (i :: rest) placed { wards, plane } =
      foundShards nsparks seed rest (placed + n) { wards := wards ++ [w.g], plane := w.plane } := by
  rw [foundShards, take, run]

/-- A game of `nsparks` Sparks, on a plane that fails nothing. -/
def quietShard (nsparks : Nat) (seed : UInt64) : Option Game :=
  shard nsparks seed (Plane.fresh fun _ => false)

/-- A game of one Spark too many for one ward: the first is full, and the second has one. -/
theorem full_game (seed : UInt64) :
    ∃ plane, (∀ k, plane.faults k = false) ∧ quietShard (sparksPerWard + 1) seed = some
      { wards := [shardWard 0 sparksPerWard (seed + UInt64.ofNat 0),
          shardWard 1 1 (seed + UInt64.ofNat 1)], plane } := by
  have ⟨_, w₀, first, quiet₀, made₀⟩ := lands_shardWard (seed + UInt64.ofNat 0)
    (show 0 < maxWards by decide) (Nat.le_refl sparksPerWard) (Nat.zero_mul _).symm
    (Plane.fresh fun _ => false) fun _ => rfl
  have ⟨_, w₁, second, quiet₁, made₁⟩ := lands_shardWard (seed + UInt64.ofNat 1)
    (show 1 < maxWards by decide) (show 1 ≤ sparksPerWard by decide)
    (show 0 + sparksPerWard = 1 * sparksPerWard by rw [Nat.zero_add, Nat.one_mul]) w₀.plane quiet₀
  have two : (sparksPerWard + 1 + sparksPerWard - 1) / sparksPerWard = 2 := by decide
  have all : min (sparksPerWard + 1 - 0) sparksPerWard = sparksPerWard := by decide
  have last : min (sparksPerWard + 1 - (0 + sparksPerWard)) sparksPerWard = 1 := by decide
  apply Exists.intro w₁.plane
  constructor
  · exact quiet₁
  · have both : List.range 2 = [0, 1] := rfl
    rw [quietShard, shard, two, if_neg (by decide), both, foundShards_ward all first,
      foundShards_ward last second, made₀, made₁]
    rfl

theorem shardWard_sparks (i n : Nat) (seed : UInt64) :
    (shardWard i n seed).sparks = (List.range n).map fun (k : Nat) =>
      newSpark (fitted 64 (shardName i)) i (((i * sparksPerWard : Nat) : Int) + k) := by
  rw [shardWard, withSparks_eq, List.map_map]
  simp only [Gyre.foundedAs, Gyre.opened, Gyre.zero, base_number, List.nil_append]
  rfl

theorem shardWard_number (i n : Nat) (seed : UInt64) : (shardWard i n seed).wardNo = i := by
  rw [shardWard, withSparks_eq]
  exact base_number i

theorem shardWard_open (i n : Nat) (seed : UInt64) : (shardWard i n seed).Open := by
  have opened : Settled
      (Gyre.zero.foundedAs (shardName i) seed ((i * sparksPerWard : Nat) : Int)) :=
    ⟨sound_of_empty rfl rfl, rfl, rfl⟩
  exact (opened.withSparks _).standing

/-- Every Spark of a game has a name in each of its wards. -/
theorem spark_named {i : Nat} {id : Int} (few : i < maxWards) (real : 0 ≤ id)
    (small : id < maxWards * sparksPerWard) :
    wireId i (sparkLocal id) = some (i * wireLocalMax + (wireSparkBase + id.toNat)) := by
  have size : ((maxWards * sparksPerWard : Nat) : Int) = 11072 := rfl
  rw [Nat.cast_mul] at size
  rw [size] at small
  rw [sparkLocal_eq real (by omega)]
  apply wireId_eq_some.mpr
  unfold maxWards at few
  unfold wireSparkBase wireWardMax wireLocalMax wireLocalBits
  omega

/-- Between two wards as they are founded, the first Spark of one can migrate. -/
theorem lands_first_migration {i j n n' : Nat} (seed seed' : UInt64) (someone : 0 < n)
    (room : n' < maxSparks) (few : i < maxWards) (few' : j < maxWards) (plane : Plane)
    (quiet : ∀ k, plane.faults k = false) :
    Lands (migrate 0) (fun _ p => p.entering.sparks.length = n' + 1)
      { leaving := shardWard i n seed, entering := shardWard j n' seed', plane } := by
  have size : ∀ i n seed, (shardWard i n seed).sparks.length = n := by
    intro i n seed
    rw [shardWard_sparks, List.length_map, List.length_range]
  have here : (shardWard i n seed).sparks[0]? = some
      (newSpark (fitted 64 (shardName i)) i (((i * sparksPerWard : Nat) : Int) + (0 : Nat))) := by
    rw [shardWard_sparks, List.getElem?_map, List.getElem?_range someone]
    rfl
  have lands : Lands (migrate 0) (fun _ _ => True)
      { leaving := shardWard i n seed, entering := shardWard j n' seed', plane } := by
    apply lands_migrate
    · exact quiet
    · constructor
      · exact Int.le_refl 0
      · rw [Gyre.nsparks, size]
        omega
    · exact here
    · rw [size]
      exact room
    · exact shardWard_open i n seed
    · exact shardWard_open j n' seed'
    · rfl
    · rfl
    · rw [shardWard_number]
      apply spark_named few'
      · simp only [newSpark]
        omega
      · simp only [newSpark]
        unfold maxWards at few ⊢
        unfold sparksPerWard wardAuthority fixedEntities nVenues boardSize wardEntities
          wardHeadroom
        omega
  apply (lands.wp (migrate_moves 0 _)).mono
  rintro _ p ⟨_, s, s', moved⟩
  rw [moved.came, List.length_append, size]
  rfl

theorem play_migrate (wards : List Gyre) {plane : Plane} {i j : Nat} {idx : Int} {p : Passage}
    {leaving entering : Gyre} (apart : i ≠ j) (here : wards[i]? = some leaving)
    (there : wards[j]? = some entering)
    (run : migrate idx { leaving, entering, plane } = (.ret (), p)) :
    Game.play { wards, plane } (.migrate i j idx) =
      some { wards := (wards.set i p.leaving).set j p.entering, plane := p.plane } := by
  change (if i = j then none else Game.onWards i j (migrate idx) { wards, plane }) = _
  rw [if_neg apart, Game.onWards]
  simp only [here, there, run]

/-- A Spark leaves the full ward of a game, and every ward stays within its zone. -/
theorem spark_leaves_the_full_ward :
    ∃ game game', quietShard (sparksPerWard + 1) 1 = some game ∧
      game.play (.migrate 0 1 0) = some game' ∧
      ∀ g ∈ game'.wards, fixedEntities + g.sparks.length ≤ wardAuthority := by
  have ⟨plane, quiet, founded⟩ := full_game 1
  have ⟨_, p, run, _⟩ := lands_first_migration (i := 0) (j := 1) (n := sparksPerWard)
    (1 + UInt64.ofNat 0) (1 + UInt64.ofNat 1) (by decide) (show 1 < maxSparks by decide) (by decide)
    (by decide) plane quiet
  have moved := play_migrate [_, _] (i := 0) (j := 1) (by decide) rfl rfl run
  refine ⟨_, _, founded, moved, wards_fit_their_zones _ ?_⟩
  apply Plays.played (.founded (shards_of_shard founded)) _ moved
  intro g there
  cases there
  rw [shardWard_sparks, List.length_map, List.length_range]
  decide

/-- A Spark enters the full ward of a game, which outgrows its zone. -/
theorem full_ward_takes_one_more :
    ∃ game game', quietShard (sparksPerWard + 1) 1 = some game ∧ Shards game ∧
      game.play (.migrate 1 0 0) = some game' ∧
      ¬ ∀ g ∈ game'.wards, fixedEntities + g.sparks.length ≤ wardAuthority := by
  have ⟨plane, quiet, founded⟩ := full_game 1
  have ⟨_, p, run, grown⟩ := lands_first_migration (i := 1) (j := 0) (n := 1) (1 + UInt64.ofNat 1)
    (1 + UInt64.ofNat 0) (by decide) (show sparksPerWard < maxSparks by decide) (by decide)
    (by decide) plane quiet
  have moved := play_migrate [_, _] (i := 1) (j := 0) (by decide) rfl rfl run
  refine ⟨_, _, founded, shards_of_shard founded, moved, fun fits => ?_⟩
  have outgrown := fits p.entering (by simp)
  rw [grown] at outgrown
  exact absurd outgrown (by decide)

end GyreWard
