/-
Module: GyreWard.Proofs.Mirror
Purpose: A Spark's database is what the ward remembers of them, after every command of an undisturbed
  service.  In between, only the Spark who is at work is out of step.
Trusted boundary: none
Main exports: Posture, Mirrors, Gyre.Remembers, spark_rows_mirror_memory
-/
import GyreWard.Proofs.Books

namespace GyreWard

open Lib
open Lib.Action (MadeOf Leaves wp)

/-! ### Where a Spark stands -/

/-- A row of a Spark's own database, but for the purse and the last cycle of work. -/
structure Station where
  id : Int
  wear : Int
  place : Place
  wire : Nat
  owner : Nat

def SparkRow.station (r : SparkRow) : Station :=
  { id := r.id, wear := r.wear, place := r.place, wire := r.wire, owner := r.owner }

/-- A Spark, as far as their work goes: what is remembered, and the rows of their own database. -/
structure Posture where
  id : Int
  wear : Int
  place : Place
  rows : List Station

def Spark.posture (s : Spark) : Posture :=
  { id := s.id, wear := s.wear, place := s.place, rows := s.db.now.spark.map SparkRow.station }

/-- The ward's number and where its Sparks stand. -/
def World.postures (w : World) : Int × List Posture := (w.g.wardNo, w.g.sparks.map Spark.posture)

/-- One row, named for its Spark, with the Frame worn no more than it can be; and if the Spark is at
rest, the row says where and how worn they are. -/
structure Posture.Mirrored (ward : Int) (resting : Prop) (p : Posture) : Prop where
  row : ∃ r, p.rows = [r] ∧ r.id = p.id ∧ wireId ward (sparkLocal p.id) = some r.wire ∧
    r.owner = classOwner .spark ward ∧ (resting → r.wear = p.wear ∧ r.place = p.place)
  fresh : 0 ≤ p.wear
  worn : p.wear ≤ 90

/-- Every Spark's row mirrors them, but for the one who is at work. -/
def Mirrors (busy : Option Nat) (w : World) : Prop :=
  ∀ (k : Nat) (s : Spark), w.g.sparks[k]? = some s →
    s.posture.Mirrored w.g.wardNo (busy ≠ some k)

section Mirrors

variable {busy busy' : Option Nat} {w w' : World} {i : Nat}

theorem Mirrors.of_same (mirrors : Mirrors busy w) (same : w'.postures = w.postures) :
    Mirrors busy w' := by
  intro k s here
  have ward : w'.g.wardNo = w.g.wardNo := congrArg Prod.fst same
  have sparks : w'.g.sparks.map Spark.posture = w.g.sparks.map Spark.posture :=
    congrArg Prod.snd same
  have there : (w.g.sparks.map Spark.posture)[k]? = some s.posture := by
    rw [← sparks, List.getElem?_map, here]
    rfl
  obtain ⟨s', here', alike⟩ := Option.map_eq_some_iff.mp (List.getElem?_map.symm.trans there)
  rw [ward, ← alike]
  exact mirrors k s' here'

/-- What is changed of the Spark at work is nobody else's business. -/
theorem Mirrors.setSpark (mirrors : Mirrors busy w) (only : ∀ k, k ≠ i → busy ≠ some k)
    {f : Spark → Spark}
    (each : ∀ s : Spark, w.g.sparks[i]? = some s →
      s.posture.Mirrored w.g.wardNo (busy ≠ some i) →
        (f s).posture.Mirrored w.g.wardNo (busy' ≠ some i)) :
    Mirrors busy' (w.setGyre (Gyre.setSpark i f)) := by
  intro k s here
  change (w.g.setSpark i f).sparks[k]? = some s at here
  change s.posture.Mirrored w.g.wardNo _
  rw [setSpark_at] at here
  split at here
  · rename_i same
    subst same
    obtain ⟨s', here', rfl⟩ := Option.map_eq_some_iff.mp here
    exact each s' here' (mirrors i s' here')
  · rename_i other
    obtain ⟨⟨r, rows, named, wire, owner, rest⟩, fresh, worn⟩ := mirrors k s here
    exact ⟨⟨r, rows, named, wire, owner, fun _ => rest (only k (Ne.symm other))⟩, fresh, worn⟩

/-- A Frame wears, within its bounds. -/
theorem wornBy_bounds (won repaired : Bool) (wear : Int) :
    0 ≤ wornBy won repaired wear ∧ wornBy won repaired wear ≤ 90 := by
  unfold wornBy
  dsimp only
  split <;> split <;> split <;> omega

theorem Mirrors.setWear (mirrors : Mirrors none w) (won repaired : Bool) :
    Mirrors (some i) (w.setGyre (Gyre.setWear i (wornBy won repaired))) := by
  refine mirrors.setSpark (fun _ _ => nofun) fun s _ mirrored => ?_
  obtain ⟨⟨r, rows, named, wire, owner, -⟩, -, -⟩ := mirrored
  have bounds := wornBy_bounds won repaired s.wear
  exact ⟨⟨r, rows, named, wire, owner, fun atRest => absurd rfl atRest⟩, bounds.1, bounds.2⟩

theorem only_busy (i : Nat) : ∀ k, k ≠ i → some i ≠ some k :=
  fun _ other same => other (Option.some.inj same).symm

theorem Mirrors.movePlace (mirrors : Mirrors (some i) w) (f : Place → Place) :
    Mirrors (some i) (w.setGyre (Gyre.movePlace i f)) := by
  refine mirrors.setSpark (only_busy i) fun s _ mirrored => ?_
  obtain ⟨⟨r, rows, named, wire, owner, -⟩, fresh, worn⟩ := mirrored
  exact ⟨⟨r, rows, named, wire, owner, fun atRest => absurd rfl atRest⟩, fresh, worn⟩

/-- The Spark at work writes down where they are, and everybody is mirrored again. -/
theorem Mirrors.updateWork (mirrors : Mirrors (some i) w) {s : Spark}
    (here : w.g.sparks[i]? = some s) (cycle : Int) :
    wp (runSpark i (updateWork s.id s.wear cycle s.place)) (fun _ => Mirrors none)
      (fun _ => True) w := by
  refine wp_runSpark trivial fun s' t here' _ effect => ?_
  obtain rfl : s = s' := Option.some.inj (here.symm.trans here')
  have after : Mirrors (some i) (w.after 1) := mirrors
  refine after.setSpark (only_busy i) fun s' here' mirrored => ?_
  obtain rfl : s = s' := Option.some.inj (here.symm.trans here')
  obtain ⟨⟨r, rows, named, wire, owner, -⟩, fresh, worn⟩ := mirrored
  obtain ⟨row, one, rfl⟩ := List.map_eq_singleton_iff.mp rows
  unfold GyreWard.updateWork updateSparkRow SparkTables.existing at effect
  split at effect
  · obtain rfl := Option.some.inj effect
    have mine : row.id = s.id := named
    refine ⟨⟨{ row.station with wear := s.wear, place := s.place }, ?_, named, wire, owner,
      fun _ => ⟨rfl, rfl⟩⟩, fresh, worn⟩
    · simp only [Spark.posture, one, List.map_singleton, if_pos mine]
      rfl
  · cases effect

end Mirrors

/-! ### What moves nobody -/

/-- Code put together from calls that move nobody. -/
abbrev Still (α : Type) (x : Action World α) : Prop :=
  MadeOf (fun _ y => Leaves World.postures y) α x

theorem Still.wp {α : Type} {x : Action World α} (made : Still α x) {busy : Option Nat} {w : World}
    (mirrors : Mirrors busy w) {Q : α → World → Prop}
    (ran : ∀ a w', Mirrors busy w' → Q a w') : Action.wp x Q (fun _ => True) w := by
  have leaves := MadeOf.leaves made fun _ _ steady => steady
  exact Action.wp_mono (leaves.wp w) (fun a w' same => ran a w' (mirrors.of_same same)) fun _ _ =>
    trivial

theorem still_of_asks {α : Type} {x : Action World α} (asks : Asks x) : Still α x :=
  .move (asks.leaves _ fun _ _ => rfl)

theorem still_fallible : Still Unit fallible := still_of_asks asks_fallible

theorem still_modify {f : World → World} (same : ∀ w, (f w).postures = w.postures) :
    Still Unit (.modify f) :=
  .move fun w => same w

theorem still_update {f : Gyre → Option Gyre}
    (same : ∀ g g', f g = some g' →
      g'.wardNo = g.wardNo ∧ g'.sparks.map Spark.posture = g.sparks.map Spark.posture) :
    Still Unit (update f) := by
  refine .move fun w => ?_
  unfold update
  cases effect : f w.g with
  | none => rfl
  | some g =>
      obtain ⟨ward, sparks⟩ := same w.g g effect
      exact Prod.ext ward sparks

theorem still_onWard (f : Conn WardTables → Option (Conn WardTables)) :
    Still Unit (update (Gyre.onWard f)) := by
  refine still_update fun g g' run => ?_
  obtain ⟨c, -, rfl⟩ := onWard_eq_some.mp run
  exact ⟨rfl, rfl⟩

theorem still_runWard (stmt : WardTables → Option WardTables) : Still Unit (runWard stmt) :=
  .bind still_fallible fun _ => still_onWard _

theorem postures_of_modify {sparks : List Spark} {i : Nat} {f : Spark → Spark}
    (same : ∀ s : Spark, sparks[i]? = some s → (f s).posture = s.posture) :
    (sparks.modify i f).map Spark.posture = sparks.map Spark.posture := by
  refine List.ext_getElem? fun k => ?_
  rw [List.getElem?_map, List.getElem?_modify, List.getElem?_map]
  rcases eq_or_ne i k with rfl | elsewhere
  · cases here : sparks[i]? with
    | none => rfl
    | some s => simp [same s here]
  · simp [elsewhere]

theorem still_onSpark (i : Nat) {f : Conn SparkTables → Option (Conn SparkTables)}
    (same : ∀ c c', f c = some c' → c'.now.spark.map SparkRow.station =
      c.now.spark.map SparkRow.station) : Still Unit (update (Gyre.onSpark i f)) := by
  refine still_update fun g g' run => ⟨?_, ?_⟩
  · obtain ⟨s, c, -, -, rfl⟩ := onSpark_eq_some.mp run
    rfl
  · obtain ⟨s, c, here, effect, rfl⟩ := onSpark_eq_some.mp run
    refine postures_of_modify fun s' here' => ?_
    obtain rfl : s = s' := Option.some.inj (here.symm.trans here')
    simp only [Spark.posture, same _ _ effect]

theorem still_runSpark (i : Nat) {stmt : SparkTables → Option SparkTables}
    (same : ∀ t t', stmt t = some t' → t'.spark.map SparkRow.station =
      t.spark.map SparkRow.station) : Still Unit (runSpark i stmt) := by
  refine .bind still_fallible fun _ => still_onSpark i fun c c' run => ?_
  obtain ⟨-, t, effect, rfl⟩ := Conn.execute_eq_some.mp run
  exact same _ _ effect

theorem still_updatePurse (i : Nat) (id amount : Int) :
    Still Unit (runSpark i (updatePurse id amount)) := by
  refine still_runSpark i fun t t' effect => ?_
  unfold updatePurse updateSparkRow SparkTables.existing at effect
  split at effect
  · obtain rfl := Option.some.inj effect
    rw [List.map_map]
    refine List.map_congr_left fun r _ => ?_
    rw [Function.comp_apply]
    split <;> rfl
  · cases effect

theorem still_insertHeld (i : Nat) (row : HeldRow) :
    Still Unit (runSpark i (insertHeld row)) := by
  refine still_runSpark i fun t t' effect => ?_
  unfold insertHeld SparkTables.existing at effect
  split at effect
  · dsimp only at effect
    split at effect
    · cases effect
    · obtain rfl := Option.some.inj effect
      rfl
  · cases effect

theorem JoinMove.still {α : Type} {x : Action World α} (moves : JoinMove α x) : Still α x := by
  cases moves with
  | fallible => exact still_fallible
  | takePart h => exact still_modify fun _ => rfl
  | beginWard => exact still_onWard _
  | beginSpark i =>
      refine still_onSpark i fun c c' begun => ?_
      obtain ⟨-, -, rfl⟩ := Conn.begin_eq_some.mp begun
      rfl
  | enlist h => exact still_modify fun _ => rfl

theorem still_groupJoin (h : Handle) : Still Unit (groupJoin h) :=
  (made_groupJoin h).mono fun _ _ moves => moves.still

theorem still_sqlCommit (h : Handle) : Still Unit (sqlCommit h) := by
  cases h with
  | ward => exact .bind still_fallible fun _ => still_onWard _
  | spark i =>
      refine .bind still_fallible fun _ => still_onSpark i fun c c' committed => ?_
      obtain ⟨-, rfl⟩ := Conn.commit_eq_some.mp committed
      rfl

theorem still_book (what : Entry) (amount spark : Int) : Still Unit (book what amount spark) :=
  .bind (.read _) fun _ => still_runWard _

theorem still_draw (n : UInt32) : Still Int (draw n) := by
  refine .bind (.read _) fun r => ?_
  cases rngBelow r n with
  | some drawn => exact .bind (still_modify fun _ => rfl) fun _ => .pure _
  | none => exact .halt

theorem still_buildVenue (i : Int) : Still Unit (buildVenue i) := by
  unfold buildVenue
  refine .guard ?_
  cases venues[i.toNat]? with
  | none => exact .fail
  | some v =>
      refine .bind (.read _) fun _ => .guard (.bind (still_of_asks (asks_built i)) fun _ => .guard ?_)
      refine .bind (still_modify fun _ => rfl) fun _ => .bind (.read _) fun _ => ?_
      exact .bind (still_runWard _) fun _ => still_book _ _ _

theorem still_commission : Still Int commission := by
  refine .bind (still_of_asks asks_wardView) fun view => .bind (.attempt still_fallible) ?_
  intro asked
  cases asked with
  | none => exact .pure _
  | some _ =>
      refine .bind (.read _) fun late => ?_
      cases queenPlan late view with
      | none => exact .pure _
      | some i =>
          refine .ite (fun _ => .pure _) fun _ => .bind (.attempt (still_buildVenue i)) ?_
          intro landed
          cases landed <;> exact .pure _

theorem still_postBoard : Still Unit postBoard := by
  refine .bind (still_of_asks (asks_built 2)) fun _ => .bind (still_runWard _) fun _ => ?_
  refine .forEach fun i _ => (made_postContract i).mono fun _ _ moves => ?_
  cases moves with
  | fallible => exact still_fallible
  | onWard _ => exact still_onWard _
  | draw r => exact still_modify fun _ => rfl

theorem still_choose (i : Nat) : Still Int (choose i) := by
  refine .bind (.attempt still_fallible) fun asked => ?_
  cases asked with
  | none => exact .pure _
  | some _ =>
      refine .bind (.read _) fun found => ?_
      rcases found with ⟨_ | rows, _ | s⟩
      · exact .pure _
      · exact .pure _
      · exact .pure _
      · refine .bind (still_of_asks (asks_built 0)) fun _ => ?_
        refine .bind (still_of_asks (asks_built 4)) fun _ => .ite (fun _ => .pure _) fun _ => ?_
        refine .bind (.attempt (still_runWard _)) fun took => ?_
        cases took <;> exact .pure _

theorem still_keepContract (payout spark : Int) : Still Text (keepContract payout spark) :=
  .bind (.read _) fun _ => .bind (still_modify fun _ => rfl) fun _ =>
    .bind (still_book _ _ _) fun _ => .pure _

theorem still_debtClock : Still Unit debtClock := by
  refine .bind (still_modify fun _ => rfl) fun _ => .bind (.read _) fun paid => ?_
  refine .ite (fun _ => ?_) fun _ => .pure _
  exact .bind (still_modify fun _ => rfl) fun _ => still_book _ _ _

theorem still_paid (i : Nat) (amount : Int) : Still Unit (remember (Gyre.paid i amount)) :=
  still_modify fun _ => Prod.ext rfl (postures_of_modify fun _ _ => rfl)

theorem still_pay (i : Nat) (amount : Int) (item : Option (Text × Text)) :
    Still Unit (pay i amount item) := by
  refine .bind (still_groupJoin _) fun _ => .bind (.read _) fun id => ?_
  refine .bind (still_book _ _ _) fun _ => .bind (still_updatePurse i _ _) fun _ => ?_
  cases item with
  | none => exact still_paid i amount
  | some named =>
      exact .bind (.read _) fun _ => .bind (still_insertHeld i _) fun _ => still_paid i amount

theorem still_groupBegin : Still Unit groupBegin := by
  have opened : Still Nat (do
      fallible
      Action.modify <| World.setPlane fun p =>
        { p with
          locked := true, isOpen := true, txn := p.lastTxn + 1, parts := []
          lastTxn := p.lastTxn + 1 }
      let txn ← Action.read (·.plane.txn)
      observe (.began txn)
      pure txn) :=
    .bind still_fallible fun _ => .bind (still_modify fun _ => rfl) fun _ =>
      .bind (.read _) fun _ => .bind (still_modify fun _ => rfl) fun _ => .pure _
  have begun : Still Nat weftTxnBegin :=
    .bind (.read _) fun _ => .ite (fun _ => .bind .halt fun _ => opened) fun _ => opened
  exact .bind (still_modify fun _ => rfl) fun _ => .bind begun fun _ =>
    .bind (still_modify fun _ => rfl) fun _ => still_groupJoin .ward

theorem still_weftTxnCommit (txn : Nat) : Still Unit (weftTxnCommit txn) := by
  refine .bind (still_modify fun _ => rfl) fun _ => .bind (.read _) fun p => ?_
  refine .ite (fun _ => .fail) fun _ => .bind (.attempt still_fallible) fun recorded => ?_
  refine .bind (still_modify fun _ => rfl) fun _ => ?_
  cases recorded with
  | some _ => exact .pure _
  | none => exact .fail

/-! ### A Spark at work -/

section Work

variable {w : World}

theorem wp_groupCommit_still {busy : Option Nat} (mirrors : Mirrors busy w)
    {Q : Unit → World → Prop} (landed : ∀ w', Mirrors busy w' → Q () w') :
    wp groupCommit Q (fun _ => True) w := by
  unfold groupCommit
  rw [Action.wp_bind, Action.wp_read, Action.wp_bind]
  refine Action.wp_onFail_any ?_
  have committed : Still Unit (Action.forEach w.grp.dbs sqlCommit) :=
    .forEach fun h _ => still_sqlCommit h
  exact committed.wp mirrors fun _ w₁ mirrors₁ =>
    (still_weftTxnCommit _).wp mirrors₁ fun _ w₂ mirrors₂ => landed w₂ mirrors₂

/-- The way to the work ends with a row that says where the Spark is. -/
theorem wp_goToWork_mirrors {i : Nat} (mirrors : Mirrors (some i) w) (id : Nat) :
    wp (goToWork i id) (fun _ => Mirrors none) (fun _ => True) w := by
  have went : ∀ {query : Gyre → Option Int} {f : Int → Place → Place} {w : World}
      {rest : Action World Unit}, Mirrors (some i) w →
      (∀ w', Mirrors (some i) w' → wp rest (fun _ => Mirrors none) (fun _ => True) w') →
      wp (do
        let v ← scalarOr 0 query
        remember (Gyre.movePlace i (f v))
        rest) (fun _ => Mirrors none) (fun _ => True) w := by
    intro query f w rest mirrors more
    rw [Action.wp_bind]
    refine (still_of_asks (asks_scalarOr _ _)).wp mirrors fun v w₁ mirrors₁ => ?_
    rw [Action.wp_bind]
    exact more _ (mirrors₁.movePlace (f v))
  unfold goToWork
  refine went mirrors fun w₁ mirrors₁ => went mirrors₁ fun w₂ mirrors₂ => ?_
  refine went mirrors₂ fun w₃ mirrors₃ => ?_
  rw [Action.wp_bind]
  refine (still_groupJoin _).wp mirrors₃ fun _ w₄ mirrors₄ => ?_
  rw [Action.wp_bind, Action.wp_read]
  cases here : w₄.g.sparks[i]? with
  | some s => exact mirrors₄.updateWork here _
  | none =>
      intro k s there
      obtain ⟨⟨r, rows, named, wire, owner, rest⟩, fresh, worn⟩ := mirrors₄ k s there
      refine ⟨⟨r, rows, named, wire, owner, fun _ => rest fun same => ?_⟩, fresh, worn⟩
      obtain rfl := Option.some.inj same
      rw [here] at there
      cases there

theorem wp_settleContract_mirrors (mirrors : Mirrors none w) (i id : Nat) (won : Bool)
    (earned : Int) (item : Option Text) :
    wp (settleContract i id won earned item) (fun _ => Mirrors none) (fun _ => True) w := by
  unfold settleContract
  rw [Action.wp_bind]
  refine (still_of_asks (asks_built 1)).wp mirrors fun repaired w₁ mirrors₁ => ?_
  rw [Action.wp_bind]
  have worn : Mirrors (some i) (w₁.setGyre (Gyre.setWear i (wornBy won repaired))) :=
    mirrors₁.setWear won repaired
  change wp _ _ _ (w₁.setGyre (Gyre.setWear i (wornBy won repaired)))
  rw [Action.wp_bind]
  refine (still_runWard _).wp worn fun _ w₂ mirrors₂ => ?_
  dsimp only
  rw [Action.wp_bind, Action.wp_read]
  refine Action.wp_ite (fun _ => ?_) fun _ => wp_goToWork_mirrors mirrors₂ id
  rw [Action.wp_bind]
  exact (still_pay i _ _).wp mirrors₂ fun _ w₃ mirrors₃ => wp_goToWork_mirrors mirrors₃ id

theorem wp_workContract_mirrors (mirrors : Mirrors none w) (i : Nat) (s : Spark) (id : Nat) :
    wp (workContract i s id) (fun _ => Mirrors none) (fun _ => True) w := by
  unfold workContract
  rw [Action.wp_bind]
  refine (still_of_asks (asks_scalarOr _ _)).wp mirrors fun payout w₁ mirrors₁ => ?_
  rw [Action.wp_bind]
  refine (still_of_asks (asks_scalarOr _ _)).wp mirrors₁ fun risk w₂ mirrors₂ => ?_
  rw [Action.wp_bind]
  refine (still_draw 100).wp mirrors₂ fun roll w₃ mirrors₃ => ?_
  refine Action.wp_ite (fun _ => ?_) fun _ => ?_
  · have kept : Still (Option Text) (some <$> keepContract payout s.id) :=
      .bind (still_keepContract _ _) fun _ => .pure _
    rw [Action.wp_bind]
    exact kept.wp mirrors₃ fun item w₄ mirrors₄ =>
      wp_settleContract_mirrors mirrors₄ i id _ _ item
  · rw [pure_bind]
    exact wp_settleContract_mirrors mirrors₃ i id _ _ none

theorem wp_sparkTurn_mirrors (mirrors : Mirrors none w) (i : Nat) :
    wp (sparkTurn i) (fun _ => Mirrors none) (fun _ => True) w := by
  unfold sparkTurn
  rw [Action.wp_bind]
  refine (still_choose i).wp mirrors fun id w₁ mirrors₁ => ?_
  refine Action.wp_ite (fun _ => mirrors₁) fun _ => ?_
  rw [Action.wp_bind, Action.wp_read]
  cases w₁.g.sparks[i]? with
  | some s => exact wp_workContract_mirrors mirrors₁ i s id.toNat
  | none => exact mirrors₁

/-- Whoever arrives is mirrored. -/
theorem wp_joinWard_mirrors (mirrors : Mirrors none w) (id : Int) :
    wp (joinWard id) (fun _ => Mirrors none) (fun _ => True) w := by
  refine Action.wp_mono (wp_joinWard id w) (fun _ w' joined => ?_) fun _ _ => trivial
  obtain ⟨seat, seated⟩ := joined
  intro k s here
  rw [seated] at here ⊢
  rcases spark_withSpark here with before | rfl
  · exact mirrors k s before
  · obtain ⟨wire, named⟩ := Option.isSome_iff_exists.mp seat.named
    have named : wireId w.g.wardNo (sparkLocal id) = some wire := named
    refine ⟨⟨_, rfl, rfl, ?_, rfl, fun _ => ⟨rfl, rfl⟩⟩, Int.le_refl 0, Int.natCast_nonneg 90⟩
    change wireId w.g.wardNo (sparkLocal id) =
      some ((wireId w.g.wardNo (sparkLocal id)).getD 0)
    rw [named]
    rfl

theorem wp_cycle_mirrors (mirrors : Mirrors none w) :
    wp cycle (fun _ => Mirrors none) (fun _ => True) w := by
  have counted : Mirrors none (w.setGyre fun g => { g with cycle := g.cycle + 1 }) := mirrors
  have wrote : ∀ {w : World}, Mirrors none w →
      wp cycleWrites (fun _ => Mirrors none) (fun _ => True) w := by
    intro w mirrors
    unfold cycleWrites
    rw [Action.wp_bind]
    refine still_commission.wp mirrors fun decided w₁ mirrors₁ => ?_
    refine Action.wp_ite (fun _ => trivial) fun _ => ?_
    rw [Action.wp_bind]
    refine still_postBoard.wp mirrors₁ fun _ w₂ mirrors₂ => ?_
    rw [Action.wp_bind, Action.wp_read, Action.wp_bind]
    refine Action.wp_mono (Action.wp_forEach (I := fun _ => Mirrors none) mirrors₂
      fun i _ _ mirrors => wp_sparkTurn_mirrors mirrors i) (fun _ w₃ mirrors₃ => ?_) fun _ _ =>
        trivial
    rw [Action.wp_bind]
    refine still_debtClock.wp mirrors₃ fun _ w₄ mirrors₄ => ?_
    rw [Action.wp_bind]
    refine (still_of_asks (asks_built 5)).wp mirrors₄ fun row w₅ mirrors₅ => ?_
    rw [Action.wp_bind, Action.wp_read, Action.wp_bind]
    exact (still_runWard _).wp mirrors₅ fun _ w₆ mirrors₆ => mirrors₆
  unfold cycle
  rw [Action.wp_bind]
  change wp _ _ _ (w.setGyre fun g => { g with cycle := g.cycle + 1 })
  rw [Action.wp_bind]
  refine still_groupBegin.wp counted fun _ w₁ mirrors₁ => ?_
  rw [Action.wp_bind]
  refine Action.wp_onFail_any (Action.wp_mono (wrote mirrors₁) (fun arriving w₂ mirrors₂ => ?_)
    fun _ _ => trivial)
  rw [Action.wp_bind]
  refine wp_groupCommit_still mirrors₂ fun w₃ mirrors₃ => ?_
  refine Action.wp_ite (fun _ => ?_) fun _ => mirrors₃
  rw [Action.wp_bind, Action.wp_read]
  exact wp_joinWard_mirrors mirrors₃ _

/-- The loop of `/cycle`, unless it stops in the middle of a cycle. -/
theorem wp_cycleLoop_mirrors : ∀ (n : Nat) {w : World}, Mirrors none w →
    wp (cycleLoop n)
      (fun why w' => why ≠ some (text "the ward stopped mid-cycle") → Mirrors none w')
      (fun _ => True) w
  | 0, _, mirrors => fun _ => mirrors
  | n + 1, w, mirrors => by
      unfold cycleLoop
      rw [Action.wp_bind, Action.wp_attempt]
      refine Action.wp_mono (wp_cycle_mirrors mirrors) (fun _ w₁ mirrors₁ => ?_) fun _ _ => ?_
      · dsimp only
        rw [Action.wp_bind]
        refine (still_of_asks asks_honest).wp mirrors₁ fun honest w₂ mirrors₂ => ?_
        refine Action.wp_ite (fun _ => ?_) fun _ => fun _ => mirrors₂
        exact wp_cycleLoop_mirrors n mirrors₂
      · exact fun going => absurd rfl going

/-- A payment by hand moves nobody. -/
theorem wp_payAlone_mirrors (mirrors : Mirrors none w) (i : Nat) (amount : Int) :
    wp (payAlone i amount none) (fun _ => Mirrors none) (fun _ => True) w := by
  unfold payAlone
  rw [Action.wp_bind]
  refine still_groupBegin.wp mirrors fun _ w₁ mirrors₁ => ?_
  rw [Action.wp_bind]
  refine Action.wp_onFail_any ((still_pay i amount none).wp mirrors₁ fun _ w₂ mirrors₂ => ?_)
  exact Action.wp_onFail_any (wp_groupCommit_still mirrors₂ fun w₃ mirrors₃ => mirrors₃)

end Work

/-! ### Founding -/

/-- Before the first Spark joins, founding a ward seats nobody. -/
theorem leaves_sparks_openWard (name : Text) :
    Leaves (fun w : World => w.g.sparks) (openWard name) := by
  have asked : Leaves (fun w : World => w.g.sparks) fallible :=
    asks_fallible.leaves _ fun _ _ => rfl
  have made : MadeOf (fun _ y => Leaves (fun w : World => w.g.sparks) y) Unit (openWard name) :=
    .bind (.move fun _ => rfl) fun _ => .bind (.read _) fun _ => .bind (.move asked) fun _ =>
      .bind (.move asked) fun _ => .bind (.move asked) fun _ => .bind (.read _) fun _ =>
        .move fun _ => rfl
  exact made.leaves fun _ _ steady => steady

theorem leaves_sparks_runWard (stmt : WardTables → Option WardTables) :
    Leaves (fun w : World => w.g.sparks) (runWard stmt) := by
  have asked : Leaves (fun w : World => w.g.sparks) fallible :=
    asks_fallible.leaves _ fun _ _ => rfl
  have made : MadeOf (fun _ y => Leaves (fun w : World => w.g.sparks) y) Unit (runWard stmt) := by
    refine .bind (.move asked) fun _ => .move fun w => ?_
    unfold update
    cases effect : Gyre.onWard (Conn.execute stmt) w.g with
    | none => rfl
    | some g =>
        obtain ⟨c, -, rfl⟩ := onWard_eq_some.mp effect
        rfl
  exact made.leaves fun _ _ steady => steady

theorem wp_foundWard_mirrors {w : World} (zeroed : w.g = Gyre.zero) (n : Nat) (seed : UInt64) :
    wp (foundWard liveName n seed 0) (fun _ => Mirrors none) (fun _ => True) w := by
  let Barren (α : Type) (x : Action World α) : Prop := Leaves (fun w : World => w.g.sparks) x
  have seats : ∀ {α : Type} {x : Action World α} {w : World} {Q : α → World → Prop},
      MadeOf Barren α x → w.g.sparks = [] → (∀ a w', w'.g.sparks = [] → Q a w') →
        wp x Q (fun _ => True) w := by
    intro α x w Q made nobody ran
    have leaves := made.leaves fun _ _ steady => steady
    exact Action.wp_mono (leaves.wp w) (fun a w' same => ran a w' (same.trans nobody)) fun _ _ =>
      trivial
  have listed : ∀ p ∈ venues.zipIdx, MadeOf Barren Unit (foundVenue p.2 p.1) := fun p _ =>
    .bind (.read _) fun _ => .bind (made_wireIdOrExit _ _) fun _ => .move (leaves_sparks_runWard _)
  have nobody : w.g.sparks = [] := by
    rw [zeroed]
    rfl
  unfold foundWard
  rw [Action.wp_bind]
  refine seats (.move (leaves_sparks_openWard _)) nobody fun _ w₁ nobody₁ => ?_
  rw [Action.wp_bind]
  refine seats (.move fun _ => rfl) nobody₁ fun _ w₂ nobody₂ => ?_
  rw [Action.wp_bind]
  refine seats (.move (leaves_sparks_runWard _)) nobody₂ fun _ w₃ nobody₃ => ?_
  rw [Action.wp_bind]
  refine seats (.move (leaves_sparks_runWard _)) nobody₃ fun _ w₄ nobody₄ => ?_
  rw [Action.wp_bind]
  refine seats (.forEach listed) nobody₄ fun _ w₅ nobody₅ => ?_
  rw [Action.wp_bind]
  refine seats (.move fun _ => rfl) nobody₅ fun _ w₆ nobody₆ => ?_
  rw [Action.wp_bind, Action.wp_read, Action.wp_bind]
  refine seats (made_wireIdOrExit _ _) nobody₆ fun wire w₇ nobody₇ => ?_
  rw [Action.wp_bind]
  refine seats (.move (leaves_sparks_runWard _)) nobody₇ fun _ w₈ nobody₈ => ?_
  have empty : Mirrors none w₈ := by
    intro k s here
    rw [nobody₈] at here
    cases here
  exact Action.wp_forEach (I := fun _ => Mirrors none) empty fun i _ _ mirrors =>
    wp_joinWard_mirrors mirrors _

/-! ### Runs -/

/-- Every command that reports no failure leaves everybody mirrored. -/
theorem wp_command_mirrors {w : World} (mirrors : Mirrors none w) (quiet : Quiet w)
    (sound : Sound w.g) (c : Command) :
    wp c.run (fun a w' => ¬ a.Failed → Mirrors none w') (fun _ => True) w := by
  cases c with
  | look => exact fun _ => mirrors
  | quit => exact fun _ => mirrors
  | unknown => exact fun _ => mirrors
  | cycle n =>
      change wp (runCycle n) _ _ w
      unfold runCycle
      rw [Action.wp_bind]
      refine Action.wp_mono (wp_cycleLoop_mirrors _ mirrors) (fun why w' looped => ?_) fun _ _ =>
        trivial
      cases why with
      | none => exact fun _ => looped nofun
      | some why =>
          exact fun fine => looped fun same => fine (Or.inl (Option.some.inj same))
  | commission venue =>
      change wp (runCommission venue) _ _ w
      unfold runCommission
      rw [Action.wp_bind]
      refine Still.wp (.attempt (still_buildVenue _)) mirrors fun landed w' mirrors' => ?_
      cases landed <;> exact fun _ => mirrors'
  | pay who amount =>
      change wp (runPay who amount) _ _ w
      unfold runPay
      rw [Action.wp_bind, Action.wp_read]
      cases found : findSpark (who.getD (-1)) w.g.sparks with
      | none => exact fun _ => mirrors
      | some i =>
          refine Action.wp_ite (fun _ => fun _ => mirrors) fun _ => ?_
          rw [Action.wp_bind, Action.wp_attempt]
          refine Action.wp_mono (Action.wp_and (wp_payAlone_mirrors mirrors i _)
            (wp_payAlone_lands quiet sound (findSpark_lt found) _)) (fun _ w' paid => ?_)
              fun _ refused => refused.2.elim
          exact fun _ => paid.1
  | restart =>
      change wp runRestart _ _ w
      unfold runRestart
      rw [Action.wp_bind, Action.wp_read, Action.wp_bind]
      change wp _ _ _ (w.setGyre _)
      rw [Action.wp_bind]
      change wp _ _ _ ((w.setGyre _).setGyre fun _ => Gyre.zero)
      rw [Action.wp_bind, Action.wp_attempt]
      refine Action.wp_mono (wp_foundWard_mirrors rfl _ _) (fun _ w' mirrors' => ?_) fun _ _ => ?_
      · exact fun _ => mirrors'
      · exact fun fine => absurd (Or.inr rfl) fine

/-- In every world of an undisturbed service everybody is mirrored. -/
theorem Undisturbed.mirrors {w : World} (undisturbed : Undisturbed w) : Mirrors none w := by
  induction undisturbed with
  | @founded n seed w w' _ founds =>
      have mirrors := Action.wp_ret (wp_foundWard_mirrors founds.zeroed n seed) founds.founded
      exact mirrors
  | @served line answer w w' before serves fine mirrors =>
      obtain ⟨c, c', middle, ran, replied⟩ := serves.served
      have mirrors' := Action.wp_ret
        (wp_command_mirrors mirrors before.kept.keeping.quiet before.reached.sound _) ran fine
      obtain ⟨n, after⟩ := asks_wardReply answer c middle
      rw [replied] at after
      obtain rfl : w' = middle.after n := after
      exact mirrors'

/-- A Spark's database holds one row, which says what the ward remembers of them, and the Frame is
worn no more than it can be. -/
structure Gyre.Remembers (g : Gyre) (s : Spark) : Prop where
  row : ∃ wire cycles, wireId g.wardNo (sparkLocal s.id) = some wire ∧
    s.db.now.spark =
      [{ id := s.id, purse := s.purse, wear := s.wear, cycles, place := s.place, wire
         owner := classOwner .spark g.wardNo }]
  readable : s.db.isOpen = true ∧ s.db.now.created = true
  fresh : 0 ≤ s.wear
  worn : s.wear ≤ 90

/-- After every command of an undisturbed service, each Spark's database and what the ward
remembers of them agree; and so `honest` adds up the purses the reply shows. -/
theorem spark_rows_mirror_memory (w : World) (undisturbed : Undisturbed w) :
    (∀ s ∈ w.g.sparks, w.g.Remembers s) ∧
      (purses w).1 = .ret (w.g.sparks.map (·.purse)).sum := by
  have sound := undisturbed.reached.sound
  have kept := undisturbed.kept
  have mirrors := undisturbed.mirrors
  refine ⟨fun s mem => ?_, ?_⟩
  · obtain ⟨k, here⟩ := List.getElem?_of_mem mem
    obtain ⟨⟨station, rows, named, wire, owner, rest⟩, fresh, worn⟩ := mirrors k s here
    obtain ⟨isOpen, tables⟩ := sound.steady.spark k s here
    have purse := (kept.balanced.pockets.carries s.side (List.mem_map_of_mem mem)).row
    obtain ⟨row, one, rfl⟩ := List.map_eq_singleton_iff.mp rows
    obtain ⟨wear, place⟩ := rest nofun
    refine ⟨⟨row.wire, row.cycles, wire, ?_⟩, ⟨isOpen, tables.now.created⟩, fresh, worn⟩
    simp only [Spark.side, one, List.map_singleton, List.cons.injEq, Prod.mk.injEq] at purse
    rw [one]
    cases row
    simp_all [Spark.posture, SparkRow.station]
  · rw [purses_of_balanced kept.keeping.quiet sound kept.balanced]

/-- The Sparks of a ward that has run a cycle. -/
theorem cycled_ward_mirrors :
    (∀ s ∈ cycledWard.g.sparks, cycledWard.g.Remembers s) ∧
      (purses cycledWard).1 = .ret (cycledWard.g.sparks.map (·.purse)).sum := by
  have founded : Undisturbed (World.founded 2 7 fun _ => false) :=
    undisturbed_founded (by decide +kernel)
  have well : ((World.founded 2 7 fun _ => false).answer (text "cycle")).1.map
      (decide ·.Failed) = some false := by
    decide +kernel
  exact spark_rows_mirror_memory cycledWard (founded.answer well)

end GyreWard
