/-
Module: GyreWard.Proofs.Fitting
Purpose: A served ward keeps its size: no more Sparks than it has room for, venues of the list, and at
  most nine contracts, whatever fails on the way.
Trusted boundary: none
Main exports: Gyre.Fits, Fitting, Boardless, wp_boardless, wp_postBoard_fits, wp_foundWard_fits,
  wp_command_fits, Stored, Reached.fits
-/
import GyreWard.Proofs.Founding
import GyreWard.Proofs.Outside
import GyreWard.Proofs.Sizes
import GyreWard.Proofs.Wards

namespace GyreWard

open Lib
open Lib.Action (MadeOf Leaves wp)

/-- The Sparks have room, and so do the tables, now and after a rollback. -/
structure Gyre.Fits (g : Gyre) : Prop where
  sparks : g.sparks.length ≤ sparksPerWard
  tables : g.ward.Holds WardTables.Fits

abbrev Fitting (w : World) : Prop := w.g.Fits

/-! ### Statements -/

theorem WardTables.Fits.empty (created : Bool) : WardTables.Fits { created := created } where
  venues := Nat.zero_le _
  names := fun _ mem => by cases mem
  contracts := Nat.zero_le _
  kinds := fun _ mem => by cases mem
  outcomes := fun _ mem => by cases mem

/-- A contract that is changed keeps its kind, and its outcome is one of the source's. -/
theorem WardTables.Fits.updateContract {t : WardTables} (fits : t.Fits) (id : Nat)
    {f : BoardRow → BoardRow} (kind : ∀ r, (f r).kind = r.kind)
    (outcome : ∀ r s, (f r).outcome = some s → r.outcome = some s ∨ s ∈ [text "kept", text "lost"]) :
    WardTables.Fits { t with board := GyreWard.updateContract id f t.board } where
  venues := fits.venues
  names := fits.names
  contracts := by
    unfold GyreWard.updateContract
    rw [List.length_map]
    exact fits.contracts
  kinds := by
    intro r mem
    obtain ⟨r', there, made⟩ := List.mem_map.mp mem
    rw [← made]
    split
    · rw [kind]
      exact fits.kinds r' there
    · exact fits.kinds r' there
  outcomes := by
    intro r mem s told
    obtain ⟨r', there, made⟩ := List.mem_map.mp mem
    rw [← made] at told
    split at told
    · rcases outcome r' s told with old | known
      · exact fits.outcomes r' there s old
      · exact known
    · exact fits.outcomes r' there s told

/-- No statement of a cycle or a payment outgrows its table. -/
theorem WardStatement.fits {stmt : WardTables → Option WardTables} (runs : WardStatement stmt)
    {t t' : WardTables} (run : stmt t = some t') (fits : t.Fits) : t'.Fits := by
  cases runs with
  | built venue cycle =>
      rw [existing_some run]
      constructor
      · change (t.venue.map _).length ≤ nVenues
        rw [List.length_map]
        exact fits.venues
      · intro v mem
        obtain ⟨v', there, made⟩ := List.mem_map.mp mem
        rw [← made]
        split
        · exact fits.names v' there
        · exact fits.names v' there
      · exact fits.contracts
      · exact fits.kinds
      · exact fits.outcomes
  | ledger row =>
      rw [existing_some run]
      exact ⟨fits.venues, fits.names, fits.contracts, fits.kinds, fits.outcomes⟩
  | clear =>
      rw [existing_some run]
      exact
        { venues := fits.venues, names := fits.names, contracts := Nat.zero_le _
          kinds := fun _ mem => by cases mem
          outcomes := fun _ mem => by cases mem }
  | taken id spark =>
      rw [existing_some run]
      exact fits.updateContract id (fun _ => rfl) fun _ _ told => Or.inl told
  | outcome id won =>
      rw [existing_some run]
      apply WardTables.Fits.updateContract fits id
      · exact fun _ => rfl
      intro r s told
      obtain rfl := Option.some.inj told
      apply Or.inr
      cases won with
      | true => exact List.mem_cons_self ..
      | false => exact List.mem_cons_of_mem _ (List.mem_cons_self ..)
  | books cycle treasury debt issued retired =>
      rw [existing_some run]
      exact ⟨fits.venues, fits.names, fits.contracts, fits.kinds, fits.outcomes⟩

/-! ### Moves that post nothing -/

section Keeping

variable {w : World}

theorem Fitting.of_same (fitting : Fitting w) {w' : World} (tables : w'.g.ward = w.g.ward)
    (sparks : w'.g.sparks.length = w.g.sparks.length) : Fitting w' where
  sparks := by
    rw [sparks]
    exact fitting.sparks
  tables := by
    rw [tables]
    exact fitting.tables

theorem length_setSpark (g : Gyre) (i : Nat) (f : Spark → Spark) :
    (g.setSpark i f).sparks.length = g.sparks.length := List.length_modify ..

theorem Fitting.asked {α : Type} {x : Action World α} (asks : Asks x) (fitting : Fitting w) :
    wp x (fun _ => Fitting) Fitting w := by
  have same : Leaves World.g x := asks.leaves _ fun _ _ => rfl
  apply Action.wp_mono (same.wp w)
  · intro _ w' same
    exact fitting.of_same (by rw [same]) (by rw [same])
  · intro w' same
    exact fitting.of_same (by rw [same]) (by rw [same])

theorem Fitting.onWard {f : Conn WardTables → Option (Conn WardTables)} (fitting : Fitting w)
    (each : ∀ c, f w.g.ward = some c → c.Holds WardTables.Fits) :
    wp (update (Gyre.onWard f)) (fun _ => Fitting) Fitting w := by
  unfold Action.wp update
  cases run : Gyre.onWard f w.g with
  | none => exact fitting
  | some g =>
      obtain ⟨c, effect, made⟩ := onWard_eq_some.mp run
      rw [made]
      exact ⟨fitting.sparks, each c effect⟩

theorem Fitting.onSpark (i : Nat) {f : Conn SparkTables → Option (Conn SparkTables)}
    (fitting : Fitting w) : wp (update (Gyre.onSpark i f)) (fun _ => Fitting) Fitting w := by
  unfold Action.wp update
  cases run : Gyre.onSpark i f w.g with
  | none => exact fitting
  | some g =>
      obtain ⟨s, c, here, effect, made⟩ := onSpark_eq_some.mp run
      rw [made]
      exact fitting.of_same rfl (length_setSpark _ _ _)

theorem Bookkeeping.fits {f : Gyre → Gyre} (keeps : Bookkeeping f) (fitting : Fitting w) :
    Fitting (w.setGyre f) := by
  cases keeps with
  | spend cost => exact fitting.of_same rfl rfl
  | draw r => exact fitting.of_same rfl rfl
  | earn amount => exact fitting.of_same rfl rfl
  | paid i amount => exact fitting.of_same rfl (length_setSpark _ _ _)
  | setWear i f => exact fitting.of_same rfl (length_setSpark _ _ _)
  | movePlace i f => exact fitting.of_same rfl (length_setSpark _ _ _)
  | compound => exact fitting.of_same rfl rfl
  | retire amount => exact fitting.of_same rfl rfl

/-- The moves of a cycle, a building or a payment that post no contract, with the groups around
them. -/
inductive Boardless : (α : Type) → Action World α → Prop where
  | enter {α : Type} {x : Action World α} (enters : Entered α x) : Boardless α x
  | group {α : Type} {x : Action World α} (moves : GroupMove α x) : Boardless α x

theorem boardless_entered {α : Type} {x : Action World α} (made : MadeOf Entered α x) :
    MadeOf Boardless α x :=
  made.mono fun _ _ enters => .move (.enter enters)

theorem boardless_group {α : Type} {x : Action World α} (made : MadeOf GroupMove α x) :
    MadeOf Boardless α x :=
  made.mono fun _ _ moves => .move (.group moves)

theorem boardless_turn {α : Type} {x : Action World α} (made : MadeOf TurnMove α x) :
    MadeOf Boardless α x := by
  apply made.mono
  intro _ _ moves
  cases moves with
  | enter enters => exact .move (.enter enters)
  | join h => exact boardless_group (grouped_groupJoin h)

theorem Boardless.fits {α : Type} {x : Action World α} (moves : Boardless α x)
    (fitting : Fitting w) : wp x (fun _ => Fitting) Fitting w := by
  cases moves with
  | enter enters =>
      cases enters with
      | fallible => exact fitting.asked asks_fallible
      | onWard runs =>
          apply fitting.onWard
          intro c run
          obtain ⟨_, t, effect, made⟩ := Conn.execute_eq_some.mp run
          rw [made]
          exact ⟨runs.fits effect fitting.tables.now, fitting.tables.saved⟩
      | onSpark i _ => exact fitting.onSpark i
      | remember keeps => exact keeps.fits fitting
  | group moves =>
      cases moves with
      | fallible => exact fitting.asked asks_fallible
      | plane _ => exact fitting.of_same rfl rfl
      | group f => exact fitting.of_same rfl rfl
      | beginWard =>
          apply fitting.onWard
          intro c run
          rw [(Conn.begin_eq_some.mp run).2.2]
          exact fitting.tables.begin
      | beginSpark i => exact fitting.onSpark i
      | commitWard =>
          apply fitting.onWard
          intro c run
          rw [(Conn.commit_eq_some.mp run).2]
          exact fitting.tables.commit
      | commitSpark i => exact fitting.onSpark i
      | rollbackWard => exact ⟨fitting.sparks, fitting.tables.rollback⟩
      | rollbackSpark i => exact fitting.of_same rfl (length_setSpark _ _ _)

/-- What posts no contract keeps a ward's size. -/
theorem wp_boardless {α : Type} {x : Action World α} (made : MadeOf Boardless α x)
    (fitting : Fitting w) : wp x (fun _ => Fitting) Fitting w :=
  made.wp (fun _ _ moves _ fitting => moves.fits fitting) w fitting

/-! ### The board -/

/-- There is room on the board for `n` more contracts. -/
structure RoomToPost (n : Nat) (w : World) : Prop where
  fitting : Fitting w
  room : w.g.ward.now.board.length + n ≤ boardSize + 3

theorem RoomToPost.of_same {n : Nat} (room : RoomToPost n w) {w' : World} (same : w'.g = w.g) :
    RoomToPost n w' := by
  constructor
  · exact room.fitting.of_same (by rw [same]) (by rw [same])
  · rw [same]
    exact room.room

/-- A kind that is drawn is on the list. -/
theorem drawn_kind {r r' : Rng} {v : UInt32} (drawn : rngBelow r 9 = some (v, r')) :
    kinds.getD v.toNat [] ∈ kinds := by
  have below : v.toNat < kinds.length := by
    have small := rngBelow_lt (by decide) drawn
    exact UInt32.lt_iff_toNat_lt.mp small
  rw [List.getD_eq_getElem _ _ below]
  exact List.getElem_mem below

/-- A draw moves the generator on, and nothing else. -/
theorem wp_draw_room {n : Nat} (room : RoomToPost n w) (bound : UInt32) :
    wp (draw bound)
      (fun v w' => RoomToPost n w' ∧ ∃ r d, rngBelow w.g.rng bound = some (d, r) ∧ v = d.toNat)
      Fitting w := by
  unfold draw
  rw [Action.wp_bind, Action.wp_read]
  cases drawn : rngBelow w.g.rng bound with
  | some next => exact ⟨⟨room.fitting.of_same rfl rfl, room.room⟩, next.2, next.1, rfl, rfl⟩
  | none => trivial

theorem wp_built_room {n : Nat} (room : RoomToPost n w) (venue : Int) :
    wp (built venue) (fun _ => RoomToPost n) Fitting w := by
  have same : Leaves World.g (built venue) := (asks_built venue).leaves _ fun _ _ => rfl
  apply Action.wp_mono (same.wp w)
  · exact fun _ _ same => room.of_same same
  · exact fun _ same => (room.of_same same).fitting

/-- One contract takes one place of the board. -/
theorem wp_postContract_fits {n : Nat} (room : RoomToPost (n + 1) w) (i : Nat) :
    wp (postContract i) (fun _ => RoomToPost n) Fitting w := by
  unfold postContract
  rw [Action.wp_bind]
  apply Action.wp_mono (wp_draw_room room 9) _ fun _ h => h
  intro kind w₁ drawn
  obtain ⟨room₁, r, d, word, value⟩ := drawn
  have known : kinds.getD kind.toNat [] ∈ kinds := by
    rw [value]
    exact drawn_kind word
  rw [Action.wp_bind]
  apply Action.wp_mono (wp_draw_room room₁ 55) _ fun _ h => h
  intro risk w₂ drawn₂
  rw [Action.wp_bind]
  apply Action.wp_mono (wp_draw_room drawn₂.1 20) _ fun _ h => h
  intro extra w₃ drawn₃
  dsimp only
  rw [Action.wp_bind]
  apply Action.wp_mono (wp_built_room drawn₃.1 3) _ fun _ h => h
  intro plaza w₄ room₄
  rw [Action.wp_bind, Action.wp_read, Action.wp_bind]
  apply wp_runWard
  · exact room₄.fitting.of_same rfl rfl
  intro _ t posted
  have more : RoomToPost n ((w₄.after 1).setGyre (Gyre.setWard fun c => { c with now := t })) := by
    have made := existing_some posted
    have fits := room₄.fitting.tables.now
    have count := room₄.room
    constructor
    · constructor
      · exact room₄.fitting.sparks
      · constructor
        · change t.Fits
          rw [made]
          constructor
          · exact fits.venues
          · exact fits.names
          · rw [List.length_append, List.length_singleton]
            omega
          · intro c mem
            rcases List.mem_append.mp mem with old | new
            · exact fits.kinds c old
            · rw [List.mem_singleton.mp new]
              exact known
          · intro c mem s told
            rcases List.mem_append.mp mem with old | new
            · exact fits.outcomes c old s told
            · rw [List.mem_singleton.mp new] at told
              cases told
        · exact room₄.fitting.tables.saved
    · change t.board.length + n ≤ boardSize + 3
      rw [made, List.length_append, List.length_singleton]
      omega
  rw [Action.wp_bind]
  apply wp_wireIdOrExit
  intro wire _
  apply wp_runWard
  · exact more.fitting.of_same rfl rfl
  intro _ t' named
  have same := unless_some named
  rw [same]
  constructor
  · constructor
    · exact more.fitting.sparks
    · constructor
      · exact more.fitting.tables.now.updateContract _ (fun _ => rfl) fun _ _ told => Or.inl told
      · exact more.fitting.tables.saved
  · change (updateContract _ _ t.board).length + n ≤ boardSize + 3
    unfold updateContract
    rw [List.length_map]
    exact more.room

/-- A board is six contracts, and three more with the Rails. -/
theorem wp_postBoard_fits (fitting : Fitting w) : wp postBoard (fun _ => Fitting) Fitting w := by
  unfold postBoard
  rw [Action.wp_bind]
  apply Action.wp_mono (fitting.asked (asks_built 2)) _ fun _ h => h
  intro rails w₁ fitting₁
  have few : (List.range (boardSize + if rails then 3 else 0)).length ≤ boardSize + 3 := by
    rw [List.length_range]
    cases rails with
    | true => exact le_rfl
    | false => exact Nat.le_add_right ..
  dsimp only
  generalize List.range (boardSize + if rails then 3 else 0) = places at few
  rw [Action.wp_bind]
  apply wp_runWard
  · exact fitting₁.of_same rfl rfl
  intro _ t cleared
  have empty := existing_some cleared
  have start : RoomToPost places.length
      ((w₁.after 1).setGyre (Gyre.setWard fun c => { c with now := t })) := by
    rw [empty]
    constructor
    · exact ⟨fitting₁.sparks, WardStatement.clear.fits (empty ▸ cleared) fitting₁.tables.now,
        fitting₁.tables.saved⟩
    · exact le_trans (Nat.le_of_eq (Nat.zero_add _)) few
  apply Action.wp_mono (Q := fun _ => RoomToPost 0) _ (fun _ _ room => room.fitting) fun _ h => h
  exact Action.wp_forEach (I := fun rest => RoomToPost rest.length) start
    fun i rest w' room => wp_postContract_fits room i

/-! ### Calls -/

theorem wp_cycleWrites_fits (fitting : Fitting w) :
    wp cycleWrites (fun _ => Fitting) Fitting w := by
  unfold cycleWrites
  rw [Action.wp_bind]
  apply Action.wp_mono (wp_boardless (boardless_entered made_commission) fitting) _ fun _ h => h
  intro decided w₁ fitting₁
  apply Action.wp_ite
  · intro _
    exact fitting₁
  intro _
  dsimp only
  rw [Action.wp_bind]
  apply Action.wp_mono (wp_postBoard_fits fitting₁) _ fun _ h => h
  intro _ w₂ fitting₂
  apply wp_boardless _ fitting₂
  apply MadeOf.bind (.read _)
  intro n
  apply MadeOf.bind (.forEach fun i _ => boardless_turn (made_sparkTurn i))
  intro _
  apply boardless_entered
  apply MadeOf.bind made_debtClock
  intro _
  apply MadeOf.bind (made_built 5)
  intro _
  apply MadeOf.bind (.read _)
  intro g
  exact .bind (made_runWard (.books ..)) fun _ => .pure _

theorem wp_joinWard_fits (fitting : Fitting w) (id : Int) :
    wp (joinWard id) (fun _ => Fitting) Fitting w := by
  apply Action.wp_mono (wp_joinWard id w)
  · intro _ w' joined
    constructor
    · rw [joined.2]
      change (w.g.sparks ++ _).length ≤ sparksPerWard
      rw [List.length_append, List.length_singleton]
      exact joined.1.room
    · rw [joined.2]
      exact fitting.tables
  · intro w' same
    exact fitting.of_same (by rw [same]) (by rw [same])

theorem wp_cycle_fits (fitting : Fitting w) : wp cycle (fun _ => Fitting) Fitting w := by
  unfold cycle
  rw [Action.wp_bind]
  change wp _ _ _ (w.setGyre fun g => { g with cycle := g.cycle + 1 })
  have counted : Fitting (w.setGyre fun g => { g with cycle := g.cycle + 1 }) :=
    fitting.of_same rfl rfl
  rw [Action.wp_bind]
  apply Action.wp_mono (wp_boardless (boardless_group grouped_groupBegin) counted) _ fun _ h => h
  intro _ w₁ fitting₁
  rw [Action.wp_bind, Action.wp_onFail]
  apply Action.wp_mono (wp_cycleWrites_fits fitting₁)
  · intro arriving w₂ fitting₂
    rw [Action.wp_bind]
    apply Action.wp_mono (wp_boardless (boardless_group grouped_groupCommit) fitting₂) _ fun _ h => h
    intro _ w₃ fitting₃
    apply Action.wp_ite
    · intro _
      rw [Action.wp_bind, Action.wp_read]
      exact wp_joinWard_fits fitting₃ _
    · intro _
      exact fitting₃
  · intro w₂ fitting₂
    exact wp_boardless (boardless_group grouped_groupAbort) fitting₂

theorem wp_cycleLoop_fits (n : Nat) {w : World} (fitting : Fitting w) :
    wp (cycleLoop n) (fun _ => Fitting) Fitting w := by
  induction n generalizing w with
  | zero => exact fitting
  | succ n ih =>
      unfold cycleLoop
      rw [Action.wp_bind, Action.wp_attempt]
      apply Action.wp_mono (wp_cycle_fits fitting)
      · intro _ w₁ fitting₁
        rw [Action.wp_bind]
        apply Action.wp_mono (fitting₁.asked asks_honest) _ fun _ h => h
        intro honest w₂ fitting₂
        apply Action.wp_ite
        · intro _
          exact ih fitting₂
        · intro _
          exact fitting₂
      · intro w₁ fitting₁
        exact fitting₁

theorem boardless_payAlone (i : Nat) (amount : Int) (item : Option (Text × Text)) :
    MadeOf Boardless Unit (payAlone i amount item) := by
  apply MadeOf.bind (boardless_group grouped_groupBegin)
  intro _
  apply MadeOf.bind
    (.onFail (boardless_turn (turn_pay i amount item)) (boardless_group grouped_groupAbort))
  intro _
  exact .onFail (boardless_group grouped_groupCommit)
    (boardless_entered (made_remember (.paid i (-amount))))

/-! ### Founding -/

/-- There is room for the venues `rest`, which are of the list. -/
structure RoomToBuild (rest : List (Venue × Nat)) (w : World) : Prop where
  fitting : Fitting w
  room : w.g.ward.now.venue.length + rest.length ≤ nVenues
  listed : ∀ p ∈ rest, p.1 ∈ venues

theorem wp_foundVenue_fits {v : Venue} {i : Nat} {rest : List (Venue × Nat)}
    (room : RoomToBuild ((v, i) :: rest) w) :
    wp (foundVenue i v) (fun _ => RoomToBuild rest) Fitting w := by
  unfold foundVenue
  rw [Action.wp_bind, Action.wp_read, Action.wp_bind]
  apply wp_wireIdOrExit
  intro wire _
  apply wp_runWard
  · exact room.fitting.of_same rfl rfl
  intro _ t inserted
  have made := unless_some inserted
  have count := room.room
  have fits := room.fitting.tables.now
  rw [made]
  constructor
  · constructor
    · exact room.fitting.sparks
    · constructor
      · constructor
        · change (_ ++ [_]).length ≤ nVenues
          rw [List.length_append, List.length_singleton]
          rw [List.length_cons] at count
          omega
        · intro v' mem
          rcases List.mem_append.mp mem with old | new
          · exact fits.names v' old
          · rw [List.mem_singleton.mp new]
            exact List.mem_map_of_mem (room.listed _ (List.mem_cons_self ..))
        · exact fits.contracts
        · exact fits.kinds
        · exact fits.outcomes
      · exact room.fitting.tables.saved
  · change (_ ++ [_]).length + rest.length ≤ nVenues
    rw [List.length_append, List.length_singleton]
    rw [List.length_cons] at count
    omega
  · exact fun p mem => room.listed p (List.mem_cons_of_mem _ mem)

/-- What the store holds under the ward's name is a ward's tables. -/
def Stored (dbPrefix : Text) (w : World) : Prop :=
  ∀ tick, (w.plane.wardDisk tick (fitted 128 (dbPrefix ++ text "-ward.db"))).Fits

theorem wp_openWard_fits {name : Text} (stored : ∀ tick, (w.plane.wardDisk tick name).Fits)
    (few : w.g.sparks.length ≤ sparksPerWard) :
    wp (openWard name) (fun _ => Fitting) Fitting w := by
  have closed : ∀ k, Fitting ((w.setGyre fun g => { g with ward := Conn.null {} }).after k) :=
    fun _ => ⟨few, .empty false, fun _ saved => by cases saved⟩
  unfold openWard
  rw [Action.wp_bind]
  change wp _ _ _ (w.setGyre fun g => { g with ward := Conn.null {} })
  rw [Action.wp_bind, Action.wp_read, Action.wp_bind]
  apply wp_fallible (closed 1)
  rw [Action.wp_bind]
  apply wp_fallible (closed 2)
  rw [Action.wp_bind]
  apply wp_fallible (closed 3)
  rw [Action.wp_bind, Action.wp_read]
  exact ⟨few, stored _, fun _ saved => by cases saved⟩

/-- A ward is founded with no more than it has room for, wherever that stops. -/
theorem wp_foundWard_fits {dbPrefix : Text} (stored : Stored dbPrefix w)
    (few : w.g.sparks.length ≤ sparksPerWard) (n : Nat) (seed : UInt64) (base : Int) :
    wp (foundWard dbPrefix n seed base) (fun _ => Fitting) Fitting w := by
  unfold foundWard
  rw [Action.wp_bind]
  apply Action.wp_mono (wp_openWard_fits stored few) _ fun _ h => h
  intro _ w₁ fitting₁
  rw [Action.wp_bind]
  change wp _ _ _ (w₁.setGyre fun g =>
    { g with dbPrefix := fitted 64 dbPrefix, wardNo := base.tdiv sparksPerWard })
  rw [Action.wp_bind]
  apply wp_runWard
  · exact fitting₁.of_same rfl rfl
  intro _ t dropped
  obtain rfl := Option.some.inj dropped
  rw [Action.wp_bind]
  apply wp_runWard
  · exact ⟨fitting₁.sparks, .empty false, fitting₁.tables.saved⟩
  intro _ t created
  obtain rfl := Option.some.inj created
  rw [Action.wp_bind]
  apply Action.wp_mono (Q := fun _ => RoomToBuild [])
  · apply Action.wp_forEach (I := RoomToBuild)
    · constructor
      · exact ⟨fitting₁.sparks, .empty true, fitting₁.tables.saved⟩
      · exact Nat.le_of_ble_eq_true rfl
      · intro p mem
        exact (List.mem_zipIdx' mem).2 ▸ List.getElem_mem _
    · exact fun p rest w' room => wp_foundVenue_fits room
  · intro _ w₂ built
    rw [Action.wp_bind]
    change wp _ _ _ (w₂.setGyre (Gyre.opened seed))
    have opened : Fitting (w₂.setGyre (Gyre.opened seed)) := built.fitting.of_same rfl rfl
    rw [Action.wp_bind, Action.wp_read, Action.wp_bind]
    apply wp_wireIdOrExit
    intro wire _
    rw [Action.wp_bind]
    apply wp_runWard
    · exact opened.of_same rfl rfl
    intro _ t inserted
    have made := unless_some inserted
    have fits := opened.tables.now
    apply Action.wp_forEach (I := fun _ => Fitting)
    · rw [made]
      exact ⟨opened.sparks, ⟨fits.venues, fits.names, fits.contracts, fits.kinds, fits.outcomes⟩,
        opened.tables.saved⟩
    · exact fun i rest w' fitting => wp_joinWard_fits fitting _
  · exact fun _ h => h

/-! ### Commands -/

/-- No command makes a ward larger than it may be. -/
theorem wp_command_fits (stored : Stored liveName w) (fitting : Fitting w) (command : Command) :
    wp command.run (fun _ => Fitting) Fitting w := by
  cases command with
  | look => exact fitting
  | cycle n =>
      change wp (runCycle n) _ _ w
      unfold runCycle
      rw [Action.wp_bind]
      apply Action.wp_mono (wp_cycleLoop_fits _ fitting) _ fun _ h => h
      intro why w' fitting'
      cases why with
      | none => exact fitting'
      | some _ => exact fitting'
  | commission venue =>
      apply wp_boardless _ fitting
      apply MadeOf.bind (.attempt (boardless_entered (entered_buildVenue _)))
      intro built
      cases built with
      | none => exact .pure _
      | some _ => exact .pure _
  | pay who amount =>
      apply wp_boardless _ fitting
      apply MadeOf.bind (.read _)
      intro g
      cases findSpark (who.getD (-1)) g.sparks with
      | none => exact .pure _
      | some i =>
          apply MadeOf.ite
          · intro _
            exact .pure _
          · intro _
            apply MadeOf.bind (.attempt (boardless_payAlone _ _ _))
            intro paid
            cases paid with
            | none => exact .pure _
            | some _ => exact .pure _
  | restart =>
      change wp runRestart _ _ w
      unfold runRestart
      rw [Action.wp_bind, Action.wp_read, Action.wp_bind]
      change wp _ _ _ (w.setGyre _)
      rw [Action.wp_bind]
      change wp _ _ _ ((w.setGyre _).setGyre fun _ => Gyre.zero)
      rw [Action.wp_bind, Action.wp_attempt]
      apply Action.wp_mono (wp_foundWard_fits _ (Nat.zero_le _) _ _ _)
      · intro _ w' fitting'
        exact fitting'
      · intro w' fitting'
        exact fitting'.of_same rfl rfl
      · exact stored
  | quit => exact fitting
  | unknown => exact fitting

theorem Stored.of_outside {dbPrefix : Text} (stored : Stored dbPrefix w) {w' : World}
    (same : w'.outside = w.outside) : Stored dbPrefix w' := by
  have disk : w'.plane.wardDisk = w.plane.wardDisk := congrArg Outside.wardDisk same
  intro tick
  rw [disk]
  exact stored tick

end Keeping

/-- Over a store that holds a ward's tables, a service never serves more than a ward. -/
theorem Reached.fits {w : World} (reached : Reached w) (stored : Stored liveName w) :
    Fitting w := by
  induction reached with
  | @founded n seed w w' founds =>
      have contained := (contained_foundWard liveName n seed 0).leaves w
      rw [founds.founded] at contained
      have fits := wp_foundWard_fits (stored.of_outside contained.symm)
        (founds.zeroed ▸ Nat.zero_le _) n seed 0
      exact Action.wp_ret fits founds.founded
  | served before serves ih =>
      have stored := stored.of_outside serves.outside.symm
      obtain ⟨c, c', middle, ran, replied⟩ := serves.served
      have fitting := Action.wp_ret (wp_command_fits stored (ih stored) _) ran
      exact Action.wp_ret (fitting.asked (asks_wardReply _ c)) replied

end GyreWard
