/-
Module: GyreWard.Proofs.Greedy
Purpose: The board of a cycle is shared out greedily and exactly when every read that decides it is heard: that
  of the rails, the look at the board and the claim, the Tavern and the Chapel, and the way to the work.
Trusted boundary: human-reviewed spec (`BoardHeard`)
Main exports: Later, Dealing.heard, cycleWork_opened, BoardHeard, the_board_is_shared_out_iff
-/
import GyreWard.Proofs.Enrolment
import GyreWard.Proofs.Frames
import GyreWard.Proofs.Sharing

namespace GyreWard

open Lib
open Lib.Action (MadeOf Leaves wp)

/-! ### What the turns that come after leave -/

/-- A contract as it is some turns later: nobody but one of `takers` has taken it since. -/
structure BoardRow.Later (takers : Int → Prop) (r r' : BoardRow) : Prop where
  id : r'.id = r.id
  worth : ∀ nerve, r'.worth nerve = r.worth nerve
  place : r'.place = r.place
  taken : r'.taken = r.taken ∨ takers r'.taken

/-- What is called by the id of a Spark who has yet to take their turn, after the first `k`. -/
def ToCome (before : Gyre) (k : Nat) (id : Int) : Prop :=
  ∃ j s, k ≤ j ∧ before.sparks[j]? = some s ∧ s.id = id

/-- What the turns from the `k`-th on leave of a board and of the Sparks who have had theirs. -/
structure Later (before : Gyre) (k : Nat) (w w' : World) : Prop where
  many : w'.g.ward.now.board.length = w.g.ward.now.board.length
  kept : ∀ r ∈ w.g.ward.now.board, ∃ r' ∈ w'.g.ward.now.board, r.Later (ToCome before k) r'
  came : ∀ r' ∈ w'.g.ward.now.board, ∃ r ∈ w.g.ward.now.board, r.Later (ToCome before k) r'
  earlier : ∀ j, j < k → w'.g.sparks[j]?.map Spark.record = w.g.sparks[j]?.map Spark.record

section Later

variable {before decided : Gyre} {n k : Nat} {picks : List Nat} {w w' w'' : World} {s : Spark}
  {r r' r'' : BoardRow}

theorem ToCome.sooner {id : Int} (after : ToCome before (k + 1) id) : ToCome before k id := by
  obtain ⟨j, s, later, there, named⟩ := after
  exact ⟨j, s, Nat.le_of_succ_le later, there, named⟩

theorem BoardRow.Later.refl (takers : Int → Prop) (r : BoardRow) : r.Later takers r :=
  ⟨rfl, fun _ => rfl, rfl, .inl rfl⟩

theorem BoardRow.Later.trans (first : r.Later (ToCome before k) r')
    (rest : r'.Later (ToCome before (k + 1)) r'') : r.Later (ToCome before k) r'' := by
  refine ⟨rest.id.trans first.id, fun nerve => (rest.worth nerve).trans (first.worth nerve),
    rest.place.trans first.place, ?_⟩
  rcases rest.taken with still | newer
  · rw [still]
    exact first.taken
  · exact .inr newer.sooner

theorem Later.refl (before : Gyre) (k : Nat) (w : World) : Later before k w w :=
  ⟨rfl, fun r mem => ⟨r, mem, .refl _ r⟩, fun r mem => ⟨r, mem, .refl _ r⟩, fun _ _ => rfl⟩

theorem Later.trans (first : Later before k w w') (rest : Later before (k + 1) w' w'') :
    Later before k w w'' := by
  constructor
  · exact rest.many.trans first.many
  · intro r mem
    have ⟨r', mem', later'⟩ := first.kept r mem
    have ⟨r'', mem'', later''⟩ := rest.kept r' mem'
    exact ⟨r'', mem'', later'.trans later''⟩
  · intro r'' mem''
    have ⟨r', mem', later''⟩ := rest.came r'' mem''
    have ⟨r, mem, later'⟩ := first.came r' mem'
    exact ⟨r, mem, later'.trans later''⟩
  · intro j sooner
    exact (rest.earlier j (Nat.lt_succ_of_lt sooner)).trans (first.earlier j sooner)

/-- One turn leaves what it should. -/
theorem Turned.later (turned : Turned k s w w') (first : before.sparks[k]? = some s) :
    Later before k w w' := by
  have earlier : ∀ j, j < k → w'.g.sparks[j]?.map Spark.record = w.g.sparks[j]?.map Spark.record :=
    fun j sooner => turned.others (Nat.ne_of_lt sooner)
  cases turned with
  | idle _ _ same =>
      have board : w'.g.ward.now.board = w.g.ward.now.board := congrArg Aside.board same
      refine ⟨congrArg List.length board, ?_, ?_, earlier⟩
      · rw [board]
        exact fun r mem => ⟨r, mem, .refl _ r⟩
      · rw [board]
        exact fun r mem => ⟨r, mem, .refl _ r⟩
  | @takes r outcome _ _ _ _ _ worked gone _ =>
      have board : w'.g.ward.now.board =
          updateContract r.id (BoardRow.worked s.id outcome) w.g.ward.now.board :=
        congrArg Aside.board (gone.trans worked)
      have mine (r₁ : BoardRow) : r₁.Later (ToCome before k)
          (if r₁.id = r.id then r₁.worked s.id outcome else r₁) := by
        split
        · exact ⟨rfl, fun _ => rfl, rfl, .inr ⟨k, s, Nat.le_refl k, first, rfl⟩⟩
        · exact .refl _ r₁
      refine ⟨?_, ?_, ?_, earlier⟩
      · rw [board, updateContract, List.length_map]
      · intro r₁ mem
        rw [board]
        exact ⟨_, mem_updateContract.mpr ⟨r₁, mem, rfl⟩, mine r₁⟩
      · intro r₁ mem
        rw [board] at mem
        obtain ⟨r₂, there, rfl⟩ := mem_updateContract.mp mem
        exact ⟨r₂, there, mine r₂⟩

/-- All the turns that are to come leave what they should. -/
theorem Midway.run (fit : ∀ s ∈ before.sparks, s.Fit) {m : Nat} (midway : Midway before k w)
    (all : k + m = before.sparks.length)
    (run : Action.forEach (List.range' k m) sparkTurn w = (.ret (), w')) :
    Midway before before.sparks.length w' ∧ Later before k w w' := by
  induction m generalizing k w with
  | zero =>
      obtain ⟨-, rfl⟩ := Action.pure_eq_ret run
      rw [← all]
      exact ⟨midway, .refl before k w⟩
  | succ m ih =>
      rw [List.range'_succ] at run
      obtain ⟨_, w₁, turn, after⟩ := Action.bind_eq_ret run
      obtain ⟨s, first⟩ : ∃ s, before.sparks[k]? = some s := ⟨_, List.getElem?_eq_getElem (by omega)⟩
      have turned := midway.turned fit first turn
      have ⟨done, later⟩ := ih (midway.next turned) (by omega) after
      exact ⟨done, (turned.later first).trans later⟩

end Later

/-! ### What a board that is shared out tells of a turn -/

section Told

variable {before decided after : Gyre} {n k : Nat} {picks told : List Nat} {w w' w'' : World} {s : Spark}

/-- Sparks of one id are at one place of the array. -/
theorem place_inj (apart : (before.sparks.map (·.id)).Nodup) {j j' : Nat} {s s' : Spark}
    (there : before.sparks[j]? = some s) (there' : before.sparks[j']? = some s') (same : s.id = s'.id) :
    j = j' := by
  have at_j : (before.sparks.map (·.id))[j]? = some s.id := by
    rw [List.getElem?_map, there]
    rfl
  have at_j' : (before.sparks.map (·.id))[j']? = some s.id := by
    rw [List.getElem?_map, there', same]
    rfl
  have inside := (List.getElem?_eq_some_iff.mp at_j).1
  exact (List.getElem?_inj inside apart).mp (at_j.trans at_j'.symm)

/-- What a Spark has taken is what they picked. -/
theorem Dealt.picked (dealt : Dealt before decided after picks)
    (sorted : (after.ward.now.board.map (·.id)).Pairwise (· < ·))
    (apart : (before.sparks.map (·.id)).Nodup) (short : picks.length ≤ before.sparks.length)
    {j : Nat} (there : before.sparks[j]? = some s) (real : s.id ≠ -1) {r : BoardRow}
    (mem : r ∈ after.ward.now.board) (taken : r.taken = s.id) : picks[j]? = some r.id := by
  have listed : r.id ∈ picks := by
    by_contra left
    exact real (taken.symm.trans ((dealt.untaken r mem).mpr left))
  obtain ⟨m, inside, at_m⟩ := List.getElem_of_mem listed
  have picked : picks[m]? = some r.id := by rw [List.getElem?_eq_getElem inside, at_m]
  obtain ⟨s', there'⟩ : ∃ s', before.sparks[m]? = some s' := ⟨_, List.getElem?_eq_getElem (by omega)⟩
  have ⟨r', named, took, _⟩ := dealt.turn m s' r.id there' picked
  have same : r' = r := id_inj sorted took.listed mem named
  have one : s.id = s'.id := by rw [← taken, ← took.taken, same]
  rw [place_inj apart there there' one]
  exact picked

/-- What a Spark who has had their turn has in the end they have taken by then. -/
theorem Later.taken_by (later : Later before k w w') (apart : (before.sparks.map (·.id)).Nodup) {j : Nat}
    (sooner : j < k) (there : before.sparks[j]? = some s) {r' : BoardRow}
    (mem : r' ∈ w'.g.ward.now.board) (taken : r'.taken = s.id) :
    ∃ r ∈ w.g.ward.now.board, r.taken = s.id ∧ r'.id = r.id ∧ (∀ nerve, r'.worth nerve = r.worth nerve) ∧
      r'.place = r.place := by
  have ⟨r, there', same⟩ := later.came r' mem
  rcases same.taken with still | ⟨j', s', after', first', named⟩
  · exact ⟨r, there', still.symm.trans taken, same.id, same.worth, same.place⟩
  · have one := place_inj apart there first' (taken.symm.trans named.symm)
    omega

/-- A board that is shared out in the end has been shared out so far. -/
theorem Dealing.so_far (dealing : Dealing before decided n k picks w)
    (fit : ∀ s ∈ before.sparks, s.Fit) (apart : (before.sparks.map (·.id)).Nodup)
    (short : k ≤ before.sparks.length) (left : k ≤ n) (later : Later before k w w')
    (dealt : Dealt before decided w'.g told) (enough : k ≤ told.length) : told.take k = picks := by
  have turns := dealing.turns
  apply List.ext_getElem?
  intro j
  rw [List.getElem?_take]
  by_cases sooner : j < k
  · rw [if_pos sooner]
    obtain ⟨id, picked⟩ : ∃ id, told[j]? = some id := ⟨_, List.getElem?_eq_getElem (by omega)⟩
    obtain ⟨s, there⟩ : ∃ s, before.sparks[j]? = some s := ⟨_, List.getElem?_eq_getElem (by omega)⟩
    have ⟨r', named, took, _⟩ := dealt.turn j s id there picked
    obtain ⟨r, mem, taken, same, _⟩ := later.taken_by apart sooner there took.listed took.taken
    have real := (fit s (List.mem_of_getElem? there)).real
    rw [picked, dealing.dealt.picked dealing.sorted apart (by omega) there real mem taken, ← same, named]
  · rw [if_neg sooner, List.getElem?_eq_none (by omega)]

/-- Where nothing is left to take there is nothing to hear. -/
theorem Dealing.heard_nothing (dealing : Dealing before decided n k picks w) (done : n ≤ k)
    (turned : Turned k s w w') : TurnHeard k w := by
  have turns := dealing.turns
  have none : openRows w.g.ward.now.board = [] := by
    apply List.eq_nil_iff_forall_not_mem.mpr
    intro r mem
    have left := dealing.some_left mem
    omega
  cases turned with
  | idle _ opened _ =>
      refine ⟨fun left => absurd none left, ?_⟩
      intro id w₁ opened'
      rw [opened'] at opened
      cases opened
  | takes foremost _ _ _ _ _ _ =>
      have mem := foremost.mem
      rw [none] at mem
      exact absurd mem List.not_mem_nil

/-- Before their turn a Spark has taken nothing. -/
theorem Dealing.fresh (dealing : Dealing before decided n k picks w) (fit : ∀ s ∈ before.sparks, s.Fit)
    (apart : (before.sparks.map (·.id)).Nodup) (first : before.sparks[k]? = some s) {r : BoardRow}
    (mem : r ∈ w.g.ward.now.board) : r.taken ≠ s.id := by
  intro taken
  have inside := (List.getElem?_eq_some_iff.mp first).1
  have turns := dealing.turns
  have real := (fit s (List.mem_of_getElem? first)).real
  have early := dealing.dealt.picked dealing.sorted apart (by omega) first real mem taken
  have below := (List.getElem?_eq_some_iff.mp early).1
  omega

/-- What a Spark takes in a turn of a cycle that shares its board out is what they should, and they have heard
what they need to. -/
theorem Dealing.heard (dealing : Dealing before decided n k picks w)
    (fit : ∀ s ∈ before.sparks, s.Fit) (apart : (before.sparks.map (·.id)).Nodup)
    (first : before.sparks[k]? = some s) (turned : Turned k s w w') (later : Later before (k + 1) w' w'')
    (dealt : Dealt before decided w''.g told) (count : told.length = min before.sparks.length n) :
    TurnHeard k w := by
  have inside := (List.getElem?_eq_some_iff.mp first).1
  rcases Nat.lt_or_ge k n with some_left | done
  case inr => exact dealing.heard_nothing done turned
  have so_on := (turned.later first).trans later
  have so_far : told.take k = picks :=
    dealing.so_far fit apart (Nat.le_of_lt inside) (Nat.le_of_lt some_left) so_on dealt (by omega)
  obtain ⟨id, picked⟩ : ∃ id, told[k]? = some id := ⟨_, List.getElem?_eq_getElem (by omega)⟩
  have ⟨r₃, named, took, went⟩ := dealt.turn k s id first picked
  obtain ⟨r₂, mem₂, taken₂, same₂, worth₂, place₂⟩ :=
    later.taken_by apart (Nat.lt_succ_self k) first took.listed took.taken
  cases turned with
  | idle _ _ same =>
      have board : w'.g.ward.now.board = w.g.ward.now.board := congrArg Aside.board same
      rw [board] at mem₂
      exact absurd taken₂ (dealing.fresh fit apart first mem₂)
  | @takes r outcome w₁ foremost looked claimed opened worked gone place =>
      have ⟨mem, free⟩ := mem_openRows.mp foremost.mem
      have board₁ : w₁.g.ward.now.board =
          updateContract r.id (BoardRow.worked s.id outcome) w.g.ward.now.board :=
        congrArg Aside.board worked
      have board : w'.g.ward.now.board = w₁.g.ward.now.board := congrArg Aside.board gone
      -- what they have in the end is what they took
      have its : r₂ = r.worked s.id outcome := by
        rw [board, board₁, mem_worked dealing.sorted mem] at mem₂
        rcases mem₂ with its | ⟨there, _⟩
        · exact its
        · exact absurd taken₂ (dealing.fresh fit apart first there)
      rw [its] at same₂ worth₂ place₂
      have best : Foremost (BoardRow.worth (decided.nerve s.wear)) r (openRows w.g.ward.now.board) := by
        apply Foremost.of_best foremost.mem (sorted_openRows dealing.sorted)
        intro b there
        have ⟨on_board, still⟩ := mem_openRows.mp there
        have untold : b.id ∉ told.take k := by
          rw [so_far]
          exact (dealing.dealt.untaken b on_board).mp still
        obtain ⟨b', there', same⟩ := so_on.kept b on_board
        rw [← same.id] at untold
        have least := took.best b' there' untold
        rw [same.worth, same.id, worth₂, same₂] at least
        exact least
      constructor
      · intro _
        refine ⟨looked, claimed, ?_⟩
        intro s₁ here r₁ foremost₁
        have unmoved := dealing.waiting k (Nat.le_refl k) inside
        rw [here, first] at unmoved
        have record : s₁.record = s.record := Option.some.inj unmoved
        have worn : s₁.wear = s.wear := congrArg Record.wear record
        rw [worn] at foremost₁ ⊢
        rw [foremost₁.unique foremost, dealing.nerve]
        exact best
      · intro id₁ w₂ opened₁ r₁ there same
        rw [opened] at opened₁
        cases opened₁
        rw [board₁, mem_worked dealing.sorted mem] at there
        rcases there with rfl | ⟨_, other⟩
        · have still := later.earlier k (Nat.lt_succ_self k)
          have stays := congrArg (Option.map Record.place) still
          rw [Option.map_map, Option.map_map] at stays
          have arrived : some r₃.place = some (w₁.readsPlace r.place) :=
            went.symm.trans (stays.trans place)
          rw [place₂] at arrived
          exact (Option.some.inj arrived).symm
        · exact absurd same other

end Told

/-! ### Before the Queen has decided -/

/-- Code put together from calls that leave the Sparks as they are. -/
abbrev Aloof (α : Type) (x : Action World α) : Prop :=
  MadeOf (fun _ y => Leaves (fun w : World => w.g.sparks) y) α x

section Opening

variable {w w' : World}

theorem aloof_asks {α : Type} {x : Action World α} (asks : Asks x) : Aloof α x :=
  .move (asks.leaves _ fun _ _ => rfl)

theorem aloof_runWard (stmt : WardTables → Option WardTables) : Aloof Unit (runWard stmt) := by
  apply MadeOf.bind (aloof_asks asks_fallible)
  intro _
  apply MadeOf.move
  intro w
  unfold update
  cases changed : Gyre.onWard (Conn.execute stmt) w.g with
  | none => rfl
  | some g =>
      obtain ⟨c, -, rfl⟩ := onWard_eq_some.mp changed
      rfl

theorem aloof_buildVenue (i : Int) : Aloof Unit (buildVenue i) := by
  unfold buildVenue
  apply MadeOf.guard
  cases venues[i.toNat]? with
  | none => exact .fail
  | some v =>
      apply MadeOf.bind (.read _)
      intro treasury
      apply MadeOf.guard
      apply MadeOf.bind (aloof_asks (asks_built i))
      intro standing
      apply MadeOf.guard
      apply MadeOf.bind (.move fun _ => rfl)
      intro _
      apply MadeOf.bind (.read _)
      intro cycle
      apply MadeOf.bind (aloof_runWard _)
      intro _
      exact .bind (.read _) fun _ => aloof_runWard _

theorem aloof_commission : Aloof Int commission := by
  apply MadeOf.bind (aloof_asks asks_wardView)
  intro view
  apply MadeOf.bind (.attempt (aloof_asks asks_fallible))
  intro asked
  cases asked with
  | none => exact .pure _
  | some _ =>
      apply MadeOf.bind (.read _)
      intro late
      cases queenPlan late view with
      | none => exact .pure _
      | some i =>
          apply MadeOf.ite
          · intro _
            exact .pure _
          · intro _
            apply MadeOf.bind (.attempt (aloof_buildVenue i))
            intro built
            cases built with
            | none => exact .pure _
            | some _ => exact .pure _

theorem discreet_groupBegin : Discreet none Unit groupBegin := by
  have begun : Discreet none Nat weftTxnBegin := by
    have opened : Discreet none Nat (do
        fallible
        Action.modify <| World.setPlane fun p =>
          { p with
            locked := true, isOpen := true, txn := p.lastTxn + 1, parts := []
            lastTxn := p.lastTxn + 1 }
        let txn ← Action.read (·.plane.txn)
        observe (.began txn)
        pure txn) :=
      .bind (discreet_asks asks_fallible) fun _ => .bind (.move fun _ => rfl) fun _ =>
        .bind (.read _) fun _ => .bind (.move fun _ => rfl) fun _ => .pure _
    exact .bind (.read _) fun _ => .ite (fun _ => .bind .halt fun _ => opened) fun _ => opened
  exact .bind (.move fun _ => rfl) fun _ => .bind begun fun _ => .bind (.move fun _ => rfl) fun _ =>
    discreet_groupJoin _

theorem records_of_aside (same : w'.aside none = w.aside none) :
    w'.g.sparks.map Spark.record = w.g.sparks.map Spark.record := by
  apply List.ext_getElem?
  intro k
  rw [List.getElem?_map, List.getElem?_map]
  exact congrFun (congrArg Aside.others same) k

/-- What a cycle does before the Queen has decided is nothing to the Sparks. -/
theorem wp_cycleOpening_records (w : World) :
    wp cycleOpening (fun _ w' => w'.g.sparks.map Spark.record = w.g.sparks.map Spark.record)
      (fun _ => True) w := by
  unfold cycleOpening
  rw [Action.wp_bind]
  change wp _ _ _ w.counted
  rw [Action.wp_bind]
  apply discreet_groupBegin.wp
  intro _ w₁ same
  have commissions := (aloof_commission.leaves fun _ _ steady => steady).wp w₁
  apply Action.wp_mono commissions _ fun _ _ => trivial
  intro _ w₂ still
  have sparks : w₂.g.sparks = w₁.g.sparks := still
  rw [sparks]
  exact records_of_aside same

end Opening

/-! ### The cycle -/

/-- Every read that decides who takes what is heard: that of the rails, and what each Spark has to hear in their
turn. -/
structure BoardHeard (w : World) : Prop where
  rails : w.hears 0 2 = w.g.stands 2
  turns : ∀ w', postBoard w = (.ret (), w') →
    Action.Along TurnHeard sparkTurn (List.range w'.g.sparks.length) w'

section Cycle

variable {before decided : Gyre} {n k : Nat} {picks told : List Nat} {w w' w'' : World}

/-- A board that has been posted has not been dealt yet. -/
theorem OnBoard.dealing (posted : OnBoard w n w')
    (records : w.g.sparks.map Spark.record = before.sparks.map Spark.record) :
    Dealing before w.g n 0 [] w' := by
  have same := posted.same
  have others : ∀ j : Nat, w'.g.sparks[j]?.map Spark.record = before.sparks[j]?.map Spark.record := by
    intro j
    have still : w'.g.sparks[j]?.map Spark.record = w.g.sparks[j]?.map Spark.record :=
      congrFun (congrArg Aside.others same) j
    rw [still, ← List.getElem?_map, ← List.getElem?_map, records]
  have ids : w'.g.sparks.map (·.id) = before.sparks.map (·.id) := by
    have still : w'.g.sparks.map (·.id) = w.g.sparks.map (·.id) := congrArg Aside.ids same
    have named := congrArg (List.map Record.id) records
    rw [List.map_map, List.map_map] at named
    exact still.trans named
  have midway : Midway before 0 w' :=
    ⟨posted.live, posted.sorted, posted.fair, ids, fun j _ _ => others j⟩
  refine ⟨midway, ?_, posted.many, ?_, ?_⟩
  · exact stands_eq (congrArg Aside.isOpen same) (congrArg Aside.created same)
      (congrArg Aside.venue same)
  · rw [Nat.zero_min]
    rfl
  · constructor
    · exact List.nodup_nil
    · intro id mem
      exact absurd mem List.not_mem_nil
    · intro j s id _ picked
      cases picked
    · intro r mem
      simp [(posted.untaken r mem).1]
    · intro r mem
      simp [(posted.untaken r mem).2]
    · intro j _ _
      exact others j

/-- What a cycle does once the Queen has decided: it posts the board, the Sparks have their turns, and nothing
after that is any of their business. -/
theorem cycleWork_opened {answer : Int} {arriving : Bool} (run : cycleWork answer w = (.ret arriving, w'')) :
    ∃ w₁ w', postBoard w = (.ret (), w₁) ∧
      Action.forEach (List.range w₁.g.sparks.length) sparkTurn w₁ = (.ret (), w') ∧
        w''.aside none = w'.aside none := by
  unfold cycleWork at run
  split at run
  · cases run
  have ⟨_, w₁, posted, run⟩ := Action.bind_eq_ret run
  have ⟨_, w₂, read, run⟩ := Action.bind_eq_ret run
  cases read
  have ⟨_, w', turned, run⟩ := Action.bind_eq_ret run
  have rest : Discreet none Bool (do
      debtClock
      let row ← built 5
      let g ← Action.read (·.g)
      runWard (updateWard g.cycle g.treasury g.debt g.issued g.retired)
      return row ∧ g.sparks.length < sparksPerWard ∧ g.cycle.tmod arrivalCycles = 0) := by
    apply MadeOf.bind discreet_debtClock
    intro _
    apply MadeOf.bind (discreet_asks (asks_built 5))
    intro row
    apply MadeOf.bind (.read _)
    intro g
    apply MadeOf.bind
    · apply discreet_runWard
      intro t t' effect
      rw [existing_some effect]
      exact ⟨rfl, rfl, rfl⟩
    · intro _
      exact .pure _
  have same := rest.leaves w'
  exact ⟨w₁, w', posted, turned, (congrArg (World.aside none) (congrArg Prod.snd run)).symm.trans same⟩

/-- The end of a cycle takes nothing back. -/
theorem wp_cycleEnd_records (w : World) (arriving : Bool) :
    wp (do
        groupCommit
        if arriving then
          let g ← Action.read (·.g)
          joinWard (g.wardNo * sparksPerWard + g.nsparks))
      (fun _ w' => w'.g.ward.now.board = w.g.ward.now.board ∧ ∀ j, j < w.g.sparks.length →
        w'.g.sparks[j]?.map Spark.record = w.g.sparks[j]?.map Spark.record)
      (fun _ => True) w := by
  rw [Action.wp_bind]
  unfold groupCommit
  rw [Action.wp_bind, Action.wp_read, Action.wp_bind]
  apply Action.wp_onFail_any
  have committed : Discreet none Unit (Action.forEach w.grp.dbs sqlCommit) :=
    .forEach fun h _ => discreet_sqlCommit h
  apply committed.wp
  intro _ w₁ same₁
  apply Action.wp_mono ((weftTxnCommit_same _).wp w₁) _ fun _ _ => trivial
  intro _ w₂ same₂
  have board : w₂.g.ward.now.board = w.g.ward.now.board := by
    rw [same₂]
    exact congrArg Aside.board same₁
  have records := records_of_aside same₁
  rw [← same₂] at records
  have each : ∀ j : Nat, w₂.g.sparks[j]?.map Spark.record = w.g.sparks[j]?.map Spark.record := by
    intro j
    rw [← List.getElem?_map, ← List.getElem?_map, records]
  apply Action.wp_ite
  · intro _
    rw [Action.wp_bind, Action.wp_read]
    apply Action.wp_mono (wp_joinWard _ w₂) _ fun _ _ => trivial
    intro _ w₃ joined
    rw [joined.2]
    refine ⟨board, ?_⟩
    intro j inside
    have length := congrArg List.length records
    rw [List.length_map, List.length_map] at length
    rw [Gyre.withSpark, List.getElem?_append_left (by rw [length]; exact inside)]
    exact each j
  · intro _
    exact ⟨board, fun j _ => each j⟩

/-- The Sparks at `rest` have yet to take their turn, and those before them have taken theirs. -/
def TurnsLeft (before decided : Gyre) (n : Nat) (rest : List Nat) (w : World) : Prop :=
  ∃ k picks, rest = List.range' k (before.sparks.length - k) ∧ k ≤ before.sparks.length ∧
    Dealing before decided n k picks w

theorem TurnsLeft.start (dealing : Dealing before decided n 0 [] w) :
    TurnsLeft before decided n (List.range before.sparks.length) w :=
  ⟨0, [], List.range_eq_range', Nat.zero_le _, dealing⟩

/-- Where some Sparks have yet to take their turn, the first of them is the next of the array. -/
theorem TurnsLeft.first {i : Nat} {rest : List Nat} (left : TurnsLeft before decided n (i :: rest) w) :
    ∃ picks s, before.sparks[i]? = some s ∧ Dealing before decided n i picks w ∧
      rest = List.range' (i + 1) (before.sparks.length - (i + 1)) := by
  obtain ⟨k, picks, same, inside, dealing⟩ := left
  have more : before.sparks.length - k = (before.sparks.length - (k + 1)) + 1 := by
    have some := congrArg List.length same
    rw [List.length_cons, List.length_range'] at some
    omega
  rw [more, List.range'_succ] at same
  obtain ⟨rfl, later⟩ := List.cons.inj same
  exact ⟨picks, _, List.getElem?_eq_getElem (by omega), dealing, later⟩

theorem TurnsLeft.next {i : Nat} {rest : List Nat} (left : TurnsLeft before decided n (i :: rest) w)
    (fit : ∀ s ∈ before.sparks, s.Fit) (heard : TurnHeard i w) (run : sparkTurn i w = (.ret (), w')) :
    TurnsLeft before decided n rest w' := by
  obtain ⟨picks, s, first, dealing, later⟩ := left.first
  have turned := dealing.toMidway.turned fit first run
  have ⟨picks', dealing'⟩ := dealing.next fit first heard turned
  exact ⟨i + 1, picks', later, (List.getElem?_eq_some_iff.mp first).1, dealing'⟩

/-- When all have had their turn, the board is dealt. -/
theorem TurnsLeft.done (left : TurnsLeft before decided n [] w) :
    ∃ picks, Dealing before decided n before.sparks.length picks w := by
  obtain ⟨k, picks, same, inside, dealing⟩ := left
  have all : k = before.sparks.length := by
    have none := congrArg List.length same
    rw [List.length_nil, List.length_range'] at none
    omega
  rw [all] at dealing
  exact ⟨picks, dealing⟩

/-- The turns deal the board if each of them hears what it has to. -/
theorem Dealing.run (dealing : Dealing before decided n 0 [] w) (fit : ∀ s ∈ before.sparks, s.Fit)
    (heard : Action.Along TurnHeard sparkTurn (List.range before.sparks.length) w)
    (run : Action.forEach (List.range before.sparks.length) sparkTurn w = (.ret (), w')) :
    ∃ picks, Dealing before decided n before.sparks.length picks w' := by
  have left := heard.run run (TurnsLeft.start dealing) fun i rest w₁ w₂ left heard turn =>
    left.next fit heard turn
  exact left.done

/-- And only if each of them does. -/
theorem Dealing.heard_of_run (dealing : Dealing before decided n 0 [] w)
    (fit : ∀ s ∈ before.sparks, s.Fit) (apart : (before.sparks.map (·.id)).Nodup)
    (run : Action.forEach (List.range before.sparks.length) sparkTurn w = (.ret (), w'))
    (dealt : Dealt before decided w'.g told) (count : told.length = min before.sparks.length n) :
    Action.Along TurnHeard sparkTurn (List.range before.sparks.length) w := by
  apply Action.Along.of_run run (TurnsLeft.start dealing)
  intro i rest w₁ w₂ left turn after
  obtain ⟨picks, s, first, dealing₁, more⟩ := left.first
  have inside := (List.getElem?_eq_some_iff.mp first).1
  have turned := dealing₁.toMidway.turned fit first turn
  rw [more] at after
  have ⟨_, later⟩ := (dealing₁.toMidway.next turned).run fit (by omega) after
  have heard := dealing₁.heard fit apart first turned later dealt count
  exact ⟨heard, left.next fit heard turn⟩

end Cycle

/-- A ward that a service comes through has only Sparks that fit. -/
theorem Reached.fit {w : World} (reached : Reached w) : ∀ s ∈ w.g.sparks, s.Fit :=
  fun s mem => ⟨reached.numbered.named s mem, (reached.framesHold s mem).2⟩

/-- A cycle that succeeds shares the board out if every read that decides it is heard; and only then, where no
two Sparks go by one id. -/
theorem the_board_is_shared_out_iff (w w₁ w' : World) (decided : Int) (fit : ∀ s ∈ w.g.sparks, s.Fit)
    (opened : cycleOpening w = (.ret decided, w₁)) (cycled : cycle w = (.ret (), w')) :
    (BoardHeard w₁ → SharedOut w.g w₁.g w'.g) ∧
      ((w.g.sparks.map (·.id)).Nodup → SharedOut w.g w₁.g w'.g → BoardHeard w₁) := by
  have ⟨decided', arriving, w₁', w₄, opened', worked, ended⟩ := cycle_opened cycled
  rw [opened] at opened'
  cases opened'
  have records := Action.wp_ret (wp_cycleOpening_records w) opened
  have ⟨w₂, w₃, posted, turned, same⟩ := cycleWork_opened worked
  have on_board := Action.wp_ret (wp_postBoard_onBoard w₁) posted
  have dealing := on_board.dealing records
  have length {v : World} (ids : v.g.sparks.map (·.id) = w.g.sparks.map (·.id)) :
      v.g.sparks.length = w.g.sparks.length := by
    have lengths := congrArg List.length ids
    rw [List.length_map, List.length_map] at lengths
    exact lengths
  rw [length dealing.ids] at turned
  have each := turned
  rw [List.range_eq_range'] at each
  have ⟨midway, later⟩ := dealing.toMidway.run fit (Nat.zero_add _) each
  have ⟨board₅, sparks₅⟩ := Action.wp_ret (wp_cycleEnd_records w₄ arriving) ended
  have board : w'.g.ward.now.board = w₃.g.ward.now.board := board₅.trans (congrArg Aside.board same)
  have ids₄ : w₄.g.sparks.map (·.id) = w₃.g.sparks.map (·.id) := congrArg Aside.ids same
  have sparks : ∀ j, j < w.g.sparks.length →
      w'.g.sparks[j]?.map Spark.record = w₃.g.sparks[j]?.map Spark.record := by
    intro j inside
    rw [sparks₅ j (by rw [length (ids₄.trans midway.ids)]; exact inside)]
    exact congrFun (congrArg Aside.others same) j
  have many : w'.g.ward.now.board.length = boardSize + if w₁.hears 0 2 then 3 else 0 := by
    rw [board, later.many]
    exact dealing.many
  constructor
  · intro heard
    have along := heard.turns w₂ posted
    rw [length dealing.ids] at along
    have ⟨picks, dealt⟩ := dealing.run fit along turned
    refine ⟨?_, ?_, picks, dealt.dealt.of_same board sparks, ?_⟩
    · rw [many, heard.rails]
    · rw [board]
      exact nodup_ids dealt.sorted
    · rw [many]
      exact dealt.turns
  · intro apart shared
    have ⟨told, dealt, count⟩ := shared.dealt
    have rails : w₁.hears 0 2 = w₁.g.stands 2 := by
      have posts := shared.posted
      rw [many] at posts
      cases heard : w₁.hears 0 2 <;> cases stand : w₁.g.stands 2 <;> simp [heard, stand] at posts ⊢
    rw [many] at count
    refine ⟨rails, ?_⟩
    intro w₂' posted'
    rw [posted] at posted'
    cases posted'
    rw [length dealing.ids]
    exact dealing.heard_of_run fit apart turned
      (dealt.of_same board.symm fun j inside => (sparks j inside).symm) count

/-! ### Where nothing fails -/

theorem hears_of_quiet {w : World} (quiet : Quiet w) (k : Nat) (i : Int) : w.hears k i = w.g.stands i := by
  unfold World.hears
  rw [quiet, Bool.false_or]

theorem quiet_of_contained {α : Type} {x : Action World α} (contained : Contained α x) {w w' : World} {a : α}
    (quiet : Quiet w) (run : x w = (.ret a, w')) : Quiet w' := by
  have same : w'.plane.faults = w.plane.faults := by
    have left := congrArg Outside.faults (contained.leaves w)
    rw [run] at left
    exact left
  intro k
  rw [same]
  exact quiet k

theorem made_settleOpening (i id : Nat) (won : Bool) (earned : Int) (item : Option Text) :
    MadeOf TurnMove Unit (settleOpening i id won earned item) := by
  apply MadeOf.bind (turn_of_entered (made_built 1))
  intro repaired
  apply MadeOf.bind (turn_of_entered (made_remember (.setWear _ _)))
  intro _
  apply MadeOf.bind (turn_of_entered (made_runWard (.outcome _ _)))
  intro _
  apply MadeOf.bind (.read _)
  intro treasury
  exact .ite (fun _ => turn_pay _ _ _) fun _ => .pure _

theorem made_workOpening (i : Nat) (s : Spark) (id : Nat) :
    MadeOf TurnMove Unit (workOpening i s id) := by
  apply MadeOf.bind (turn_of_entered (made_scalarOr _ _))
  intro payout
  apply MadeOf.bind (turn_of_entered (made_scalarOr _ _))
  intro risk
  apply MadeOf.bind (turn_of_entered (entered_of_jotted (jotted_draw 100)))
  intro roll
  apply MadeOf.ite
  · intro _
    apply MadeOf.bind (turn_of_entered (entered_of_jotted (.bind (jotted_keepContract _ _) fun _ => .pure _)))
    intro item
    exact made_settleOpening i id _ _ _
  · intro _
    exact .bind (.pure _) fun item => made_settleOpening i id _ _ item

theorem contained_turnOpening (i : Nat) : Contained (Option Nat) (turnOpening i) := by
  apply contained_moves
  apply moves_of_turn
  apply MadeOf.bind (turn_of_entered (made_choose i))
  intro id
  apply MadeOf.ite
  · intro _
    exact .pure _
  · intro _
    apply MadeOf.bind (.read _)
    intro here
    cases here with
    | none => exact .pure _
    | some s =>
        apply MadeOf.bind _ fun _ => .pure _
        exact made_workOpening i s id.toNat

/-- Over a plane that fails nothing every Spark hears what they have to. -/
theorem turnHeard_of_quiet {w : World} (quiet : Quiet w) (i : Nat) : TurnHeard i w := by
  constructor
  · intro _
    refine ⟨quiet _, quiet _, ?_⟩
    intro s _ r foremost
    have nerve : w.heardNerve s.wear = w.g.nerve s.wear := by
      unfold World.heardNerve Gyre.nerve
      rw [hears_of_quiet quiet, hears_of_quiet quiet]
    rw [← nerve]
    exact foremost
  · intro id w₁ opened r _ _
    have quiet₁ := quiet_of_contained (contained_turnOpening i) quiet opened
    unfold World.readsPlace World.reads
    rw [quiet₁, quiet₁, quiet₁]
    rfl

theorem along_of_quiet {w : World} (quiet : Quiet w) (items : List Nat) :
    Action.Along TurnHeard sparkTurn items w := by
  induction items generalizing w with
  | nil => trivial
  | cons i rest ih =>
      refine ⟨turnHeard_of_quiet quiet i, ?_⟩
      intro w₁ turned
      exact ih (quiet_of_contained (contained_moves (moves_of_turn (made_sparkTurn i))) quiet turned)

theorem boardHeard_of_quiet {w : World} (quiet : Quiet w) : BoardHeard w := by
  refine ⟨hears_of_quiet quiet 0 2, ?_⟩
  intro w₁ posted
  have posts : Contained Unit postBoard := contained_moves (made_of_writes made_postBoard)
  exact along_of_quiet (quiet_of_contained posts quiet posted) _

theorem faults_cycleOpening (w : World) : (cycleOpening w).2.plane.faults = w.plane.faults := by
  have contained : Contained Int cycleOpening := by
    apply MadeOf.bind (contained_remember _)
    intro _
    apply MadeOf.bind (contained_group grouped_groupBegin)
    intro _
    exact contained_moves (made_of_writes (made_of_entered made_commission))
  exact congrArg Outside.faults (contained.leaves w)

/-- Two Sparks and a board of six. -/
theorem two_share_the_board : ∃ w₁ w' : World,
    cycleOpening (World.founded 2 7 fun _ => false) = (.ret (-1), w₁) ∧
      cycle (World.founded 2 7 fun _ => false) = (.ret (), w') ∧
        SharedOut (World.founded 2 7 fun _ => false).g w₁.g w'.g := by
  have founds : (foundWard liveName 2 7 0 (World.fresh fun _ => false)).1 = .ret () := by decide +kernel
  have opened : (cycleOpening (World.founded 2 7 fun _ => false)).1 = .ret (-1) := by decide +kernel
  have cycled : (cycle (World.founded 2 7 fun _ => false)).1 = .ret () := by decide +kernel
  have fit := (Reached.founded (founds_fresh founds)).fit
  have steady := (faults_cycleOpening _).trans (faults_founded 2 7 fun _ => false)
  have quiet : Quiet (cycleOpening (World.founded 2 7 fun _ => false)).2 := fun k => congrFun steady k
  exact ⟨_, _, ran_to opened, ran_to cycled,
    (the_board_is_shared_out_iff _ _ _ (-1) fit (ran_to opened) (ran_to cycled)).1 (boardHeard_of_quiet quiet)⟩

/-- A ward of one Spark, over a plane that fails the Spark's look at the board. -/
def blinkingWard : World := World.founded 1 7 fun k => k == 60

/-- The Spark idles before a board of nine, and the cycle succeeds. -/
theorem a_blink_leaves_a_spark_idle : ¬ ∀ (w w₁ w' : World) (decided : Int), Reached w →
    cycleOpening w = (.ret decided, w₁) → cycle w = (.ret (), w') → SharedOut w.g w₁.g w'.g := by
  intro shares
  have founds : (foundWard liveName 1 7 0 (World.fresh fun k => k == 60)).1 = .ret () := by
    decide +kernel
  have opened : (cycleOpening blinkingWard).1 = .ret 2 := by decide +kernel
  have cycled : (cycle blinkingWard).1 = .ret () := by decide +kernel
  have shared := shares blinkingWard _ _ 2 (.founded (founds_fresh founds)) (ran_to opened) (ran_to cycled)
  have ⟨picks, dealt, count⟩ := shared.dealt
  have one : min blinkingWard.g.sparks.length (cycle blinkingWard).2.g.ward.now.board.length = 1 := by
    decide +kernel
  have nobody : ∀ r ∈ (cycle blinkingWard).2.g.ward.now.board, r.taken = -1 := by decide +kernel
  rw [one] at count
  obtain ⟨id, rfl⟩ := List.length_eq_one_iff.mp count
  have ⟨r, listed, named⟩ := dealt.listed id List.mem_cons_self
  have untaken := (dealt.untaken r listed).mp (nobody r listed)
  apply untaken
  rw [named]
  exact List.mem_cons_self

end GyreWard
