/-
Module: GyreWard.Proofs.Sharing
Purpose: The turns of the Sparks at a board: what each of them takes over any plane, and that the board is
  dealt one contract further by a turn that hears what it needs to.
Trusted boundary: human-reviewed spec (`Took`, `Dealt`, `SharedOut`, `ChoiceHeard`, `TurnHeard`)
Main exports: Took, Dealt, SharedOut, mem_worked, Dealt.next, Midway, Turned, Midway.turned, Midway.next, ChoiceHeard,
  TurnHeard, Dealing, Dealing.next
-/
import GyreWard.Proofs.Posting

namespace GyreWard

open Lib
open Lib.Action (wp)

/-! ### What it is to share a board out -/

/-- The Spark `s`, to whom it was left what is not in `gone`, took contract `r`: nothing that was left is worth
more to them, and nothing worth as much has a lower id. -/
structure Took (decided : Gyre) (board : List BoardRow) (gone : List Nat) (s : Spark) (r : BoardRow) :
    Prop where
  listed : r ∈ board
  left : r.id ∉ gone
  taken : r.taken = s.id
  best : ∀ r' ∈ board, r'.id ∉ gone →
    r'.worth (decided.nerve s.wear) < r.worth (decided.nerve s.wear) ∨
      r'.worth (decided.nerve s.wear) = r.worth (decided.nerve s.wear) ∧ r.id ≤ r'.id

/-- The first Sparks of the array have taken `picks`, one each, and nobody has taken anything else. -/
structure Dealt (before decided after : Gyre) (picks : List Nat) : Prop where
  once : picks.Nodup
  listed : ∀ id ∈ picks, ∃ r ∈ after.ward.now.board, r.id = id
  turn : ∀ (j : Nat) (s : Spark) (id : Nat), before.sparks[j]? = some s → picks[j]? = some id →
    ∃ r, r.id = id ∧ Took decided after.ward.now.board (picks.take j) s r ∧
      after.sparks[j]?.map (·.place) = some r.place
  untaken : ∀ r ∈ after.ward.now.board, r.taken = -1 ↔ r.id ∉ picks
  outcome : ∀ r ∈ after.ward.now.board, r.outcome.isSome = true ↔ r.id ∈ picks
  idle : ∀ j, picks.length ≤ j → j < before.sparks.length →
    after.sparks[j]?.map Spark.record = before.sparks[j]?.map Spark.record

/-- The board is shared out greedily and exactly, in a ward that was `before` when the cycle was called, and
`decided` when the Queen had decided. -/
structure SharedOut (before decided after : Gyre) : Prop where
  posted : after.ward.now.board.length = boardSize + if decided.stands 2 then 3 else 0
  apart : (after.ward.now.board.map (·.id)).Nodup
  dealt : ∃ picks, Dealt before decided after picks ∧
    picks.length = min before.sparks.length after.ward.now.board.length

/-! ### One contract more -/

section Next

variable {before decided g g' : Gyre} {picks : List Nat} {s : Spark} {r : BoardRow} {outcome : Text}

/-- The contract as the Spark leaves it. -/
def BoardRow.worked (spark : Int) (outcome : Text) (r : BoardRow) : BoardRow :=
  (r.claim spark).settle outcome

theorem sorted_openRows {rows : List BoardRow} (sorted : (rows.map (·.id)).Pairwise (· < ·)) :
    ((openRows rows).map (·.id)).Pairwise (· < ·) :=
  sorted.sublist (List.filter_sublist.map _)

theorem mem_openRows {rows : List BoardRow} : r ∈ openRows rows ↔ r ∈ rows ∧ r.taken = -1 := by
  unfold openRows
  rw [List.mem_filter, beq_iff_eq]

theorem nodup_ids {rows : List BoardRow} (sorted : (rows.map (·.id)).Pairwise (· < ·)) :
    (rows.map (·.id)).Nodup :=
  sorted.imp fun less => Nat.ne_of_lt less

theorem id_inj {rows : List BoardRow} (sorted : (rows.map (·.id)).Pairwise (· < ·)) {r r' : BoardRow}
    (mem : r ∈ rows) (mem' : r' ∈ rows) (same : r.id = r'.id) : r = r' :=
  List.inj_on_of_nodup_map (nodup_ids sorted) mem mem' same

section Worked

variable {rows : List BoardRow} {gone : List Nat} {spark : Int} {r' : BoardRow}
  (sorted : (rows.map (·.id)).Pairwise (· < ·))

include sorted

/-- When a contract has been worked the others are as they were. -/
theorem mem_worked (mem : r ∈ rows) :
    r' ∈ updateContract r.id (BoardRow.worked spark outcome) rows ↔
      r' = r.worked spark outcome ∨ r' ∈ rows ∧ r'.id ≠ r.id := by
  rw [mem_updateContract]
  constructor
  · rintro ⟨r'', there, rfl⟩
    by_cases it : r''.id = r.id
    · rw [if_pos it, id_inj sorted there mem it]
      exact .inl rfl
    · rw [if_neg it]
      exact .inr ⟨there, it⟩
  · rintro (rfl | ⟨there, other⟩)
    · exact ⟨r, mem, if_pos rfl⟩
    · exact ⟨r', there, if_neg other⟩

/-- What a Spark took they still have when another contract has been worked. -/
theorem Took.worked (took : Took decided rows gone s r') (mem : r ∈ rows) (other : r'.id ≠ r.id) :
    Took decided (updateContract r.id (BoardRow.worked spark outcome) rows) gone s r' where
  listed := (mem_worked sorted mem).mpr (.inr ⟨took.listed, other⟩)
  left := took.left
  taken := took.taken
  best := by
    intro r₁ there left
    rcases (mem_worked sorted mem).mp there with rfl | ⟨there, -⟩
    · exact took.best r mem left
    · exact took.best r₁ there left

/-- The foremost of what is left is what a Spark should take. -/
theorem took_foremost (foremost : Foremost (BoardRow.worth (decided.nerve s.wear)) r (openRows rows))
    (untaken : ∀ r ∈ rows, r.taken = -1 ↔ r.id ∉ gone) :
    Took decided (updateContract r.id (BoardRow.worked s.id outcome) rows) gone s (r.worked s.id outcome) := by
  have ⟨mem, free⟩ := mem_openRows.mp foremost.mem
  refine ⟨(mem_worked sorted mem).mpr (.inl rfl), (untaken r mem).mp free, rfl, ?_⟩
  intro r₁ there left
  rcases (mem_worked sorted mem).mp there with rfl | ⟨there, -⟩
  · exact .inr ⟨rfl, Nat.le_refl _⟩
  · have still := mem_openRows.mpr ⟨there, (untaken r₁ there).mpr left⟩
    rcases lt_or_eq_of_le (foremost.le r₁ still) with less | level
    · exact .inl less
    · exact .inr ⟨level, foremost.earlier (sorted_openRows sorted) r₁ still level⟩

end Worked

/-- The Spark whose turn it is takes the foremost of what is left, and the board is dealt one contract
further. -/
theorem Dealt.next (dealt : Dealt before decided g picks)
    (sorted : (g.ward.now.board.map (·.id)).Pairwise (· < ·))
    (here : before.sparks[picks.length]? = some s) (real : s.id ≠ -1)
    (foremost : Foremost (BoardRow.worth (decided.nerve s.wear)) r (openRows g.ward.now.board))
    (board : g'.ward.now.board = updateContract r.id (BoardRow.worked s.id outcome) g.ward.now.board)
    (others : ∀ k, k ≠ picks.length →
      g'.sparks[k]?.map Spark.record = g.sparks[k]?.map Spark.record)
    (place : g'.sparks[picks.length]?.map (·.place) = some r.place) :
    Dealt before decided g' (picks ++ [r.id]) := by
  have ⟨mem, free⟩ := mem_openRows.mp foremost.mem
  have fresh : r.id ∉ picks := (dealt.untaken r mem).mp free
  have other {id : Nat} (old : id ∈ picks) : id ≠ r.id := ne_of_mem_of_not_mem old fresh
  have rows {r' : BoardRow} : r' ∈ g'.ward.now.board ↔
      r' = r.worked s.id outcome ∨ r' ∈ g.ward.now.board ∧ r'.id ≠ r.id := by
    rw [board]
    exact mem_worked sorted mem
  constructor
  · apply List.Nodup.append dealt.once (List.nodup_singleton _)
    intro id old new
    exact other old (List.mem_singleton.mp new)
  · intro id listed
    rcases List.mem_append.mp listed with old | new
    · have ⟨r', there, named⟩ := dealt.listed id old
      exact ⟨r', rows.mpr (.inr ⟨there, named ▸ other old⟩), named⟩
    · exact ⟨_, rows.mpr (.inl rfl), (List.mem_singleton.mp new).symm⟩
  · intro j s' id there picked
    rcases Nat.lt_or_ge j picks.length with old | new
    · rw [List.getElem?_append_left old] at picked
      have ⟨r', named, took, gone⟩ := dealt.turn j s' id there picked
      have apart : r'.id ≠ r.id := named ▸ other (List.mem_of_getElem? picked)
      rw [List.take_append_of_le_length (Nat.le_of_lt old), board]
      refine ⟨r', named, took.worked sorted mem apart, ?_⟩
      have place := congrArg (Option.map Record.place) (others j (Nat.ne_of_lt old))
      rw [Option.map_map, Option.map_map] at place
      exact place.trans gone
    · have last : j = picks.length := by
        have inside := (List.getElem?_eq_some_iff.mp picked).1
        rw [List.length_append, List.length_singleton] at inside
        omega
      subst last
      rw [here] at there
      cases there
      rw [List.getElem?_append_right new, Nat.sub_self] at picked
      cases picked
      rw [List.take_left, board]
      exact ⟨r.worked s.id outcome, rfl, took_foremost sorted foremost dealt.untaken, place⟩
  · intro r₁ there₁
    rcases rows.mp there₁ with rfl | ⟨there₁, apart⟩
    · constructor
      · intro free
        exact absurd free real
      · intro left
        exact absurd (List.mem_append_right _ List.mem_cons_self) left
    · rw [dealt.untaken r₁ there₁, List.mem_append, List.mem_singleton]
      simp [apart]
  · intro r₁ there₁
    rcases rows.mp there₁ with rfl | ⟨there₁, apart⟩
    · constructor
      · intro _
        exact List.mem_append_right _ List.mem_cons_self
      · intro _
        rfl
    · rw [dealt.outcome r₁ there₁, List.mem_append, List.mem_singleton]
      simp [apart]
  · intro j after inside
    rw [List.length_append, List.length_singleton] at after
    rw [others j (Nat.ne_of_gt after)]
    exact dealt.idle j (Nat.le_of_succ_le after) inside

end Next

/-! ### The turns of the Sparks -/

/-- A Spark as every ward has them: called anything but -1, which on the board means nobody, and worn no more
than a Frame can be. -/
structure Spark.Fit (s : Spark) : Prop where
  real : s.id ≠ -1
  worn : s.wear ≤ 90

theorem stands_eq {g g' : Gyre} (isOpen : g'.ward.isOpen = g.ward.isOpen)
    (created : g'.ward.now.created = g.ward.now.created)
    (venue : g'.ward.now.venue = g.ward.now.venue) (i : Int) : g'.stands i = g.stands i := by
  unfold Gyre.stands Gyre.askWard selectBuilt
  rw [isOpen, created, venue]

/-- `k` of the Sparks that were there `before` have had their turn, and the others are as they were. -/
structure Midway (before : Gyre) (k : Nat) (w : World) : Prop where
  live : Live w
  sorted : (w.g.ward.now.board.map (·.id)).Pairwise (· < ·)
  fair : ∀ r ∈ w.g.ward.now.board, r.Fair
  ids : w.g.sparks.map (·.id) = before.sparks.map (·.id)
  waiting : ∀ j, k ≤ j → j < before.sparks.length →
    w.g.sparks[j]?.map Spark.record = before.sparks[j]?.map Spark.record

/-- What a turn of the Spark `s` at place `k` comes to, whatever fails. -/
inductive Turned (k : Nat) (s : Spark) (w w' : World) : Prop where
  /-- Nothing has changed, and there is a reason. -/
  | idle
      (reason : openRows w.g.ward.now.board = [] ∨ w.plane.faults w.plane.tick = true ∨
        w.plane.faults (w.plane.tick + 3) = true)
      (opened : (turnOpening k w).1 = .ret none)
      (same : w'.aside none = w.aside none)
  /-- The contract that is foremost by what is heard is worked, and the Spark is where it reads to be. -/
  | takes {r : BoardRow} {outcome : Text} {w₁ : World}
      (foremost : Foremost (BoardRow.worth (w.heardNerve s.wear)) r (openRows w.g.ward.now.board))
      (looked : w.plane.faults w.plane.tick = false)
      (claimed : w.plane.faults (w.plane.tick + 3) = false)
      (opened : turnOpening k w = (.ret (some r.id), w₁))
      (worked : w₁.aside (some k) =
        { w.aside (some k) with
          board := updateContract r.id (BoardRow.worked s.id outcome) w.g.ward.now.board })
      (gone : w'.aside (some k) = w₁.aside (some k))
      (place : w'.g.sparks[k]?.map (·.place) = some (w₁.readsPlace r.place))

/-- The contract of an id is the one that is found under it. -/
theorem find_of_mem {rows : List BoardRow} (sorted : (rows.map (·.id)).Pairwise (· < ·)) {r : BoardRow}
    (mem : r ∈ rows) : rows.find? (fun r' => r'.id == r.id) = some r := by
  have found : (rows.find? fun r' => r'.id == r.id).isSome = true :=
    List.find?_isSome.mpr ⟨r, mem, beq_iff_eq.mpr rfl⟩
  have ⟨r', there⟩ := Option.isSome_iff_exists.mp found
  have holds := List.find?_some there
  have named : r'.id = r.id := beq_iff_eq.mp holds
  rw [there, id_inj sorted (List.mem_of_find?_eq_some there) mem named]

section Midway

variable {before : Gyre} {k : Nat} {w w' : World} {s : Spark}

/-- The Spark whose turn it is idles, or takes what is foremost by what they hear. -/
theorem Midway.turned (midway : Midway before k w) (fit : ∀ s ∈ before.sparks, s.Fit)
    (first : before.sparks[k]? = some s) (run : sparkTurn k w = (.ret (), w')) : Turned k s w w' := by
  have inside := (List.getElem?_eq_some_iff.mp first).1
  have unmoved := midway.waiting k (Nat.le_refl k) inside
  rw [first] at unmoved
  obtain ⟨s₁, here, record⟩ := Option.map_eq_some_iff.mp unmoved
  have named : s₁.id = s.id := congrArg Record.id record
  have worn : s₁.wear = s.wear := congrArg Record.wear record
  have least := (fit s (List.mem_of_getElem? first)).worn
  rw [sparkTurn_opened] at run
  obtain ⟨taken, w₁, opened, rest⟩ := Action.bind_eq_ret run
  rcases choose_takes midway.live here (by rw [worn]; exact least) midway.fair with
    ⟨reason, n, idles⟩ | ⟨r, foremost, looked, claimed, takes⟩
  · have none : turnOpening k w = (.ret none, w.after n) := Action.bind_ret idles
    rw [opened] at none
    cases none
    obtain ⟨-, rfl⟩ := Action.pure_eq_ret rest
    exact .idle reason (congrArg Prod.fst opened) rfl
  · have ⟨mem, _⟩ := mem_openRows.mp foremost.mem
    generalize after : (w.after 4).setGyre
      (Gyre.onTables (WardTables.onContract r.id (BoardRow.claim s₁.id))) = w₂ at takes
    have aside₂ : w₂.aside (some k) =
        { w.aside (some k) with
          board := updateContract r.id (BoardRow.claim s₁.id) w.g.ward.now.board } := by
      rw [← after]
      rfl
    have board₂ : w₂.g.ward.now.board = _ := congrArg Aside.board aside₂
    have here₂ : w₂.g.sparks[k]? = some s₁ := by
      rw [← after]
      exact here
    have works : wp (turnOpening k) (fun id w₃ => id = some r.id ∧ Worked k r.id w₂ w₃)
        (fun _ => True) w := by
      apply Action.wp_bind_ret takes
      rw [if_neg (Int.not_lt.mpr (Int.natCast_nonneg r.id)), Action.wp_bind, Action.wp_read, here₂]
      dsimp only
      rw [Action.wp_bind]
      apply Action.wp_mono (wp_workOpening_works s₁ w₂) _ fun _ _ => trivial
      intro _ w₃ worked
      exact ⟨rfl, worked⟩
    obtain ⟨rfl, outcome, aside₁⟩ := Action.wp_ret works opened
    have aside : w₁.aside (some k) =
        { w.aside (some k) with
          board := updateContract r.id (BoardRow.worked s.id outcome) w.g.ward.now.board } := by
      rw [aside₁, board₂, updateContract_twice (f := BoardRow.claim s₁.id) fun _ => rfl, aside₂, named]
      rfl
    have found : w₁.g.ward.now.board.find? (fun r' => r'.id == r.id) = some (r.worked s.id outcome) := by
      have board : w₁.g.ward.now.board = _ := congrArg Aside.board aside
      rw [board]
      change (updateContract r.id (BoardRow.worked s.id outcome) w.g.ward.now.board).find? _ = _
      rw [find_updateContract (f := BoardRow.worked s.id outcome) fun _ => rfl,
        find_of_mem midway.sorted mem]
      rfl
    have live : Live w₁ := by
      have isOpen : w₁.g.ward.isOpen = w.g.ward.isOpen := congrArg Aside.isOpen aside
      have created : w₁.g.ward.now.created = w.g.ward.now.created := congrArg Aside.created aside
      exact ⟨isOpen.trans midway.live.isOpen, created.trans midway.live.created⟩
    have ids : w₁.g.sparks.map (·.id) = w₂.g.sparks.map (·.id) := congrArg Aside.ids aside₁
    obtain ⟨s₃, here₃, -⟩ := here_of_ids here₂ ids
    have ⟨gone, place⟩ := Action.wp_ret (wp_goToWork_goes live here₃ found) rest
    exact .takes (by rw [← worn]; exact foremost) looked claimed opened aside gone place

/-- Nobody but the Spark whose turn it is changes by it. -/
theorem Turned.others (turned : Turned k s w w') {j : Nat} (other : j ≠ k) :
    w'.g.sparks[j]?.map Spark.record = w.g.sparks[j]?.map Spark.record := by
  cases turned with
  | idle _ _ same => exact congrFun (congrArg Aside.others same) j
  | takes _ _ _ _ worked gone _ =>
      have same := congrFun (congrArg Aside.others (gone.trans worked)) j
      have apart : ¬ some k = some j := fun same => other (Option.some.inj same).symm
      simp only [World.aside, if_neg apart] at same
      exact same

theorem Turned.ids (turned : Turned k s w w') :
    w'.g.sparks.map (·.id) = w.g.sparks.map (·.id) := by
  cases turned with
  | idle _ _ same => exact congrArg Aside.ids same
  | takes _ _ _ _ worked gone _ => exact congrArg Aside.ids (gone.trans worked)

theorem Turned.stands (turned : Turned k s w w') (i : Int) : w'.g.stands i = w.g.stands i := by
  cases turned with
  | idle _ _ same =>
      exact stands_eq (congrArg Aside.isOpen same) (congrArg Aside.created same)
        (congrArg Aside.venue same) i
  | takes _ _ _ _ worked gone _ =>
      have same := gone.trans worked
      exact stands_eq (congrArg Aside.isOpen same) (congrArg Aside.created same)
        (congrArg Aside.venue same) i

/-- One turn more. -/
theorem Midway.next (midway : Midway before k w) (turned : Turned k s w w') :
    Midway before (k + 1) w' := by
  have waiting : ∀ j, k + 1 ≤ j → j < before.sparks.length →
      w'.g.sparks[j]?.map Spark.record = before.sparks[j]?.map Spark.record := by
    intro j after inside
    rw [turned.others (Nat.ne_of_gt after)]
    exact midway.waiting j (Nat.le_of_succ_le after) inside
  have ids := turned.ids.trans midway.ids
  cases turned with
  | idle _ _ same =>
      have board : w'.g.ward.now.board = w.g.ward.now.board := congrArg Aside.board same
      refine ⟨midway.live.of_aside same, ?_, ?_, ids, waiting⟩
      · rw [board]
        exact midway.sorted
      · rw [board]
        exact midway.fair
  | takes _ _ _ _ worked gone _ =>
      have same := gone.trans worked
      have board : w'.g.ward.now.board = _ := congrArg Aside.board same
      have isOpen : w'.g.ward.isOpen = w.g.ward.isOpen := congrArg Aside.isOpen same
      have created : w'.g.ward.now.created = w.g.ward.now.created := congrArg Aside.created same
      refine ⟨⟨isOpen.trans midway.live.isOpen, created.trans midway.live.created⟩, ?_, ?_, ids, waiting⟩
      · rw [board]
        exact sorted_updateContract (f := BoardRow.worked s.id _) (fun _ => rfl) midway.sorted
      · intro r mem
        rw [board] at mem
        obtain ⟨r', there, rfl⟩ := mem_updateContract.mp mem
        have fair := midway.fair r' there
        split
        · exact ⟨fair.pays, fair.risky⟩
        · exact fair

end Midway

/-! ### What a turn has to hear -/

/-- The Spark at place `i` chooses as they should: nothing is left, or neither the look at the board nor the
claim fails, and what is foremost by what they hear of the Tavern and the Chapel is foremost. -/
def ChoiceHeard (i : Nat) (w : World) : Prop :=
  openRows w.g.ward.now.board ≠ [] →
    w.plane.faults w.plane.tick = false ∧ w.plane.faults (w.plane.tick + 3) = false ∧
      ∀ s, w.g.sparks[i]? = some s → ∀ r,
        Foremost (BoardRow.worth (w.heardNerve s.wear)) r (openRows w.g.ward.now.board) →
          Foremost (BoardRow.worth (w.g.nerve s.wear)) r (openRows w.g.ward.now.board)

/-- The Spark at place `i` chooses as they should, and what they read of the place of their contract, as they
set out for it, is the place. -/
structure TurnHeard (i : Nat) (w : World) : Prop where
  choice : ChoiceHeard i w
  way : ∀ id w', turnOpening i w = (.ret (some id), w') →
    ∀ r ∈ w'.g.ward.now.board, r.id = id → w'.readsPlace r.place = r.place

/-- `k` Sparks have had their turn at a board of `n` contracts, and have taken `picks`. -/
structure Dealing (before decided : Gyre) (n k : Nat) (picks : List Nat) (w : World) : Prop
    extends Midway before k w where
  stands : ∀ i, w.g.stands i = decided.stands i
  many : w.g.ward.now.board.length = n
  turns : picks.length = min k n
  dealt : Dealt before decided w.g picks

section Dealing

variable {before decided g' : Gyre} {n k : Nat} {picks : List Nat} {w w' : World} {s : Spark}

theorem Dealt.of_same {g : Gyre} (dealt : Dealt before decided g picks)
    (board : g'.ward.now.board = g.ward.now.board)
    (sparks : ∀ j, j < before.sparks.length →
      g'.sparks[j]?.map Spark.record = g.sparks[j]?.map Spark.record) :
    Dealt before decided g' picks := by
  constructor
  · exact dealt.once
  · rw [board]
    exact dealt.listed
  · intro j s id there picked
    have ⟨r, named, took, gone⟩ := dealt.turn j s id there picked
    have place := congrArg (Option.map Record.place) (sparks j (List.getElem?_eq_some_iff.mp there).1)
    rw [Option.map_map, Option.map_map] at place
    rw [board]
    exact ⟨r, named, took, place.trans gone⟩
  · rw [board]
    exact dealt.untaken
  · rw [board]
    exact dealt.outcome
  · intro j after inside
    rw [sparks j inside]
    exact dealt.idle j after inside

/-- When nothing is left, everything has been taken. -/
theorem Dealing.all_taken (dealing : Dealing before decided n k picks w)
    (none : openRows w.g.ward.now.board = []) : n ≤ picks.length := by
  have all : w.g.ward.now.board.map (·.id) ⊆ picks := by
    intro id mem
    obtain ⟨r, there, rfl⟩ := List.mem_map.mp mem
    by_contra left
    have still := mem_openRows.mpr ⟨there, (dealing.dealt.untaken r there).mpr left⟩
    rw [none] at still
    exact absurd still List.not_mem_nil
  have count := ((nodup_ids dealing.sorted).subperm all).length_le
  rw [List.length_map, dealing.many] at count
  exact count

/-- As long as something is left, fewer have been taken than were posted. -/
theorem Dealing.some_left (dealing : Dealing before decided n k picks w) {r : BoardRow}
    (left : r ∈ openRows w.g.ward.now.board) : picks.length < n := by
  have ⟨there, free⟩ := mem_openRows.mp left
  have once : (r.id :: picks).Nodup :=
    List.nodup_cons.mpr ⟨(dealing.dealt.untaken r there).mp free, dealing.dealt.once⟩
  have listed : r.id :: picks ⊆ w.g.ward.now.board.map (·.id) := by
    intro id mem
    rcases List.mem_cons.mp mem with same | old
    · rw [same]
      exact List.mem_map_of_mem there
    · have ⟨r', there', named⟩ := dealing.dealt.listed id old
      rw [← named]
      exact List.mem_map_of_mem there'
  have count := (once.subperm listed).length_le
  rw [List.length_map, dealing.many, List.length_cons] at count
  exact count

/-- The nerve of the Spark whose turn it is, as the Queen's decision left the venues. -/
theorem Dealing.nerve (dealing : Dealing before decided n k picks w) (wear : Int) :
    w.g.nerve wear = decided.nerve wear := by
  unfold Gyre.nerve
  rw [dealing.stands, dealing.stands]

/-- A turn that hears what it has to deals the board one contract further, or finds nothing left. -/
theorem Dealing.next (dealing : Dealing before decided n k picks w) (fit : ∀ s ∈ before.sparks, s.Fit)
    (first : before.sparks[k]? = some s) (heard : TurnHeard k w) (turned : Turned k s w w') :
    ∃ picks', Dealing before decided n (k + 1) picks' w' := by
  have midway := dealing.toMidway.next turned
  have stands : ∀ i, w'.g.stands i = decided.stands i := fun i =>
    (turned.stands i).trans (dealing.stands i)
  cases turned with
  | idle reason _ same =>
      have none : openRows w.g.ward.now.board = [] := by
        by_contra left
        have ⟨looked, claimed, _⟩ := heard.choice left
        rcases reason with none | blind | refused
        · exact left none
        · exact Bool.false_ne_true (looked.symm.trans blind)
        · exact Bool.false_ne_true (claimed.symm.trans refused)
      have all := dealing.all_taken none
      have turns := dealing.turns
      have board : w'.g.ward.now.board = w.g.ward.now.board := congrArg Aside.board same
      refine ⟨picks, midway, stands, ?_, by omega, dealing.dealt.of_same board ?_⟩
      · rw [board]
        exact dealing.many
      · intro j _
        exact congrFun (congrArg Aside.others same) j
  | @takes r outcome w₁ foremost _ _ opened worked gone place =>
      have some_left := foremost.mem
      have inside := (List.getElem?_eq_some_iff.mp first).1
      have unmoved := dealing.waiting k (Nat.le_refl k) inside
      rw [first] at unmoved
      obtain ⟨s₁, here, record⟩ := Option.map_eq_some_iff.mp unmoved
      have worn : s₁.wear = s.wear := congrArg Record.wear record
      have ⟨_, _, choice⟩ := heard.choice (List.ne_nil_of_mem some_left)
      have best := choice s₁ here r (by rw [worn]; exact foremost)
      rw [worn, dealing.nerve] at best
      have left := dealing.some_left some_left
      have next : picks.length = k := by
        have turns := dealing.turns
        omega
      have same := gone.trans worked
      have board : w'.g.ward.now.board =
          updateContract r.id (BoardRow.worked s.id outcome) w.g.ward.now.board := congrArg Aside.board same
      have there : r.worked s.id outcome ∈ w₁.g.ward.now.board := by
        have board₁ : w₁.g.ward.now.board =
          updateContract r.id (BoardRow.worked s.id outcome) w.g.ward.now.board := congrArg Aside.board worked
        rw [board₁]
        exact mem_updateContract.mpr ⟨r, (mem_openRows.mp some_left).1, if_pos rfl⟩
      have arrives : w₁.readsPlace r.place = r.place := heard.way r.id w₁ opened (r.worked s.id outcome) there rfl
      have dealt : Dealt before decided w'.g (picks ++ [r.id]) := by
        apply dealing.dealt.next dealing.sorted (by rw [next]; exact first)
          (fit s (List.mem_of_getElem? first)).real best board
        · intro j other
          rw [next] at other
          have same' := congrFun (congrArg Aside.others same) j
          have apart : ¬ some k = some j := fun same => other (Option.some.inj same).symm
          simp only [World.aside, if_neg apart] at same'
          exact same'
        · rw [next, place, arrives]
      refine ⟨picks ++ [r.id], midway, stands, ?_, ?_, dealt⟩
      · rw [board, updateContract, List.length_map]
        exact dealing.many
      · rw [List.length_append, List.length_singleton, next]
        omega

end Dealing

end GyreWard
