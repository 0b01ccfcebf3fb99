/-
Module: GyreWard.Proofs.Posting
Purpose: The board as it is posted: as many fair contracts as there should be, in the order of their ids, and
  nobody has taken any.
Trusted boundary: none
Main exports: OnBoard, OnBoard.of_aside, wp_postBoard_onBoard
-/
import GyreWard.Proofs.Lives
import GyreWard.Proofs.Names
import GyreWard.Proofs.Turns

namespace GyreWard

open Lib
open Lib.Action (wp)

theorem sorted_updateContract {id : Nat} {f : BoardRow → BoardRow} (named : ∀ r, (f r).id = r.id)
    {rows : List BoardRow} (sorted : (rows.map (·.id)).Pairwise (· < ·)) :
    ((updateContract id f rows).map (·.id)).Pairwise (· < ·) := by
  have same : (updateContract id f rows).map (·.id) = rows.map (·.id) := by
    unfold updateContract
    rw [List.map_map]
    apply List.map_congr_left
    intro r _
    rw [Function.comp_apply]
    split
    · exact named r
    · rfl
  rw [same]
  exact sorted

/-- Nothing is different from `start` but the board, which has `k` contracts that nobody has taken. -/
structure OnBoard (start : World) (k : Nat) (w : World) : Prop where
  live : Live w
  same : { w.aside none with board := [] } = { start.aside none with board := [] }
  many : w.g.ward.now.board.length = k
  sorted : (w.g.ward.now.board.map (·.id)).Pairwise (· < ·)
  fair : ∀ r ∈ w.g.ward.now.board, r.Fair
  untaken : ∀ r ∈ w.g.ward.now.board, r.taken = -1 ∧ r.outcome = none

section OnBoard

variable {start w : World} {k : Nat}

theorem OnBoard.of_aside (posted : OnBoard start k w) {w' : World}
    (same : w'.aside none = w.aside none) : OnBoard start k w' := by
  have board : w'.g.ward.now.board = w.g.ward.now.board := congrArg Aside.board same
  refine ⟨posted.live.of_aside same, ?_, ?_, ?_, ?_, ?_⟩
  · rw [same]
    exact posted.same
  · rw [board]
    exact posted.many
  · rw [board]
    exact posted.sorted
  · rw [board]
    exact posted.fair
  · rw [board]
    exact posted.untaken

theorem wp_draw_below {n : UInt32} (positive : n ≠ 0) (w : World) :
    wp (draw n) (fun v w' => (0 ≤ v ∧ v < n.toNat) ∧ w'.aside none = w.aside none)
      (fun _ => True) w := by
  have range : wp (draw n) (fun v _ => 0 ≤ v ∧ v < n.toNat) (fun _ => True) w := by
    unfold draw
    rw [Action.wp_bind, Action.wp_read]
    cases drawn : rngBelow w.g.rng n with
    | none => trivial
    | some drawn' =>
        have below := UInt32.lt_iff_toNat_lt.mp (rngBelow_lt positive drawn)
        exact ⟨Int.natCast_nonneg _, by exact_mod_cast below⟩
  have discreet : Discreet none Int (draw n) := discreet_draw n
  exact Action.wp_mono (Action.wp_and range (discreet.leaves.wp w)) (fun _ _ both => both)
    fun _ _ => trivial

/-- A contract comes behind those that stand on the board. -/
theorem OnBoard.insert (posted : OnBoard start k w) (cycle : Int) (kind : Text) {payout risk : Int}
    (place : Place) (pays : 0 ≤ payout) (risky : risk ≤ 64) :
    wp (runWard (insertBoard cycle kind payout risk place)) (fun _ => OnBoard start (k + 1))
      (fun _ => True) w := by
  have live := posted.live
  apply wp_runWard trivial
  intro _ t effect
  rw [existing_some effect]
  refine ⟨⟨live.isOpen, live.created⟩, posted.same, ?_, ?_, ?_, ?_⟩
  · change (w.g.ward.now.board ++ [_]).length = k + 1
    rw [List.length_append, posted.many]
    rfl
  · change ((w.g.ward.now.board ++ [_]).map BoardRow.id).Pairwise (· < ·)
    rw [List.map_append, List.pairwise_append]
    refine ⟨posted.sorted, List.pairwise_singleton _ _, ?_⟩
    intro id old new last
    obtain ⟨r, mem, rfl⟩ := List.mem_map.mp old
    rw [List.mem_singleton.mp last]
    exact lt_nextRowid _ r mem
  · intro r mem
    rcases List.mem_append.mp mem with old | new
    · exact posted.fair r old
    · rw [List.mem_singleton.mp new]
      exact ⟨pays, risky⟩
  · intro r mem
    rcases List.mem_append.mp mem with old | new
    · exact posted.untaken r old
    · rw [List.mem_singleton.mp new]
      exact ⟨rfl, rfl⟩

/-- A contract that is given its wire name is the same contract. -/
theorem OnBoard.name (posted : OnBoard start k w) (id wire owner : Nat) :
    wp (runWard (updateContractWire id wire owner)) (fun _ => OnBoard start k) (fun _ => True) w := by
  apply wp_runWard trivial
  intro _ t effect
  have live := posted.live
  rw [unless_some effect]
  refine ⟨⟨live.isOpen, live.created⟩, posted.same, ?_, ?_, ?_, ?_⟩
  · change (updateContract id _ w.g.ward.now.board).length = k
    rw [updateContract, List.length_map]
    exact posted.many
  · exact sorted_updateContract (f := fun r => { r with wire := some wire, owner := some owner })
      (fun _ => rfl) posted.sorted
  · intro r mem
    obtain ⟨r', there, rfl⟩ := mem_updateContract.mp mem
    have fair := posted.fair r' there
    split
    · exact ⟨fair.pays, fair.risky⟩
    · exact fair
  · intro r mem
    obtain ⟨r', there, rfl⟩ := mem_updateContract.mp mem
    have untaken := posted.untaken r' there
    split
    · exact untaken
    · exact untaken

theorem wp_postContract_onBoard (posted : OnBoard start k w) (i : Nat) :
    wp (postContract i) (fun _ => OnBoard start (k + 1)) (fun _ => True) w := by
  unfold postContract
  rw [Action.wp_bind]
  apply Action.wp_mono (wp_draw_below (by decide) w) _ fun _ _ => trivial
  rintro kind w₁ ⟨_, same₁⟩
  rw [Action.wp_bind]
  apply Action.wp_mono (wp_draw_below (by decide) w₁) _ fun _ _ => trivial
  rintro risk w₂ ⟨⟨low, high⟩, same₂⟩
  rw [Action.wp_bind]
  apply Action.wp_mono (wp_draw_below (by decide) w₂) _ fun _ _ => trivial
  rintro extra w₃ ⟨⟨more, _⟩, same₃⟩
  dsimp only
  rw [Action.wp_bind]
  apply (discreet_asks (asks_built 3)).wp
  intro plaza w₄ same₄
  have posted₄ := posted.of_aside (same₄.trans (same₃.trans (same₂.trans same₁)))
  rw [Action.wp_bind, Action.wp_read, Action.wp_bind]
  have risky : 10 + risk ≤ 64 := by
    have top : risk < 55 := high
    omega
  have half : 0 ≤ (10 + risk).tdiv 2 := Int.tdiv_nonneg (by omega) (by decide)
  have pays : 0 ≤ if plaza = true
      then 18 + (10 + risk).tdiv 2 + extra + (18 + (10 + risk).tdiv 2 + extra).tdiv 4
      else 18 + (10 + risk).tdiv 2 + extra := by
    split
    · have quarter : 0 ≤ (18 + (10 + risk).tdiv 2 + extra).tdiv 4 :=
        Int.tdiv_nonneg (by omega) (by decide)
      omega
    · omega
  apply Action.wp_mono (posted₄.insert _ _ _ pays risky) _ fun _ _ => trivial
  intro _ w₅ posted₅
  rw [Action.wp_bind]
  apply wp_wireIdOrExit
  intro wire _
  exact posted₅.name _ _ _

/-- `post_board` that succeeds has posted six contracts, or nine when it hears of the rails. -/
theorem wp_postBoard_onBoard (w : World) :
    wp postBoard (fun _ => OnBoard w (boardSize + if w.hears 0 2 then 3 else 0)) (fun _ => True) w := by
  unfold postBoard
  apply Action.wp_bind_ret (built_hears w 2)
  dsimp only
  generalize boardSize + (if w.hears 0 2 then 3 else 0) = n
  rw [Action.wp_bind]
  apply wp_runWard trivial
  intro isOpen t cleared
  have created : w.g.ward.now.created = true := by
    unfold deleteBoard WardTables.existing at cleared
    split at cleared
    · assumption
    · cases cleared
  rw [existing_some cleared]
  have start : OnBoard w 0 (((w.after 1).after 1).setGyre (Gyre.setWard fun c =>
      { c with now := { (w.after 1).g.ward.now with board := [] } })) :=
    ⟨⟨isOpen, created⟩, rfl, rfl, List.Pairwise.nil, fun _ mem => absurd mem List.not_mem_nil,
      fun _ mem => absurd mem List.not_mem_nil⟩
  have posts := Action.wp_forEach (I := fun rest w' => ∃ k, k + rest.length = n ∧ OnBoard w k w')
    (E := fun _ => True) ⟨0, by rw [List.length_range, Nat.zero_add], start⟩ (by
      rintro i rest w' ⟨k, count, posted⟩
      apply Action.wp_mono (wp_postContract_onBoard posted i) _ fun _ _ => trivial
      intro _ w'' posted'
      rw [List.length_cons] at count
      exact ⟨k + 1, by omega, posted'⟩)
  apply Action.wp_mono posts _ fun _ _ => trivial
  rintro _ w' ⟨k, count, posted⟩
  rw [List.length_nil, Nat.add_zero] at count
  rw [← count]
  exact posted

end OnBoard

end GyreWard
