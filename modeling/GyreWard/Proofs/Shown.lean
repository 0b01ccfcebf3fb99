/-
Module: GyreWard.Proofs.Shown
Purpose: When the row of the `ward` table is what the ward is: until a player spends scrip, and again
  from the next cycle or founding on.
Trusted boundary: none
Main exports: Gyre.Shows, Command.Spends, Drawn, ward_row_is_the_ward_iff
-/
import GyreWard.Proofs.Books

namespace GyreWard

open Lib

/-- The `ward` table has one row, and it shows the ward as it is. -/
def Gyre.Shows (g : Gyre) : Prop :=
  ∃ r, g.ward.now.ward = [r] ∧ r.cycle = g.cycle ∧ r.treasury = g.treasury ∧ r.debt = g.debt ∧
    r.issued = g.issued ∧ r.retired = g.retired

/-- The command takes scrip out of the treasury by a player's hand: a commission there is no reason
to refuse, or a payment somebody can be given. -/
def Command.Spends (g : Gyre) : Command → Prop
  | .commission venue => ∃ v, Buildable g (venue.getD (-1)) v
  | .pay who amount =>
      (findSpark (who.getD (-1)) g.sparks).isSome = true ∧ 0 < amount.getD 0 ∧
        amount.getD 0 ≤ g.treasury
  | _ => False

/-- The command brings the row up to date: it runs cycles, or founds the ward again. -/
def Command.Updates : Command → Prop
  | .cycle _ => True
  | .restart => True
  | _ => False

/-- The worlds of an undisturbed service, with whether a player has spent scrip since the ward's last
cycle or founding. -/
inductive Drawn : Bool → World → Prop where
  | founded {nsparks : Nat} {seed : UInt64} {w w' : World}
      (quiet : ∀ k, w.plane.faults k = false) (founds : Founds nsparks seed w w') : Drawn false w'
  | updated {drawn : Bool} {line : Text} {answer : Answer} {w w' : World} (before : Drawn drawn w)
      (serves : Serves line answer w w') (fine : ¬ answer.Failed)
      (updates : (commandOf line).Updates) : Drawn false w'
  | spent {drawn : Bool} {line : Text} {answer : Answer} {w w' : World} (before : Drawn drawn w)
      (serves : Serves line answer w w') (fine : ¬ answer.Failed)
      (spends : (commandOf line).Spends w.g) : Drawn true w'
  | other {drawn : Bool} {line : Text} {answer : Answer} {w w' : World} (before : Drawn drawn w)
      (serves : Serves line answer w w') (fine : ¬ answer.Failed)
      (steady : ¬ (commandOf line).Updates) (spares : ¬ (commandOf line).Spends w.g) :
      Drawn drawn w'

theorem Drawn.undisturbed {drawn : Bool} {w : World} (run : Drawn drawn w) : Undisturbed w := by
  induction run with
  | founded quiet founds => exact .founded quiet founds
  | updated _ serves fine _ before => exact .served before serves fine
  | spent _ serves fine _ before => exact .served before serves fine
  | other _ serves fine _ _ before => exact .served before serves fine

/-- Every undisturbed service is one of these runs. -/
theorem Undisturbed.drawn {w : World} (undisturbed : Undisturbed w) :
    ∃ drawn, Drawn drawn w := by
  induction undisturbed with
  | founded quiet founds => exact ⟨false, .founded quiet founds⟩
  | @served line _ w _ _ serves fine before =>
      obtain ⟨drawn, before⟩ := before
      by_cases updates : (commandOf line).Updates
      · exact ⟨false, .updated before serves fine updates⟩
      · by_cases spends : (commandOf line).Spends w.g
        · exact ⟨true, .spent before serves fine spends⟩
        · exact ⟨drawn, .other before serves fine updates spends⟩

/-! ### What the book shows -/

/-- The book shows itself, but for a treasury that has been drawn on when `drawn`. -/
structure Till.Displays (drawn : Bool) (b : Till) : Prop where
  row : ∃ f, b.shown = [f] ∧ f.cycle = b.cycle ∧ f.debt = b.debt ∧ f.issued = b.issued ∧
    f.retired = b.retired ∧ if drawn then b.treasury < f.treasury else f.treasury = b.treasury

/-- There is one row, however the book moves. -/
theorem Till.Steps.one_row {b b' : Till} (steps : Till.Steps b b') :
    b'.shown.length = b.shown.length := by
  induction steps with
  | refl => rfl
  | tail _ step ih =>
      rw [← ih]
      cases step with
      | clock =>
          unfold Till.clock
          split <;> rfl
      | publish => exact List.length_map _
      | _ => rfl

/-- Whatever is published is displayed. -/
theorem Till.Displays.of_published {b : Till} (one : b.shown.length = 1)
    (published : b.Published) : b.Displays false := by
  obtain ⟨f, row⟩ := List.length_eq_one_iff.mp one
  have same := published f (row ▸ List.mem_singleton_self f)
  exact ⟨f, row, by rw [same]; exact ⟨rfl, rfl, rfl, rfl, rfl⟩⟩

theorem Till.Displays.one {drawn : Bool} {b : Till} (displays : b.Displays drawn) :
    b.shown.length = 1 := by
  obtain ⟨f, row, -⟩ := displays.row
  rw [row]
  rfl

/-- Scrip that a player spends shows as a treasury that is too large. -/
theorem Till.Displays.spend {drawn : Bool} {b b' : Till} (displays : b.Displays drawn)
    {amount : Int} (some : 0 < amount) (shown : b'.shown = b.shown)
    (treasury : b'.treasury = b.treasury - amount) (cycle : b'.cycle = b.cycle)
    (debt : b'.debt = b.debt) (issued : b'.issued = b.issued)
    (retired : b'.retired = b.retired) : b'.Displays true := by
  obtain ⟨f, row, cycle', debt', issued', retired', money⟩ := displays.row
  refine ⟨f, shown.trans row, cycle'.trans cycle.symm, debt'.trans debt.symm,
    issued'.trans issued.symm, retired'.trans retired.symm, ?_⟩
  rw [if_pos rfl, treasury]
  cases drawn with
  | true =>
      rw [if_pos rfl] at money
      omega
  | false =>
      rw [if_neg Bool.false_ne_true] at money
      omega

/-- A command that spends, in the book. -/
theorem Turn.spends {drawn : Bool} {w : World} {b' : Till} {c : Command}
    (keeping : Keeping w.g.till w) (standing : w.g.till.standing = true)
    (turn : Turn w.g w.g.till c b') (displays : w.g.till.Displays drawn) (spends : c.Spends w.g) :
    b'.Displays true := by
  cases turn with
  | built can =>
      exact displays.spend (cost_pos can.listed) rfl rfl rfl rfl rfl rfl
  | @unbuilt venue cannot =>
      obtain ⟨v, may⟩ := spends
      exact absurd ((canBuild_iff keeping standing _ v).mpr may) (cannot v)
  | paid there found something reached =>
      exact displays.spend something rfl rfl rfl rfl rfl rfl
  | unpaid cannot =>
      obtain ⟨found, something, reached⟩ := spends
      rcases cannot with none | nothing | short
      · rw [none] at found
        cases found
      · exact absurd something (Int.not_lt.mpr nothing)
      · exact absurd short (Int.not_lt.mpr reached)
  | _ => exact spends.elim

/-- A command that neither spends nor brings the row up to date leaves the book as it was. -/
theorem Turn.spares {w : World} {b' : Till} {c : Command} (keeping : Keeping w.g.till w)
    (standing : w.g.till.standing = true) (turn : Turn w.g w.g.till c b')
    (steady : ¬ c.Updates) (spares : ¬ c.Spends w.g) : b' = w.g.till := by
  cases turn with
  | cycle steps published => exact absurd trivial steady
  | built can => exact absurd ⟨_, (canBuild_iff keeping standing _ _).mp can⟩ spares
  | paid there found something reached =>
      exact absurd ⟨by rw [found]; rfl, something, reached⟩ spares
  | restart => exact absurd trivial steady
  | _ => rfl

theorem Till.displays_fresh (n : Nat) : (Till.fresh n).Displays false :=
  ⟨_, rfl, rfl, rfl, rfl, rfl, rfl⟩

/-- A command that brings the row up to date, in the book. -/
theorem Turn.updates {g : Gyre} {b b' : Till} {c : Command} (turn : Turn g b c b')
    (one : b.shown.length = 1) (updates : c.Updates) : b'.Displays false := by
  cases turn with
  | cycle steps published => exact .of_published (steps.one_row.trans one) published
  | restart => exact Till.displays_fresh _
  | _ => exact updates.elim

/-- In every run the book displays itself, but for what players have spent since the last cycle. -/
theorem Drawn.displays {drawn : Bool} {w : World} (run : Drawn drawn w) :
    w.g.till.Displays drawn := by
  induction run with
  | @founded n seed w w' quiet founds =>
      have keeping := Action.wp_ret (wp_foundWard_book quiet founds.zeroed n seed) founds.founded
      rw [keeping.till]
      exact Till.displays_fresh n
  | updated before serves fine updates displays =>
      have undisturbed := before.undisturbed
      obtain ⟨turn, -⟩ := undisturbed.kept.serves undisturbed.reached.sound serves fine
      exact turn.updates displays.one updates
  | spent before serves fine spends displays =>
      have undisturbed := before.undisturbed
      obtain ⟨turn, -⟩ := undisturbed.kept.serves undisturbed.reached.sound serves fine
      exact turn.spends undisturbed.kept.keeping undisturbed.kept.standing displays spends
  | other before serves fine steady spares displays =>
      have undisturbed := before.undisturbed
      obtain ⟨turn, -⟩ := undisturbed.kept.serves undisturbed.reached.sound serves fine
      rw [turn.spares undisturbed.kept.keeping undisturbed.kept.standing steady spares]
      exact displays

theorem Till.Displays.shows {drawn : Bool} {g : Gyre} (displays : g.till.Displays drawn) :
    g.Shows ↔ drawn = false := by
  obtain ⟨f, row, cycle, debt, issued, retired, money⟩ := displays.row
  obtain ⟨r, one, rfl⟩ := List.map_eq_singleton_iff.mp row
  cases drawn with
  | true =>
      refine iff_of_false (fun shows => ?_) nofun
      obtain ⟨r', one', -, treasury, -⟩ := shows
      obtain rfl : r = r' := List.singleton_inj.mp (one.symm.trans one')
      have short : g.treasury < r.treasury := money
      omega
  | false => exact iff_of_true ⟨r, one, cycle, money, debt, issued, retired⟩ rfl

/-- The row of the `ward` table is what the ward is exactly when no player has spent scrip since the
ward's last cycle or founding. -/
theorem ward_row_is_the_ward_iff (drawn : Bool) (w : World) (run : Drawn drawn w) :
    w.g.Shows ↔ drawn = false :=
  run.displays.shows

/-- The row of a ward that has run a cycle is what the ward is. -/
theorem cycled_ward_shows_itself : cycledWard.g.Shows := by
  have founded : (foundWard liveName 2 7 0 (World.fresh fun _ => false)).1 = .ret () := by
    decide +kernel
  have well : ((World.founded 2 7 fun _ => false).answer (text "cycle")).1.map
      (decide ·.Failed) = some false := by
    decide +kernel
  have updates : (commandOf (text "cycle")).Updates := by
    have ran : commandOf (text "cycle") = .cycle none := by decide +kernel
    rw [ran]
    trivial
  obtain ⟨drawn, before⟩ := (undisturbed_founded founded).drawn
  obtain ⟨answer, answered, fine⟩ := Option.map_eq_some_iff.mp well
  have run : Drawn false cycledWard :=
    .updated before (serves_answer answered) (of_decide_eq_false fine) updates
  exact (ward_row_is_the_ward_iff false cycledWard run).mpr rfl

/-- A ward without Sparks that has commissioned its first venue before its first cycle. -/
def commissionedWard : World :=
  ((World.founded 0 1 fun _ => false).answer (text "commission 0")).2

/-- A commission takes 120 out of the treasury, and the row of the `ward` table does not say so. -/
theorem commission_leaves_the_row :
    Undisturbed commissionedWard ∧ commissionedWard.g.treasury = 180 ∧
      commissionedWard.g.ward.now.ward.map (·.treasury) = [300] ∧ ¬ commissionedWard.g.Shows := by
  have founded : Undisturbed (World.founded 0 1 fun _ => false) :=
    undisturbed_founded (by decide +kernel)
  have well : ((World.founded 0 1 fun _ => false).answer (text "commission 0")).1.map
      (decide ·.Failed) = some false := by
    decide +kernel
  have treasury : commissionedWard.g.treasury = 180 := by decide +kernel
  have row : commissionedWard.g.ward.now.ward.map (·.treasury) = [300] := by decide +kernel
  refine ⟨founded.answer well, treasury, row, fun shows => ?_⟩
  obtain ⟨r, one, -, same, -⟩ := shows
  rw [one, List.map_singleton, same, treasury] at row
  exact absurd (List.singleton_inj.mp row) (by decide)

end GyreWard
