/-
Module: GyreWard.Proofs.Served
Purpose: Every command of an undisturbed service moves the account book of its ward by the book's
  own moves, or founds it again.
Trusted boundary: none
Main exports: wp_cycle_book, wp_foundWard_book, wp_command_book, Undisturbed.kept
-/
import GyreWard.Model.Service
import GyreWard.Proofs.AccountBook
import GyreWard.Proofs.Outside
import GyreWard.Proofs.Payment

namespace GyreWard

open Lib
open Lib.Action (MadeOf Leaves wp)

/-! ### A cycle -/

theorem unbooked_weftTxnBegin : Unbooked Nat weftTxnBegin := by
  have opened : Unbooked Nat (do
      fallible
      Action.modify <| World.setPlane fun p =>
        { p with
          locked := true, isOpen := true, txn := p.lastTxn + 1, parts := []
          lastTxn := p.lastTxn + 1 }
      let txn ← Action.read (·.plane.txn)
      observe (.began txn)
      pure txn) :=
    .bind unbooked_fallible fun _ => .bind (unbooked_setPlane fun _ => rfl) fun _ =>
      .bind (.read _) fun _ => .bind (unbooked_setPlane fun _ => rfl) fun _ => .pure _
  exact .bind (.read _) fun _ => .ite (fun _ => .bind .halt fun _ => opened) fun _ => opened

theorem unbooked_groupBegin : Unbooked Unit groupBegin :=
  .bind (.move fun _ => rfl) fun _ => .bind unbooked_weftTxnBegin fun _ =>
    .bind (.move fun _ => rfl) fun _ => unbooked_groupJoin .ward

theorem unbooked_weftTxnCommit (txn : Nat) : Unbooked Unit (weftTxnCommit txn) := by
  refine .bind (unbooked_setPlane fun _ => rfl) fun _ => .bind (.read _) fun p => ?_
  refine .ite (fun _ => .fail) fun _ => .bind (.attempt unbooked_fallible) fun recorded => ?_
  refine .bind (unbooked_setPlane fun _ => rfl) fun _ => ?_
  cases recorded with
  | some _ => exact .pure _
  | none => exact .fail

section Cycle

variable {b : Till} {w : World}

/-- A group that lands leaves the book as it was. -/
theorem wp_groupCommit_book (keeping : Keeping b w) {Q : Unit → World → Prop}
    (landed : ∀ w', Keeping b w' → Q () w') : wp groupCommit Q (fun _ => True) w := by
  unfold groupCommit
  rw [Action.wp_bind, Action.wp_read, Action.wp_bind]
  apply Action.wp_onFail_any
  have committed : Unbooked Unit (Action.forEach w.grp.dbs sqlCommit) :=
    .forEach fun h _ => unbooked_sqlCommit h
  exact committed.wp keeping fun _ w₁ keeping₁ =>
    (unbooked_weftTxnCommit _).wp keeping₁ fun _ w₂ keeping₂ => landed w₂ keeping₂

theorem leaves_faults_joinWard (id : Int) :
    Leaves (fun w : World => w.plane.faults) (joinWard id) :=
  (contained_joinWard id).leaves.comp Outside.faults

/-- Somebody arrives in the book, too. -/
theorem wp_joinWard_book (keeping : Keeping b w) (id : Int) :
    wp (joinWard id) (fun _ => Keeping (b.arrive id)) (fun _ => True) w := by
  have both := Action.wp_and (wp_joinWard id w) ((leaves_faults_joinWard id).wp w)
  refine Action.wp_mono both (fun _ w' joined => ?_) fun _ _ => trivial
  obtain ⟨⟨-, seated⟩, faults⟩ := joined
  refine ⟨fun k => ?_, ?_⟩
  · rw [faults]
    exact keeping.quiet k
  · rw [seated, ← keeping.till]
    simp only [Gyre.till, Gyre.withSpark, List.map_append, List.map_singleton, Till.arrive]
    rfl

/-- The end of a cycle: the group lands, and somebody may arrive. -/
theorem wp_cycleEnd_book (keeping : Keeping b w) (published : b.Published) (arriving : Bool) :
    wp (do
        groupCommit
        if arriving then
          let g ← Action.read (·.g)
          joinWard (g.wardNo * sparksPerWard + g.nsparks))
      (fun _ w' => ∃ b', Till.Steps b b' ∧ b'.Published ∧ Keeping b' w') (fun _ => True) w := by
  rw [Action.wp_bind]
  apply wp_groupCommit_book keeping
  intro w₁ keeping₁
  apply Action.wp_ite
  · intro _
    rw [Action.wp_bind, Action.wp_read]
    apply Action.wp_mono (wp_joinWard_book keeping₁ _) _ fun _ _ => trivial
    intro _ w₂ keeping₂
    have next : w₁.g.wardNo * (sparksPerWard : Nat) + w₁.g.nsparks = b.nextId := by
      rw [← keeping₁.till]
      simp [Till.nextId, Gyre.till, Gyre.nsparks]
    rw [next] at keeping₂
    exact ⟨_, .single .arrive, published, keeping₂⟩
  · intro _
    exact ⟨b, .refl, published, keeping₁⟩

/-- What a cycle does to the book: it is counted, it moves, and the ward shows what it is. -/
theorem wp_cycle_counted (keeping : Keeping b w) (balanced : b.Balanced)
    (standing : b.standing = true) :
    wp cycle (fun _ w' => ∃ b', Till.Steps b.count b' ∧ b'.Published ∧ Keeping b' w')
      (fun _ => True) w := by
  have counted : Keeping b.count (w.setGyre fun g => { g with cycle := g.cycle + 1 }) := by
    refine ⟨keeping.quiet, ?_⟩
    rw [← keeping.till]
    rfl
  have first : Till.Steps b b.count := .single .count
  unfold cycle
  rw [Action.wp_bind]
  change wp _ _ _ (w.setGyre fun g => { g with cycle := g.cycle + 1 })
  rw [Action.wp_bind]
  refine unbooked_groupBegin.wp counted fun _ w₁ keeping₁ => ?_
  rw [Action.wp_bind]
  apply Action.wp_onFail_any
  apply Action.wp_mono
    (wp_cycleWrites_book keeping₁ (first.balanced balanced) standing) _ fun _ _ => trivial
  intro arriving w₂ written
  have ⟨b₂, steps₂, published₂, keeping₂⟩ := written
  apply Action.wp_mono (wp_cycleEnd_book keeping₂ published₂ arriving) _ fun _ _ => trivial
  intro _ w₃ ended
  have ⟨b₃, steps₃, published₃, keeping₃⟩ := ended
  exact ⟨b₃, steps₂.trans steps₃, published₃, keeping₃⟩

theorem wp_cycle_book (keeping : Keeping b w) (balanced : b.Balanced)
    (standing : b.standing = true) :
    wp cycle (fun _ w' => ∃ b', Till.Steps b b' ∧ b'.Published ∧ Keeping b' w')
      (fun _ => True) w := by
  apply Action.wp_mono (wp_cycle_counted keeping balanced standing) _ fun _ _ => trivial
  intro _ w' cycled
  have ⟨b', steps, published, keeping'⟩ := cycled
  exact ⟨b', .head .count steps, published, keeping'⟩

end Cycle

/-! ### Commands -/

/-- What a command does to the book `b` of the ward `g`. -/
inductive Turn (g : Gyre) (b : Till) : Command → Till → Prop where
  | look : Turn g b .look b
  | cycle {n : Option Int} {b' : Till} (steps : Till.Steps b b') (published : b'.Published) :
      Turn g b (.cycle n) b'
  | built {venue : Option Int} {v : Venue} (can : b.CanBuild (venue.getD (-1)) v) :
      Turn g b (.commission venue) (b.build (venue.getD (-1)) v.cost)
  | unbuilt {venue : Option Int} (cannot : ∀ v, ¬ b.CanBuild (venue.getD (-1)) v) :
      Turn g b (.commission venue) b
  | paid {who amount : Option Int} {i : Nat} {p : Purse} (there : b.purses[i]? = some p)
      (found : findSpark (who.getD (-1)) g.sparks = some i) (something : 0 < amount.getD 0)
      (reached : amount.getD 0 ≤ b.treasury) :
      Turn g b (.pay who amount) (b.pay i (amount.getD 0) 0)
  | unpaid {who amount : Option Int}
      (cannot : findSpark (who.getD (-1)) g.sparks = none ∨ amount.getD 0 ≤ 0 ∨
        b.treasury < amount.getD 0) : Turn g b (.pay who amount) b
  | restart {n : Nat} : Turn g b .restart (Till.fresh n)
  | quit : Turn g b .quit b
  | unknown : Turn g b .unknown b

/-- `/pay` finds somebody who is there. -/
theorem findSpark_lt {who : Int} {sparks : List Spark} {i : Nat}
    (found : findSpark who sparks = some i) : i < sparks.length := by
  have known : ∀ j, findSpark who sparks = some j → j < sparks.length := by
    unfold findSpark
    apply List.foldlRecOn (motive := fun found : Option Nat =>
      ∀ j, found = some j → j < sparks.length)
    · exact nofun
    · intro found before p mem j chosen
      dsimp only at chosen
      split at chosen
      · obtain rfl := Option.some.inj chosen
        exact (List.mem_zipIdx' mem).1
      · exact before j chosen
  exact known i found

/-- The book after a command that reported no failure is where its turn takes it. -/
def Answered (g : Gyre) (b : Till) (c : Command) (a : Answer) (w : World) : Prop :=
  ¬ a.Failed → ∃ b', Turn g b c b' ∧ Keeping b' w

section Commands

variable {b : Till} {w : World}

/-- The loop of `/cycle`, unless it stops in the middle of a cycle. -/
theorem wp_cycleLoop_book (balanced : b.Balanced) (standing : b.standing = true) :
    ∀ (n : Nat) {b' : Till} {w : World}, Till.Steps b b' → (0 < n ∨ b'.Published) → Keeping b' w →
      wp (cycleLoop n)
        (fun why w' => why ≠ some (text "the ward stopped mid-cycle") →
          ∃ b'', Till.Steps b b'' ∧ b''.Published ∧ Keeping b'' w')
        (fun _ => True) w
  | 0, b', w, steps, shown, keeping => by
      intro _
      rcases shown with more | published
      · exact absurd more (Nat.lt_irrefl 0)
      · exact ⟨b', steps, published, keeping⟩
  | n + 1, b', w, steps, _, keeping => by
      unfold cycleLoop
      rw [Action.wp_bind, Action.wp_attempt]
      refine Action.wp_mono (wp_cycle_book keeping (steps.balanced balanced)
        (steps.standing.trans standing)) (fun _ w₁ cycled => ?_) fun _ _ => ?_
      · obtain ⟨b₁, more, published, keeping₁⟩ := cycled
        have steps₁ := steps.trans more
        dsimp only
        rw [Action.wp_bind]
        have asked : Leaves World.seen honest := asks_honest.leaves _ fun _ _ => rfl
        refine Action.wp_mono (asked.wp w₁) (fun honest w₂ same => ?_) fun _ _ => trivial
        have keeping₂ := keeping₁.of_seen same
        refine Action.wp_ite (fun _ => ?_) fun _ => ?_
        · exact wp_cycleLoop_book balanced standing n steps₁ (Or.inr published) keeping₂
        · exact fun _ => ⟨b₁, steps₁, published, keeping₂⟩
      · exact fun going => absurd rfl going

theorem wp_runCycle_book (keeping : Keeping b w) (balanced : b.Balanced)
    (standing : b.standing = true) (n : Option Int) :
    wp (runCycle n) (fun a w' => Answered w.g b (.cycle n) a w') (fun _ => True) w := by
  have ran : 0 < cycleCount n := by
    unfold cycleCount
    dsimp only
    split <;> split <;> omega
  unfold runCycle
  rw [Action.wp_bind]
  refine Action.wp_mono (wp_cycleLoop_book balanced standing (cycleCount n) .refl (Or.inl ran)
    keeping) (fun why w' looped => ?_) fun _ _ => trivial
  cases why with
  | none =>
      intro _
      obtain ⟨b', steps, published, keeping'⟩ := looped nofun
      exact ⟨b', .cycle steps published, keeping'⟩
  | some why =>
      intro fine
      have going : some why ≠ some (text "the ward stopped mid-cycle") := fun same =>
        fine (Or.inl (Option.some.inj same))
      obtain ⟨b', steps, published, keeping'⟩ := looped going
      exact ⟨b', .cycle steps published, keeping'⟩

theorem wp_runCommission_book (keeping : Keeping b w) (standing : b.standing = true)
    (venue : Option Int) :
    wp (runCommission venue) (fun a w' => Answered w.g b (.commission venue) a w')
      (fun _ => True) w := by
  unfold runCommission
  rw [Action.wp_bind, Action.wp_attempt]
  refine Action.wp_mono (wp_buildVenue_book keeping standing _) (fun _ w' built => ?_)
    fun w' refused => ?_
  · obtain ⟨v, can, keeping'⟩ := built
    exact fun _ => ⟨_, .built can, keeping'⟩
  · exact fun _ => ⟨b, .unbuilt refused.1, refused.2⟩

/-- A plane that fails nothing gives a payment by hand nothing to be refused for. -/
theorem wp_payAlone_lands (quiet : Quiet w) (sound : Sound w.g) {i : Nat}
    (here : i < w.g.sparks.length) (amount : Int) :
    wp (payAlone i amount none) (fun _ _ => True) (fun _ => False) w := by
  obtain ⟨s, r, ready⟩ := sound.payReady here
  refine Action.wp_mono (payAlone_outcome amount ready) (fun _ _ _ => trivial) fun w' left => ?_
  obtain ⟨k, word⟩ := LeftBy.fault amount left
  rw [quiet] at word
  cases word

/-- A payment by hand moves the book, over a ward that is sound. -/
theorem wp_payAlone_book (keeping : Keeping b w) (sound : Sound w.g) {i : Nat}
    (here : i < w.g.sparks.length) (amount : Int) :
    wp (payAlone i amount none)
      (fun _ w' => (∃ p, b.purses[i]? = some p) ∧ Keeping (b.pay i amount 0) w')
      (fun _ => False) w := by
  have moved : wp (payAlone i amount none)
      (fun _ w' => (∃ p, b.purses[i]? = some p) ∧ Keeping (b.pay i amount 0) w')
      (fun _ => True) w := by
    unfold payAlone
    rw [Action.wp_bind]
    refine unbooked_groupBegin.wp keeping fun _ w₁ keeping₁ => ?_
    rw [Action.wp_bind]
    refine Action.wp_onFail_any (Action.wp_mono (wp_pay_book keeping₁ i amount none)
      (fun _ w₂ paid => ?_) fun _ _ => trivial)
    exact Action.wp_onFail_any (wp_groupCommit_book paid.2 fun w₃ keeping₃ => ⟨paid.1, keeping₃⟩)
  refine Action.wp_mono (Action.wp_and moved (wp_payAlone_lands keeping.quiet sound here amount))
    (fun _ _ both => both.1) fun _ both => both.2

theorem wp_runPay_book (keeping : Keeping b w) (sound : Sound w.g) (who amount : Option Int) :
    wp (runPay who amount) (fun a w' => Answered w.g b (.pay who amount) a w')
      (fun _ => True) w := by
  have treasury : w.g.treasury = b.treasury := congrArg Till.treasury keeping.till
  unfold runPay
  rw [Action.wp_bind, Action.wp_read]
  cases found : findSpark (who.getD (-1)) w.g.sparks with
  | none => exact fun _ => ⟨b, .unpaid (Or.inl found), keeping⟩
  | some i =>
      refine Action.wp_ite (fun cannot => ?_) fun can => ?_
      · rw [treasury] at cannot
        exact fun _ => ⟨b, .unpaid (Or.inr cannot), keeping⟩
      · rw [treasury, not_or] at can
        have here : i < w.g.sparks.length := findSpark_lt found
        rw [Action.wp_bind, Action.wp_attempt]
        refine Action.wp_mono (wp_payAlone_book keeping sound here _) (fun _ w' paid => ?_)
          fun _ impossible => impossible.elim
        obtain ⟨⟨p, there⟩, keeping'⟩ := paid
        exact fun _ => ⟨_, .paid there found (Int.not_le.mp can.1) (Int.not_lt.mp can.2), keeping'⟩

end Commands

/-! ### Founding -/

theorem till_withSparks (ids : List Int) (g : Gyre) :
    (g.withSparks ids).till =
      { g.till with
        purses := g.till.purses ++
          ids.map fun id => { id, purse := 0, rows := [(id, 0)], held := 0 } } := by
  induction ids generalizing g with
  | nil => simp [Gyre.withSparks]
  | cons id rest ih =>
      have seated : (g.withSpark id).till = g.till.arrive id := by
        simp only [Gyre.till, Gyre.withSpark, List.map_append, List.map_singleton, Till.arrive]
        rfl
      change ((g.withSpark id).withSparks rest).till = _
      rw [ih, seated]
      simp [Till.arrive]

/-- The book of a ward that has just been founded. -/
theorem till_founded (n : Nat) (seed : UInt64) :
    ((Gyre.zero.foundedAs liveName seed 0).withSparks
      ((List.range n).map fun (i : Nat) => 0 + (i : Int))).till = Till.fresh n := by
  have opened : (Gyre.zero.foundedAs liveName seed 0).till = Till.fresh 0 := rfl
  rw [till_withSparks, opened]
  simp only [Till.fresh, List.range_zero, List.map_nil, List.nil_append, List.map_map,
    Function.comp_def, zero_add]

theorem leaves_faults_foundWard (dbPrefix : Text) (n : Nat) (seed : UInt64) (base : Int) :
    Leaves (fun w : World => w.plane.faults) (foundWard dbPrefix n seed base) :=
  (contained_foundWard dbPrefix n seed base).leaves.comp Outside.faults

theorem wp_foundWard_book {w : World} (quiet : Quiet w) (zeroed : w.g = Gyre.zero) (n : Nat)
    (seed : UInt64) :
    wp (foundWard liveName n seed 0) (fun _ => Keeping (Till.fresh n)) (fun _ => True) w := by
  have both := Action.wp_and (wp_foundWard liveName n seed 0 w)
    ((leaves_faults_foundWard liveName n seed 0).wp w)
  refine Action.wp_mono both (fun _ w' founded => ?_) fun _ _ => trivial
  refine ⟨fun k => ?_, ?_⟩
  · rw [founded.2]
    exact quiet k
  · rw [founded.1, zeroed]
    exact till_founded n seed

theorem wp_runRestart_book {b : Till} {w : World} (keeping : Keeping b w) :
    wp runRestart (fun a w' => Answered w.g b .restart a w') (fun _ => True) w := by
  unfold runRestart
  rw [Action.wp_bind, Action.wp_read, Action.wp_bind]
  change wp _ _ _ (w.setGyre _)
  rw [Action.wp_bind]
  change wp _ _ _ ((w.setGyre _).setGyre fun _ => Gyre.zero)
  rw [Action.wp_bind, Action.wp_attempt]
  have founded := wp_foundWard_book (w := (w.setGyre fun g =>
    { g with
      ward := { g.ward with isOpen := false }
      sparks := g.sparks.map fun s => { s with db := { s.db with isOpen := false } } }).setGyre
        fun _ => Gyre.zero) keeping.quiet rfl w.g.sparks.length w.g.seed
  refine Action.wp_mono founded (fun _ w' keeping' => ?_) fun w' _ => ?_
  · exact fun _ => ⟨_, .restart, keeping'⟩
  · exact fun fine => absurd (Or.inr rfl) fine

/-! ### Runs -/

/-- Every command turns the book. -/
theorem wp_command_book {b : Till} {w : World} (keeping : Keeping b w) (balanced : b.Balanced)
    (standing : b.standing = true) (sound : Sound w.g) (c : Command) :
    wp c.run (fun a w' => Answered w.g b c a w') (fun _ => True) w := by
  cases c with
  | look => exact fun _ => ⟨b, .look, keeping⟩
  | cycle n => exact wp_runCycle_book keeping balanced standing n
  | commission venue => exact wp_runCommission_book keeping standing venue
  | pay who amount => exact wp_runPay_book keeping sound who amount
  | restart => exact wp_runRestart_book keeping
  | quit => exact fun _ => ⟨b, .quit, keeping⟩
  | unknown => exact fun _ => ⟨b, .unknown, keeping⟩

theorem Turn.balanced {g : Gyre} {b b' : Till} {c : Command} (turn : Turn g b c b')
    (balanced : b.Balanced) : b'.Balanced := by
  cases turn with
  | look => exact balanced
  | cycle steps _ => exact steps.balanced balanced
  | built can => exact (Till.Step.build can).balanced balanced
  | unbuilt _ => exact balanced
  | paid there _ something reached =>
      exact (Till.Step.pay there something reached).balanced balanced
  | unpaid _ => exact balanced
  | restart => exact Till.balanced_fresh _
  | quit => exact balanced
  | unknown => exact balanced

theorem Turn.standing {g : Gyre} {b b' : Till} {c : Command} (turn : Turn g b c b')
    (standing : b.standing = true) : b'.standing = true := by
  cases turn with
  | cycle steps _ => exact steps.standing.trans standing
  | restart => rfl
  | _ => exact standing

theorem Undisturbed.reached {w : World} (undisturbed : Undisturbed w) : Reached w := by
  induction undisturbed with
  | founded _ founds => exact .founded founds
  | served _ serves _ reached => exact .served reached serves

/-- A world in which the ward keeps a balanced book over a plane that fails nothing. -/
structure Kept (w : World) : Prop where
  keeping : Keeping w.g.till w
  balanced : w.g.till.Balanced
  standing : w.g.till.standing = true

/-- One command answered, in the book. -/
theorem Kept.serves {line : Text} {answer : Answer} {w w' : World} (kept : Kept w)
    (sound : Sound w.g) (serves : Serves line answer w w') (fine : ¬ answer.Failed) :
    Turn w.g w.g.till (commandOf line) w'.g.till ∧ Quiet w' := by
  obtain ⟨c, c', middle, ran, replied⟩ := serves.served
  have answered := Action.wp_ret
    (wp_command_book kept.keeping kept.balanced kept.standing sound (commandOf line)) ran
  obtain ⟨b', turn, keeping⟩ := answered fine
  obtain ⟨n, after⟩ := asks_wardReply answer c middle
  rw [replied] at after
  obtain rfl : w' = middle.after n := after
  refine ⟨?_, keeping.quiet⟩
  rw [show (middle.after n).g.till = b' from keeping.till]
  exact turn

/-- In every world of an undisturbed service the ward keeps a balanced book. -/
theorem Undisturbed.kept {w : World} (undisturbed : Undisturbed w) : Kept w := by
  induction undisturbed with
  | @founded n seed w w' quiet founds =>
      have keeping := Action.wp_ret (wp_foundWard_book quiet founds.zeroed n seed) founds.founded
      have till : w'.g.till = Till.fresh n := keeping.till
      refine ⟨⟨keeping.quiet, rfl⟩, ?_, ?_⟩
      · rw [till]
        exact Till.balanced_fresh n
      · rw [till]
        rfl
  | @served line answer w w' before serves fine kept =>
      obtain ⟨turn, quiet⟩ := kept.serves before.reached.sound serves fine
      exact ⟨⟨quiet, rfl⟩, turn.balanced kept.balanced, turn.standing kept.standing⟩

end GyreWard
