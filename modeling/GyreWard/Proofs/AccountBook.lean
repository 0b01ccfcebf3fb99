/-
Module: GyreWard.Proofs.AccountBook
Purpose: The ward refines the account book: over a plane that fails nothing, every command moves the
  book only by its moves.
Trusted boundary: none
Main exports: Gyre.till, Keeping, wp_pay_book, wp_commission_book, wp_sparkTurn_book, wp_cycleWrites_book
-/
import GyreWard.Abstract.Till
import GyreWard.Proofs.Building
import GyreWard.Proofs.Founding
import GyreWard.Proofs.Groups
import GyreWard.Proofs.Moves

namespace GyreWard

open Lib
open Lib.Action (MadeOf Leaves wp)

/-! ### The book of a ward -/

/-- What the book has of a Spark. -/
def Spark.side (s : Spark) : Purse :=
  { id := s.id, purse := s.purse, rows := s.db.now.spark.map fun r => (r.id, r.purse)
    held := s.db.now.held.length }

/-- What the book has of a contract. -/
def BoardRow.offer (r : BoardRow) : Nat × Int := (r.id, r.payout)

/-- What the ward's own table shows. -/
def WardRow.figures (r : WardRow) : Figures :=
  { cycle := r.cycle, treasury := r.treasury, debt := r.debt, issued := r.issued
    retired := r.retired }

/-- The ward as an account book. -/
def Gyre.till (g : Gyre) : Till :=
  { cycle := g.cycle, treasury := g.treasury, debt := g.debt, issued := g.issued
    retired := g.retired, spent := g.spent, found := g.found, wardNo := g.wardNo
    standing := g.ward.isOpen && g.ward.now.created
    shown := g.ward.now.ward.map WardRow.figures
    venues := g.ward.now.venue.map fun v => (v.id, v.built)
    ledger := g.ward.now.ledger
    offers := g.ward.now.board.map BoardRow.offer
    purses := g.sparks.map Spark.side }

/-- The plane's faults, and the ward as an account book. -/
def World.seen (w : World) : (Nat → Bool) × Till := (w.plane.faults, w.g.till)

/-- What is changed of one Spark's side of the book. -/
def Till.onPurse (i : Nat) (f : Purse → Purse) (b : Till) : Till :=
  { b with purses := b.purses.modify i f }

theorem purses_of_modify {sparks : List Spark} {i : Nat} {f : Spark → Spark} {f' : Purse → Purse}
    (each : ∀ s : Spark, sparks[i]? = some s → (f s).side = f' s.side) :
    (sparks.modify i f).map Spark.side = (sparks.map Spark.side).modify i f' := by
  refine List.ext_getElem? fun k => ?_
  rw [List.getElem?_map, List.getElem?_modify, List.getElem?_modify, List.getElem?_map]
  rcases eq_or_ne i k with rfl | elsewhere
  · cases here : sparks[i]? with
    | none => rfl
    | some s => simp [each s here]
  · simp [elsewhere]

theorem modify_id {α : Type} (items : List α) (i : Nat) : items.modify i id = items := by
  refine List.ext_getElem? fun k => ?_
  rw [List.getElem?_modify]
  cases items[k]? <;> simp

/-- What a call changes of one Spark. -/
theorem till_setSpark {g : Gyre} {i : Nat} {f : Spark → Spark} {f' : Purse → Purse}
    (each : ∀ s : Spark, g.sparks[i]? = some s → (f s).side = f' s.side) :
    (g.setSpark i f).till = g.till.onPurse i f' := by
  unfold Gyre.till
  simp only [Gyre.setSpark, purses_of_modify each, Till.onPurse]

theorem till_setSpark_same {g : Gyre} {i : Nat} {f : Spark → Spark}
    (same : ∀ s : Spark, g.sparks[i]? = some s → (f s).side = s.side) :
    (g.setSpark i f).till = g.till := by
  have unmoved : ∀ s : Spark, g.sparks[i]? = some s → (f s).side = id s.side := same
  rw [till_setSpark unmoved, Till.onPurse, modify_id]

/-! ### What the book does not see -/

/-- Code put together from calls the book does not see. -/
abbrev Unbooked (α : Type) (x : Action World α) : Prop :=
  MadeOf (fun _ y => Leaves World.seen y) α x

theorem Unbooked.leaves {α : Type} {x : Action World α} (made : Unbooked α x) :
    Leaves World.seen x :=
  MadeOf.leaves made fun _ _ steady => steady

theorem unbooked_fallible : Unbooked Unit fallible := by
  refine .move fun w => ?_
  rw [fallible_eq]
  split <;> rfl

theorem unbooked_remember {f : Gyre → Gyre} (same : ∀ g, (f g).till = g.till) :
    Unbooked Unit (remember f) :=
  .move fun w => Prod.ext rfl (same w.g)

theorem unbooked_update {f : Gyre → Option Gyre}
    (same : ∀ g g', f g = some g' → g'.till = g.till) : Unbooked Unit (update f) := by
  refine .move fun w => ?_
  unfold update
  cases effect : f w.g with
  | some g => exact Prod.ext rfl (same w.g g effect)
  | none => rfl

theorem unbooked_setPlane {f : Plane → Plane} (same : ∀ p, (f p).faults = p.faults) :
    Unbooked Unit (.modify (World.setPlane f)) :=
  .move fun w => Prod.ext (same w.plane) rfl

/-- What the book has of the ward's tables. -/
structure Page where
  created : Bool
  shown : List Figures
  venues : List (Int × Int)
  ledger : List LedgerRow
  offers : List (Nat × Int)

def WardTables.page (t : WardTables) : Page :=
  { created := t.created, shown := t.ward.map WardRow.figures
    venues := t.venue.map fun v => (v.id, v.built), ledger := t.ledger
    offers := t.board.map BoardRow.offer }

theorem till_of_page {g : Gyre} {c : Conn WardTables} (isOpen : c.isOpen = g.ward.isOpen)
    (same : c.now.page = g.ward.now.page) : { g with ward := c }.till = g.till := by
  have created : c.now.created = g.ward.now.created := congrArg Page.created same
  have shown : c.now.page.shown = g.ward.now.page.shown := congrArg Page.shown same
  have venues : c.now.page.venues = g.ward.now.page.venues := congrArg Page.venues same
  have ledger : c.now.ledger = g.ward.now.ledger := congrArg Page.ledger same
  have offers : c.now.page.offers = g.ward.now.page.offers := congrArg Page.offers same
  simp only [WardTables.page] at shown venues offers
  simp only [Gyre.till, isOpen, created, shown, venues, ledger, offers]

/-- A statement on the ward that leaves the book's page as it was. -/
theorem unbooked_onWard {stmt : WardTables → Option WardTables}
    (same : ∀ t t', stmt t = some t' → t'.page = t.page) :
    Unbooked Unit (update (Gyre.onWard (Conn.execute stmt))) := by
  refine unbooked_update fun g g' run => ?_
  obtain ⟨c, executed, rfl⟩ := onWard_eq_some.mp run
  obtain ⟨isOpen, t, effect, rfl⟩ := Conn.execute_eq_some.mp executed
  exact till_of_page rfl (same _ _ effect)

theorem unbooked_runWard {stmt : WardTables → Option WardTables}
    (same : ∀ t t', stmt t = some t' → t'.page = t.page) : Unbooked Unit (runWard stmt) :=
  .bind unbooked_fallible fun _ => unbooked_onWard same

/-- A statement on existing tables. -/
theorem page_of_existing {f : WardTables → WardTables} {t t' : WardTables}
    (run : WardTables.existing (fun t => some (f t)) t = some t')
    (same : (f t).page = t.page) : t'.page = t.page := by
  unfold WardTables.existing at run
  split at run
  · obtain rfl := Option.some.inj run
    exact same
  · cases run

/-- A change to one contract that is none of its offer. -/
theorem page_updateContract (id : Nat) {f : BoardRow → BoardRow} (t : WardTables)
    (same : ∀ r, (f r).offer = r.offer) :
    { t with board := updateContract id f t.board }.page = t.page := by
  have offers : (updateContract id f t.board).map BoardRow.offer =
      t.board.map BoardRow.offer := by
    rw [updateContract, List.map_map]
    refine List.map_congr_left fun r _ => ?_
    rw [Function.comp_apply]
    split
    · exact same r
    · rfl
  simp only [WardTables.page, offers]

theorem page_updateContractWire {id wire owner : Nat} {t t' : WardTables}
    (run : updateContractWire id wire owner t = some t') : t'.page = t.page := by
  unfold updateContractWire WardTables.existing at run
  split at run
  · dsimp only at run
    split at run
    · cases run
    · obtain rfl := Option.some.inj run
      exact page_updateContract id t fun _ => rfl
  · cases run

/-- A statement on a Spark that leaves their side of the book as it was. -/
theorem unbooked_runSpark (i : Nat) {stmt : SparkTables → Option SparkTables}
    (same : ∀ (s : Spark) t, stmt s.db.now = some t →
      { s with db := { s.db with now := t } }.side = s.side) : Unbooked Unit (runSpark i stmt) := by
  refine .bind unbooked_fallible fun _ => unbooked_update fun g g' run => ?_
  obtain ⟨s, c, here, executed, rfl⟩ := onSpark_eq_some.mp run
  obtain ⟨isOpen, t, effect, rfl⟩ := Conn.execute_eq_some.mp executed
  refine till_setSpark_same fun s' here' => ?_
  obtain rfl : s = s' := Option.some.inj (here.symm.trans here')
  exact same s t effect

theorem unbooked_updateWork (i : Nat) (id wear cycles : Int) (place : Place) :
    Unbooked Unit (runSpark i (updateWork id wear cycles place)) := by
  refine unbooked_runSpark i fun s t effect => ?_
  unfold updateWork updateSparkRow SparkTables.existing at effect
  split at effect
  · obtain rfl := Option.some.inj effect
    have rows : (s.db.now.spark.map fun r =>
          if r.id = id then { r with wear := wear, cycles := cycles, place := place } else r).map
            (fun r => (r.id, r.purse)) = s.db.now.spark.map fun r => (r.id, r.purse) := by
      rw [List.map_map]
      refine List.map_congr_left fun r _ => ?_
      rw [Function.comp_apply]
      split <;> rfl
    simp only [Spark.side, rows]
  · cases effect

theorem unbooked_scalarOr (missing : Int) (query : Gyre → Option Int) :
    Unbooked Int (scalarOr missing query) := by
  refine .bind (.attempt unbooked_fallible) fun answered => ?_
  cases answered with
  | some _ => exact .read _
  | none => exact .pure _

theorem unbooked_built (venue : Int) : Unbooked Bool (built venue) :=
  .bind (unbooked_scalarOr _ _) fun _ => .pure _

theorem unbooked_draw (n : UInt32) : Unbooked Int (draw n) := by
  refine .bind (.read _) fun r => ?_
  cases rngBelow r n with
  | some drawn => exact .bind (unbooked_remember fun _ => rfl) fun _ => .pure _
  | none => exact .halt

theorem unbooked_setSpark (i : Nat) {f : Spark → Spark} (same : ∀ s, (f s).side = s.side) :
    Unbooked Unit (remember (Gyre.setSpark i f)) :=
  unbooked_remember fun _ => till_setSpark_same fun s _ => same s

theorem JoinMove.unbooked {α : Type} {x : Action World α} (moves : JoinMove α x) :
    Unbooked α x := by
  cases moves with
  | fallible => exact unbooked_fallible
  | takePart h => exact unbooked_setPlane fun _ => rfl
  | beginWard =>
      refine unbooked_update fun g g' run => ?_
      obtain ⟨c, begun, rfl⟩ := onWard_eq_some.mp run
      obtain ⟨isOpen, -, rfl⟩ := Conn.begin_eq_some.mp begun
      exact till_of_page rfl rfl
  | beginSpark i =>
      refine unbooked_update fun g g' run => ?_
      obtain ⟨s, c, here, begun, rfl⟩ := onSpark_eq_some.mp run
      obtain ⟨isOpen, -, rfl⟩ := Conn.begin_eq_some.mp begun
      refine till_setSpark_same fun s' here' => ?_
      obtain rfl : s = s' := Option.some.inj (here.symm.trans here')
      rfl
  | enlist h => exact .move fun _ => rfl

theorem unbooked_groupJoin (h : Handle) : Unbooked Unit (groupJoin h) :=
  (made_groupJoin h).mono fun _ _ moves => moves.unbooked

theorem unbooked_sqlCommit (h : Handle) : Unbooked Unit (sqlCommit h) := by
  cases h with
  | ward =>
      refine .bind unbooked_fallible fun _ => unbooked_update fun g g' run => ?_
      obtain ⟨c, committed, rfl⟩ := onWard_eq_some.mp run
      obtain ⟨-, rfl⟩ := Conn.commit_eq_some.mp committed
      exact till_of_page rfl rfl
  | spark i =>
      refine .bind unbooked_fallible fun _ => unbooked_update fun g g' run => ?_
      obtain ⟨s, c, here, committed, rfl⟩ := onSpark_eq_some.mp run
      obtain ⟨-, rfl⟩ := Conn.commit_eq_some.mp committed
      refine till_setSpark_same fun s' here' => ?_
      obtain rfl : s = s' := Option.some.inj (here.symm.trans here')
      rfl

theorem unbooked_goToWork (i id : Nat) : Unbooked Unit (goToWork i id) := by
  have went : ∀ {query : Gyre → Option Int} {f : Int → Place → Place} {rest : Action World Unit},
      Unbooked Unit rest →
      Unbooked Unit (do
        let v ← scalarOr 0 query
        remember (Gyre.movePlace i (f v))
        rest) := fun made =>
    .bind (unbooked_scalarOr _ _) fun _ => .bind (unbooked_setSpark i fun _ => rfl) fun _ => made
  refine went (went (went (.bind (unbooked_groupJoin _) fun _ => .bind (.read _) fun g => ?_)))
  cases g.sparks[i]? with
  | some s => exact unbooked_updateWork i _ _ _ _
  | none => exact .pure _

/-! ### One move of the book -/

/-- Over a plane that fails nothing, the ward's book is `b`. -/
structure Keeping (b : Till) (w : World) : Prop where
  quiet : Quiet w
  till : w.g.till = b

section Moves

variable {b : Till} {w : World}

theorem Keeping.of_seen (keeping : Keeping b w) {w' : World} (same : w'.seen = w.seen) :
    Keeping b w' := by
  have faults : w'.plane.faults = w.plane.faults := congrArg Prod.fst same
  have till : w'.g.till = w.g.till := congrArg Prod.snd same
  refine ⟨fun k => ?_, till.trans keeping.till⟩
  rw [faults]
  exact keeping.quiet k

/-- What the book does not see leaves it as it was. -/
theorem Unbooked.wp {α : Type} {x : Action World α} (made : Unbooked α x)
    (keeping : Keeping b w) {Q : α → World → Prop} (ran : ∀ a w', Keeping b w' → Q a w') :
    wp x Q (fun _ => True) w :=
  Action.wp_mono (made.leaves.wp w) (fun a w' same => ran a w' (keeping.of_seen same)) fun _ _ =>
    trivial

theorem Keeping.ready (keeping : Keeping b w) (standing : b.standing = true) : Ready w := by
  rw [← keeping.till] at standing
  have both := Bool.and_eq_true_iff.mp standing
  exact ⟨keeping.quiet, both.1, both.2⟩

/-- A statement on existing tables, if it takes effect. -/
theorem wp_existing {f : WardTables → WardTables} {Q : Unit → World → Prop}
    (ran : Q () ((w.after 1).setGyre (Gyre.onTables f))) :
    Action.wp (runWard (WardTables.existing fun t => some (f t))) Q (fun _ => True) w := by
  refine wp_runWard trivial fun _ t effect => ?_
  unfold WardTables.existing at effect
  split at effect
  · obtain rfl := Option.some.inj effect
    exact ran
  · cases effect

/-- A ledger row. -/
theorem wp_book (keeping : Keeping b w) (what : Entry) (amount spark : Int) :
    Action.wp (book what amount spark) (fun _ => Keeping (b.book what amount spark))
      (fun _ => True) w := by
  unfold book
  rw [Action.wp_bind, Action.wp_read]
  refine wp_existing ⟨keeping.quiet, ?_⟩
  rw [← keeping.till]
  rfl

/-- What `UPDATE spark SET purse` does to a Spark's side of the book. -/
theorem side_updatePurse {s : Spark} {amount : Int} {t : SparkTables}
    (effect : updatePurse s.id amount s.db.now = some t) :
    { s with db := { s.db with now := t } }.side =
      { s.side with rows := s.side.rows.map fun r => if r.1 = s.id then (r.1, r.2 + amount) else r }
      := by
  unfold updatePurse updateSparkRow SparkTables.existing at effect
  split at effect
  · obtain rfl := Option.some.inj effect
    simp only [Spark.side, List.map_map]
    congr 1
    refine List.map_congr_left fun r _ => ?_
    simp only [Function.comp_apply]
    split <;> rfl
  · cases effect

/-- What `INSERT INTO held` does to a Spark's side of the book. -/
theorem side_insertHeld {s : Spark} {row : HeldRow} {t : SparkTables}
    (effect : insertHeld row s.db.now = some t) :
    { s with db := { s.db with now := t } }.side = { s.side with held := s.side.held + 1 } := by
  unfold insertHeld SparkTables.existing at effect
  split at effect
  · dsimp only at effect
    split at effect
    · cases effect
    · obtain rfl := Option.some.inj effect
      simp [Spark.side]
  · cases effect

/-- A payment in a Spark's own database. -/
def Purse.credited (amount : Int) (p : Purse) : Purse :=
  { p with rows := p.rows.map fun r => if r.1 = p.id then (r.1, r.2 + amount) else r }

/-- A thing in a Spark's hands. -/
def Purse.given (p : Purse) : Purse := { p with held := p.held + 1 }

/-- A payment in memory. -/
def Till.moved (i : Nat) (amount : Int) (b : Till) : Till :=
  { b with treasury := b.treasury - amount }.onPurse i fun p => { p with purse := p.purse + amount }

theorem till_paid (g : Gyre) (i : Nat) (amount : Int) :
    (g.paid i amount).till = g.till.moved i amount :=
  till_setSpark (g := { g with treasury := g.treasury - amount }) fun _ _ => rfl

section Parts

variable {b : Till} {i : Nat} {p : Purse}

/-- A payment, as the code makes it. -/
theorem Till.pay_in_parts (there : b.purses[i]? = some p) (amount : Int) :
    ((b.book .wages (-amount) p.id).onPurse i (Purse.credited amount)).moved i amount =
      b.pay i amount 0 := by
  have parts : (b.purses.modify i (Purse.credited amount)).modify i
      (fun p => { p with purse := p.purse + amount }) = b.purses.modify i (Purse.paid amount 0) := by
    rw [List.modify_modify_eq]
    rfl
  rw [Till.pay, there, ← parts]
  rfl

theorem Till.pay_item_in_parts (there : b.purses[i]? = some p) (amount : Int) :
    (((b.book .wages (-amount) p.id).onPurse i (Purse.credited amount)).onPurse i
        Purse.given).moved i amount = b.pay i amount 1 := by
  have parts : ((b.purses.modify i (Purse.credited amount)).modify i Purse.given).modify i
      (fun p => { p with purse := p.purse + amount }) = b.purses.modify i (Purse.paid amount 1) := by
    rw [List.modify_modify_eq, List.modify_modify_eq]
    rfl
  rw [Till.pay, there, ← parts]
  rfl

end Parts

/-- The number of things that come with a payment. -/
def itemCount (item : Option (Text × Text)) : Nat := if item.isSome then 1 else 0

/-- A statement on a Spark, by what it does to their side of the book. -/
theorem wp_runSpark_book (keeping : Keeping b w) {i : Nat}
    {stmt : SparkTables → Option SparkTables} {f : Purse → Purse}
    (effects : ∀ (s : Spark) t, b.purses[i]? = some s.side → stmt s.db.now = some t →
      { s with db := { s.db with now := t } }.side = f s.side) :
    Action.wp (runSpark i stmt)
      (fun _ w' => (∃ p, b.purses[i]? = some p) ∧ Keeping (b.onPurse i f) w')
      (fun _ => True) w := by
  refine wp_runSpark trivial fun s t here _ effect => ?_
  have there : b.purses[i]? = some s.side := by
    rw [← keeping.till]
    simp only [Gyre.till, List.getElem?_map, here, Option.map_some]
  refine ⟨⟨_, there⟩, keeping.quiet, ?_⟩
  rw [← keeping.till]
  refine till_setSpark fun s' here' => ?_
  obtain rfl : s = s' := Option.some.inj (here.symm.trans here')
  exact effects s t there effect

/-- `pay` makes one move of the book. -/
theorem wp_pay_book (keeping : Keeping b w) (i : Nat) (amount : Int)
    (item : Option (Text × Text)) :
    Action.wp (pay i amount item)
      (fun _ w' => (∃ p, b.purses[i]? = some p) ∧ Keeping (b.pay i amount (itemCount item)) w')
      (fun _ => True) w := by
  unfold pay
  rw [Action.wp_bind]
  refine (unbooked_groupJoin _).wp keeping fun _ w₁ keeping₁ => ?_
  rw [Action.wp_bind, Action.wp_read, Action.wp_bind]
  have named : (w₁.g.sparks[i]?.map (·.id)).getD 0 = (b.purses[i]?.map (·.id)).getD 0 := by
    rw [← keeping₁.till]
    simp only [Gyre.till, List.getElem?_map, Option.map_map]
    rfl
  rw [named]
  refine Action.wp_mono (wp_book keeping₁ .wages (-amount) _) (fun _ w₂ keeping₂ => ?_)
    fun _ _ => trivial
  rw [Action.wp_bind]
  refine Action.wp_mono (wp_runSpark_book (f := Purse.credited amount) keeping₂ ?_)
    (fun _ w₃ credited => ?_) fun _ _ => trivial
  · intro s t there effect
    have spark : (b.purses[i]?.map (·.id)).getD 0 = s.id := by
      rw [show b.purses[i]? = some s.side from there]
      rfl
    rw [spark] at effect
    exact side_updatePurse effect
  obtain ⟨⟨p, there⟩, keeping₃⟩ := credited
  have there : b.purses[i]? = some p := there
  have spark : (b.purses[i]?.map (·.id)).getD 0 = p.id := by
    rw [there]
    rfl
  rw [spark] at keeping₃
  have moved : ∀ {b' : Till} {w' : World}, Keeping b' w' →
      Keeping (b'.moved i amount) (w'.setGyre (Gyre.paid i amount)) := fun keeping =>
    ⟨keeping.quiet, (till_paid _ i amount).trans (congrArg _ keeping.till)⟩
  cases item with
  | none =>
      rw [show itemCount none = 0 from rfl, ← Till.pay_in_parts there]
      exact ⟨⟨p, there⟩, moved keeping₃⟩
  | some item =>
      rw [show itemCount (some item) = 1 from rfl, ← Till.pay_item_in_parts there]
      dsimp only
      rw [Action.wp_bind, Action.wp_read, Action.wp_bind]
      refine Action.wp_mono (wp_runSpark_book (f := Purse.given) keeping₃ ?_)
        (fun _ w₄ given => ⟨⟨p, there⟩, moved given.2⟩) fun _ _ => trivial
      exact fun s t _ effect => side_insertHeld effect

/-- What was built is built in the book. -/
theorem till_withVenue (g : Gyre) (i : Int) (v : Venue) :
    (g.withVenue i v).till = g.till.build i v.cost := by
  have venues : (g.ward.now.venue.map fun v => if v.id = i then { v with built := g.cycle } else v).map
        (fun v => (v.id, v.built)) =
      (g.ward.now.venue.map fun v => (v.id, v.built)).map
        fun v => if v.1 = i then (v.1, g.cycle) else v := by
    rw [List.map_map, List.map_map]
    refine List.map_congr_left fun v _ => ?_
    simp only [Function.comp_apply]
    split <;> rfl
  simp only [Till.build, Till.book, Gyre.till, ← venues]
  rfl

/-- The book says of a venue what the ward's own table does. -/
theorem built_till {g : Gyre} (isOpen : g.ward.isOpen = true) (created : g.ward.now.created = true)
    (i : Int) : g.till.built i = g.askWard (selectBuilt i) := by
  simp only [Gyre.askWard, isOpen, created, Bool.and_self, reduceIte, selectBuilt, Till.built,
    Gyre.till, List.find?_map, Option.map_map]
  rfl

/-- What the code can build is what the book can. -/
theorem canBuild_iff (keeping : Keeping b w) (standing : b.standing = true) (i : Int) (v : Venue) :
    b.CanBuild i v ↔ Buildable w.g i v := by
  have ready := keeping.ready standing
  have column : b.built i = w.g.askWard (selectBuilt i) := by
    rw [← keeping.till, built_till ready.isOpen ready.created]
  have treasury : b.treasury = w.g.treasury := congrArg Till.treasury keeping.till.symm
  constructor
  · rintro ⟨listed, lower, affordable, unbuilt⟩
    have place := (List.getElem?_eq_some_iff.mp listed).1
    rw [show venues.length = nVenues from rfl] at place
    refine ⟨lower, ?_, listed, treasury ▸ affordable, ?_⟩
    · omega
    · rw [← column, unbuilt]
      rfl
  · rintro ⟨lower, upper, listed, affordable, unbuilt⟩
    refine ⟨listed, lower, treasury ▸ affordable, ?_⟩
    rw [← column] at unbuilt
    cases built : b.built i with
    | none => simp [built] at unbuilt
    | some n =>
        rw [built] at unbuilt
        exact congrArg some unbuilt

/-- `build_venue` moves the book, or is refused for a reason and leaves it alone. -/
theorem wp_buildVenue_book (keeping : Keeping b w) (standing : b.standing = true) (i : Int) :
    Action.wp (buildVenue i)
      (fun _ w' => ∃ v, b.CanBuild i v ∧ Keeping (b.build i v.cost) w')
      (fun w' => (∀ v, ¬ b.CanBuild i v) ∧ Keeping b w') w := by
  have ready := keeping.ready standing
  by_cases can : ∃ v, b.CanBuild i v
  · obtain ⟨v, can⟩ := can
    unfold Action.wp
    rw [buildVenue_accepts ready ((canBuild_iff keeping standing i v).mp can)]
    refine ⟨v, can, keeping.quiet, ?_⟩
    rw [← keeping.till]
    exact till_withVenue w.g i v
  · have cannot : ∀ v, ¬ b.CanBuild i v := fun v may => can ⟨v, may⟩
    obtain ⟨n, refused⟩ := buildVenue_refuses ready fun v may =>
      cannot v ((canBuild_iff keeping standing i v).mpr may)
    unfold Action.wp
    rw [refused]
    exact ⟨cannot, keeping.quiet, keeping.till⟩

/-- `commission` answers with the venue it built, or with a number below zero and the book as it
was. -/
theorem wp_commission_decides (keeping : Keeping b w) (standing : b.standing = true) :
    Action.wp commission
      (fun decided w' => (∃ v, b.CanBuild decided v ∧ Keeping (b.build decided v.cost) w') ∨
        decided < 0 ∧ Keeping b w') (fun _ => True) w := by
  have viewed : Unbooked WardView wardView := by
    have looked : ∀ places, Unbooked (List Int) (viewBuilt places) := by
      intro places
      induction places with
      | nil => exact .pure _
      | cons _ _ ih => exact .bind (unbooked_scalarOr _ _) fun _ => .bind ih fun _ => .pure _
    exact .bind (.read _) fun _ => .bind (looked _) fun _ => .pure _
  unfold commission
  rw [Action.wp_bind]
  refine viewed.wp keeping fun view w₁ keeping₁ => ?_
  rw [Action.wp_bind]
  refine Unbooked.wp (.attempt unbooked_fallible) keeping₁ fun asked w₂ keeping₂ => ?_
  cases asked with
  | none => exact Or.inr ⟨by decide, keeping₂⟩
  | some _ =>
      dsimp only
      rw [Action.wp_bind, Action.wp_read]
      cases queenPlan w₂.plane.late view with
      | none => exact Or.inr ⟨by decide, keeping₂⟩
      | some i =>
          refine Action.wp_ite (fun _ => Or.inr ⟨by decide, keeping₂⟩) fun _ => ?_
          rw [Action.wp_bind, Action.wp_attempt]
          exact Action.wp_mono (wp_buildVenue_book keeping₂ standing i)
            (fun _ _ built => Or.inl built) fun _ refused => Or.inr ⟨by decide, refused.2⟩

/-- `commission` moves the book at most once. -/
theorem wp_commission_book (keeping : Keeping b w) (standing : b.standing = true) :
    Action.wp commission (fun _ w' => ∃ b', Till.Steps b b' ∧ Keeping b' w') (fun _ => True) w := by
  apply Action.wp_mono (wp_commission_decides keeping standing) _ fun _ _ => trivial
  intro decided w' outcome
  rcases outcome with ⟨v, can, keeping'⟩ | ⟨_, keeping'⟩
  · exact ⟨_, .single (.build can), keeping'⟩
  · exact ⟨b, .refl, keeping'⟩

theorem wp_draw (keeping : Keeping b w) (n : UInt32) :
    Action.wp (draw n) (fun v w' => 0 ≤ v ∧ Keeping b w') (fun _ => True) w := by
  unfold draw
  rw [Action.wp_bind, Action.wp_read]
  cases rngBelow w.g.rng n with
  | some drawn => exact ⟨Int.natCast_nonneg _, keeping.quiet, keeping.till⟩
  | none => trivial

/-- Every offer of the board pays at least 18. -/
def Till.Fair (b : Till) : Prop := ∀ o ∈ b.offers, 18 ≤ o.2

theorem wp_insertBoard (keeping : Keeping b w) (cycle : Int) (kind : Text) (payout risk : Int)
    (place : Place) :
    Action.wp (runWard (insertBoard cycle kind payout risk place))
      (fun _ w' => ∃ id, Keeping (b.post (b.offers ++ [(id, payout)])) w') (fun _ => True) w := by
  refine wp_existing ⟨nextRowid w.g.ward.now.board, keeping.quiet, ?_⟩
  rw [← keeping.till]
  simp [Gyre.till, Till.post, World.setGyre, Gyre.onTables, Gyre.setWard, BoardRow.offer]

/-- The book is `b`, but for the offers, which are fair. -/
def Posting (b : Till) (w : World) : Prop :=
  ∃ offers, (b.post offers).Fair ∧ Keeping (b.post offers) w

/-- One contract is one more fair offer. -/
theorem wp_postContract_book (posting : Posting b w) (i : Nat) :
    Action.wp (postContract i) (fun _ => Posting b) (fun _ => True) w := by
  obtain ⟨offers, fair, keeping⟩ := posting
  unfold postContract
  rw [Action.wp_bind]
  refine Action.wp_mono (wp_draw keeping 9) (fun kind w₁ drawn => ?_) fun _ _ => trivial
  rw [Action.wp_bind]
  refine Action.wp_mono (wp_draw drawn.2 55) (fun risk w₂ drawn₂ => ?_) fun _ _ => trivial
  obtain ⟨risky, keeping₂⟩ := drawn₂
  rw [Action.wp_bind]
  refine Action.wp_mono (wp_draw keeping₂ 20) (fun extra w₃ drawn₃ => ?_) fun _ _ => trivial
  obtain ⟨more, keeping₃⟩ := drawn₃
  dsimp only
  rw [Action.wp_bind]
  refine (unbooked_built 3).wp keeping₃ fun plaza w₄ keeping₄ => ?_
  rw [Action.wp_bind, Action.wp_read, Action.wp_bind]
  have pays : 18 ≤ if plaza = true
      then 18 + (10 + risk).tdiv 2 + extra + (18 + (10 + risk).tdiv 2 + extra).tdiv 4
      else 18 + (10 + risk).tdiv 2 + extra := by
    have half : 0 ≤ (10 + risk).tdiv 2 := Int.tdiv_nonneg (by omega) (by decide)
    split
    · have quarter : 0 ≤ (18 + (10 + risk).tdiv 2 + extra).tdiv 4 :=
        Int.tdiv_nonneg (by omega) (by decide)
      omega
    · omega
  refine Action.wp_mono (wp_insertBoard keeping₄ _ _ _ _ _) (fun _ w₅ posted => ?_) fun _ _ =>
    trivial
  obtain ⟨id, keeping₅⟩ := posted
  rw [Action.wp_bind]
  refine wp_wireIdOrExit fun wire _ => ?_
  have named : Unbooked Unit (runWard (updateContractWire (nextRowid w₄.g.ward.now.board) wire
      (classOwner .contract w₄.g.wardNo))) :=
    unbooked_runWard fun _ _ => page_updateContractWire
  refine named.wp keeping₅ fun _ w₆ keeping₆ => ⟨_, fun o mem => ?_, keeping₆⟩
  rcases List.mem_append.mp mem with before | here
  · exact fair o before
  · obtain rfl := List.mem_singleton.mp here
    exact pays

/-- `post_board` posts fair offers. -/
theorem wp_postBoard_book (keeping : Keeping b w) :
    Action.wp postBoard
      (fun _ w' => ∃ b', Till.Step b b' ∧ b'.Fair ∧ Keeping b' w') (fun _ => True) w := by
  unfold postBoard
  rw [Action.wp_bind]
  refine (unbooked_built 2).wp keeping fun rails w₁ keeping₁ => ?_
  rw [Action.wp_bind]
  refine wp_existing ?_
  have cleared : Keeping (b.post []) ((w₁.after 1).setGyre
      (Gyre.onTables fun t => { t with board := [] })) := by
    refine ⟨keeping₁.quiet, ?_⟩
    rw [← keeping₁.till]
    rfl
  have start : Posting b ((w₁.after 1).setGyre (Gyre.onTables fun t => { t with board := [] })) :=
    ⟨[], fun o mem => absurd mem List.not_mem_nil, cleared⟩
  refine Action.wp_mono (Action.wp_forEach (I := fun _ => Posting b) start
    fun i _ _ posting => wp_postContract_book posting i) (fun _ w' posted => ?_) fun _ _ => trivial
  obtain ⟨offers, fair, keeping⟩ := posted
  exact ⟨_, .post fair, fair, keeping⟩

/-- The best contract is one of those looked at, or none. -/
theorem bestContract_mem (nerve : Int) (rows : List BoardRow) :
    (bestContract nerve rows).1 < 0 ∨ ∃ r ∈ rows, (bestContract nerve rows).1 = (r.id : Int) := by
  unfold bestContract
  apply List.foldlRecOn (motive := fun best : Int × Int =>
    best.1 < 0 ∨ ∃ r ∈ rows, best.1 = (r.id : Int))
  · exact Or.inl (by decide)
  · intro best known r mem
    dsimp only
    split
    · exact Or.inr ⟨r, mem, rfl⟩
    · exact known

/-- What `choose` takes stands on the board. -/
theorem wp_choose_book (keeping : Keeping b w) (i : Nat) :
    Action.wp (choose i)
      (fun id w' => Keeping b w' ∧
        (0 ≤ id → b.standing = true ∧ ∃ payout, (id.toNat, payout) ∈ b.offers))
      (fun _ => True) w := by
  have nothing : ∀ {w' : World}, Keeping b w' → Keeping b w' ∧
      (0 ≤ (-1 : Int) → b.standing = true ∧ ∃ payout, ((-1 : Int).toNat, payout) ∈ b.offers) :=
    fun keeping => ⟨keeping, fun found => absurd found (by decide)⟩
  unfold choose
  rw [Action.wp_bind]
  refine Unbooked.wp (.attempt unbooked_fallible) keeping fun asked w₁ keeping₁ => ?_
  cases asked with
  | none => exact nothing keeping₁
  | some _ =>
      dsimp only
      rw [Action.wp_bind, Action.wp_read]
      rcases looked : openContracts w₁.g with _ | rows
      · exact nothing keeping₁
      · rcases w₁.g.sparks[i]? with _ | s
        · exact nothing keeping₁
        · dsimp only
          rw [Action.wp_bind]
          refine (unbooked_built 0).wp keeping₁ fun rested w₂ keeping₂ => ?_
          rw [Action.wp_bind]
          refine (unbooked_built 4).wp keeping₂ fun backed w₃ keeping₃ => ?_
          refine Action.wp_ite (fun none => ⟨keeping₃, fun found => absurd none (by omega)⟩)
            fun some => ?_
          have taken : ∀ id spark, Unbooked Unit (runWard (updateTaken id spark)) :=
            fun id spark => unbooked_runWard fun _ _ run =>
              page_of_existing run (page_updateContract id _ fun _ => rfl)
          rw [Action.wp_bind]
          refine Unbooked.wp (.attempt (taken _ _)) keeping₃ fun took w₄ keeping₄ => ?_
          cases took with
          | none => exact nothing keeping₄
          | some _ =>
              refine ⟨keeping₄, fun _ => ?_⟩
              have offered : b.standing = true ∧
                  ∀ r ∈ rows, (r.id, r.payout) ∈ b.offers := by
                rw [← keeping₁.till]
                unfold openContracts at looked
                split at looked
                · rename_i standing
                  obtain rfl := Option.some.inj looked
                  refine ⟨standing, fun r mem => ?_⟩
                  exact List.mem_map_of_mem (List.mem_filter.mp mem).1
                · cases looked
              rcases bestContract_mem _ rows with negative | ⟨r, mem, best⟩
              · exact absurd negative some
              · refine ⟨offered.1, r.payout, ?_⟩
                rw [best]
                exact offered.2 r mem

/-- What a contract on the board pays is what the book says it pays. -/
theorem wp_payout (keeping : Keeping b w) (standing : b.standing = true) (fair : b.Fair) {id : Nat}
    (offered : ∃ payout, (id, payout) ∈ b.offers) :
    Action.wp (scalarWard (selectContract id (·.payout)))
      (fun payout w' => 18 ≤ payout ∧ Keeping b w') (fun _ => True) w := by
  have ready := keeping.ready standing
  unfold Action.wp
  rw [scalarWard_quiet keeping.quiet, ready.ask, selectContract]
  refine ⟨?_, keeping.quiet, keeping.till⟩
  obtain ⟨payout, offer⟩ := offered
  rw [← keeping.till] at offer
  obtain ⟨r, mem, same⟩ := List.mem_map.mp offer
  have id_eq : r.id = id := congrArg Prod.fst same
  cases found : w.g.ward.now.board.find? fun r => r.id == id with
  | none => simp_all
  | some r' =>
      have pays := fair r'.offer
      rw [← keeping.till] at pays
      exact pays (List.mem_map_of_mem (List.mem_of_find?_eq_some found))

/-- The winning branch brings the salvage in. -/
theorem wp_keepContract_book (keeping : Keeping b w) (payout spark : Int) :
    Action.wp (keepContract payout spark) (fun _ => Keeping (b.earn payout spark))
      (fun _ => True) w := by
  unfold keepContract
  rw [Action.wp_bind, Action.wp_read, Action.wp_bind]
  have raised : Keeping
      { b with
        treasury := b.treasury + payout, issued := b.issued + payout, found := b.found + 1 }
      (w.setGyre (Gyre.earn payout)) := by
    refine ⟨keeping.quiet, ?_⟩
    rw [← keeping.till]
    rfl
  change Action.wp _ _ _ (w.setGyre (Gyre.earn payout))
  rw [Action.wp_bind]
  exact Action.wp_mono (wp_book raised .salvage payout spark) (fun _ _ keeping => keeping) fun _ _ =>
    trivial

/-- A contract is settled with a wage, if the treasury reaches. -/
theorem wp_settleContract_book (keeping : Keeping b w) (i id : Nat) (won : Bool) (earned : Int)
    (item : Option Text) :
    Action.wp (settleContract i id won earned item)
      (fun _ w' =>
        if 0 < wageOf won earned ∧ wageOf won earned ≤ b.treasury then
          (∃ p, b.purses[i]? = some p) ∧
            Keeping (b.pay i (wageOf won earned) (if item.isSome then 1 else 0)) w'
        else Keeping b w')
      (fun _ => True) w := by
  unfold settleContract
  rw [Action.wp_bind]
  refine (unbooked_built 1).wp keeping fun repaired w₁ keeping₁ => ?_
  rw [Action.wp_bind]
  have worn : Unbooked Unit (remember (Gyre.setWear i (wornBy won repaired))) :=
    unbooked_setSpark i fun _ => rfl
  refine worn.wp keeping₁ fun _ w₂ keeping₂ => ?_
  rw [Action.wp_bind]
  have outcome : Unbooked Unit (runWard (updateOutcome id (text (if won then "kept" else "lost")))) :=
    unbooked_runWard fun _ _ run => page_of_existing run (page_updateContract id _ fun _ => rfl)
  refine outcome.wp keeping₂ fun _ w₃ keeping₃ => ?_
  dsimp only
  rw [Action.wp_bind, Action.wp_read]
  have treasury : w₃.g.treasury = b.treasury := congrArg Till.treasury keeping₃.till
  rw [treasury]
  refine Action.wp_ite (fun pays => ?_) fun short => ?_
  · rw [Action.wp_bind]
    refine Action.wp_mono (wp_pay_book keeping₃ i _ _) (fun _ w₄ paid => ?_) fun _ _ => trivial
    refine (unbooked_goToWork i id).wp paid.2 fun _ w₅ keeping₅ => ?_
    rw [if_pos pays]
    refine ⟨paid.1, ?_⟩
    cases item with
    | none => exact keeping₅
    | some name => exact keeping₅
  · refine (unbooked_goToWork i id).wp keeping₃ fun _ w₄ keeping₄ => ?_
    rw [if_neg short]
    exact keeping₄

/-- A contract worked out makes at most one move of the book, from a treasury that is not
overdrawn. -/
theorem wp_workContract_book (keeping : Keeping b w) (standing : b.standing = true) (fair : b.Fair)
    (solvent : 0 ≤ b.treasury) {i : Nat} {s : Spark} (here : w.g.sparks[i]? = some s) {id : Nat}
    (offered : ∃ payout, (id, payout) ∈ b.offers) :
    Action.wp (workContract i s id)
      (fun _ w' => ∃ b', Till.Steps b b' ∧ b'.offers = b.offers ∧ Keeping b' w')
      (fun _ => True) w := by
  have there : b.purses[i]? = some s.side := by
    rw [← keeping.till]
    simp only [Gyre.till, List.getElem?_map, here, Option.map_some]
  unfold workContract
  rw [Action.wp_bind]
  refine Action.wp_mono (wp_payout keeping standing fair offered) (fun payout w₁ asked => ?_)
    fun _ _ => trivial
  obtain ⟨pays, keeping₁⟩ := asked
  rw [Action.wp_bind]
  refine (unbooked_scalarOr _ _).wp keeping₁ fun risk w₂ keeping₂ => ?_
  rw [Action.wp_bind]
  refine (unbooked_draw 100).wp keeping₂ fun roll w₃ keeping₃ => ?_
  dsimp only
  cases won : decide (risk ≤ roll) with
  | true =>
      simp only [reduceIte]
      rw [map_eq_pure_bind, bind_assoc, Action.wp_bind]
      refine Action.wp_mono (wp_keepContract_book keeping₃ payout s.id) (fun name w₄ keeping₄ => ?_)
        fun _ _ => trivial
      rw [pure_bind]
      refine Action.wp_mono (wp_settleContract_book keeping₄ i id true payout (some name))
        (fun _ w₅ settled => ?_) fun _ _ => trivial
      -- half of what has just come in is something, and it is there
      have wage : 0 < payout.tdiv 2 := by
        have half : payout.tdiv 2 = payout / 2 := Int.tdiv_eq_ediv_of_nonneg (by omega)
        omega
      have share : payout.tdiv 2 ≤ payout := Int.tdiv_le_self 2 (by omega)
      have reached : payout.tdiv 2 ≤ (b.earn payout s.id).treasury := by
        change payout.tdiv 2 ≤ b.treasury + payout
        omega
      rw [if_pos ⟨wage, reached⟩] at settled
      exact ⟨_, .single (.keep there pays), rfl, settled.2⟩
  | false =>
      simp only [Bool.false_eq_true, reduceIte]
      rw [pure_bind]
      refine Action.wp_mono (wp_settleContract_book keeping₃ i id false 0 none)
        (fun _ w₄ settled => ?_) fun _ _ => trivial
      split at settled
      · rename_i pays
        exact ⟨_, .single (.pay there pays.1 pays.2), rfl, settled.2⟩
      · exact ⟨b, .refl, rfl, settled⟩

/-- The book has moved from `b`, and every offer of the board is fair. -/
structure Trading (b : Till) (w : World) : Prop where
  moved : ∃ b', Till.Steps b b' ∧ b'.Fair ∧ Keeping b' w

/-- A Spark's turn. -/
theorem wp_sparkTurn_book (balanced : b.Balanced) (standing : b.standing = true)
    (trading : Trading b w) (i : Nat) :
    Action.wp (sparkTurn i) (fun _ => Trading b) (fun _ => True) w := by
  obtain ⟨b', steps, fair, keeping⟩ := trading
  have balanced' := steps.balanced balanced
  have standing' : b'.standing = true := steps.standing.trans standing
  unfold sparkTurn
  rw [Action.wp_bind]
  refine Action.wp_mono (wp_choose_book keeping i) (fun id w₁ chosen => ?_) fun _ _ => trivial
  obtain ⟨keeping₁, offered⟩ := chosen
  refine Action.wp_ite (fun _ => ⟨b', steps, fair, keeping₁⟩) fun some => ?_
  rw [Action.wp_bind, Action.wp_read]
  cases here : w₁.g.sparks[i]? with
  | none => exact ⟨b', steps, fair, keeping₁⟩
  | some s =>
      refine Action.wp_mono (wp_workContract_book keeping₁ standing' fair
        balanced'.accounts.solvent here (offered (Int.not_lt.mp some)).2) (fun _ w₂ worked => ?_)
        fun _ _ => trivial
      obtain ⟨b'', more, offers, keeping₂⟩ := worked
      refine ⟨b'', steps.trans more, ?_, keeping₂⟩
      unfold Till.Fair
      rw [offers]
      exact fair

/-- The Debt Clock is a move of the book. -/
theorem wp_debtClock_book (keeping : Keeping b w) :
    Action.wp debtClock (fun _ => Keeping b.clock) (fun _ => True) w := by
  have compounded : Keeping b.compound (w.setGyre Gyre.compound) := by
    refine ⟨keeping.quiet, ?_⟩
    rw [← keeping.till]
    rfl
  have due : clockPayment (w.setGyre Gyre.compound).g = b.compound.due := by
    rw [← compounded.till]
    rfl
  unfold debtClock
  rw [Action.wp_bind]
  change Action.wp _ _ _ (w.setGyre Gyre.compound)
  rw [Action.wp_bind, Action.wp_read, due]
  refine Action.wp_ite (fun some => ?_) fun none => ?_
  · rw [Action.wp_bind, Till.clock, if_pos some]
    change Action.wp _ _ _ ((w.setGyre Gyre.compound).setGyre (Gyre.retire b.compound.due))
    have retired : Keeping
        { b.compound with
          treasury := b.compound.treasury - b.compound.due
          debt := b.compound.debt - b.compound.due
          retired := b.compound.retired + b.compound.due }
        ((w.setGyre Gyre.compound).setGyre (Gyre.retire b.compound.due)) := by
      refine ⟨compounded.quiet, ?_⟩
      rw [← compounded.till]
      rfl
    exact wp_book retired .debt (-b.compound.due) (-1)
  · rw [Till.clock, if_neg none]
    exact compounded

/-- The last statement of a cycle brings the ward's own table up to date. -/
theorem wp_publish (keeping : Keeping b w) :
    Action.wp (runWard (updateWard w.g.cycle w.g.treasury w.g.debt w.g.issued w.g.retired))
      (fun _ => Keeping b.publish) (fun _ => True) w := by
  refine wp_existing ⟨keeping.quiet, ?_⟩
  rw [← keeping.till]
  simp only [Gyre.till, Till.publish, Till.figures, World.setGyre, Gyre.onTables, Gyre.setWard,
    List.map_map]
  rfl

/-- What the ward's own table shows is what the ward is. -/
def Till.Published (b : Till) : Prop := ∀ f ∈ b.shown, f = b.figures

theorem Till.published_publish (b : Till) : b.publish.Published := by
  intro f mem
  obtain ⟨_, -, rfl⟩ := List.mem_map.mp mem
  rfl

/-- What stands between the Queen's commission and `group_commit`. -/
def cycleWork (decided : Int) : Action World Bool := do
  if decided = -2 then Action.fail
  postBoard
  let n ← Action.read (·.g.sparks.length)
  Action.forEach (List.range n) sparkTurn
  debtClock
  let row ← built 5
  let g ← Action.read (·.g)
  runWard (updateWard g.cycle g.treasury g.debt g.issued g.retired)
  return row ∧ g.sparks.length < sparksPerWard ∧ g.cycle.tmod arrivalCycles = 0

theorem cycleWrites_eq : cycleWrites = commission >>= cycleWork := rfl

/-- Once the Queen has decided the book moves, and its figures are published last. -/
theorem wp_cycleWork_book (keeping : Keeping b w) (balanced : b.Balanced)
    (standing : b.standing = true) (decided : Int) :
    Action.wp (cycleWork decided)
      (fun _ w' => ∃ b', Till.Steps b b' ∧ b'.Published ∧ Keeping b' w') (fun _ => True) w := by
  unfold cycleWork
  refine Action.wp_ite (fun _ => trivial) fun _ => ?_
  rw [Action.wp_bind]
  refine Action.wp_mono (wp_postBoard_book keeping) (fun _ w₂ posted => ?_) fun _ _ => trivial
  obtain ⟨b₂, step₂, fair, keeping₂⟩ := posted
  rw [Action.wp_bind, Action.wp_read, Action.wp_bind]
  have start : Trading b w₂ := ⟨b₂, .single step₂, fair, keeping₂⟩
  refine Action.wp_mono (Action.wp_forEach (I := fun _ => Trading b) start
    fun i _ _ trading => wp_sparkTurn_book balanced standing trading i) (fun _ w₃ traded => ?_)
    fun _ _ => trivial
  obtain ⟨b₃, steps₃, -, keeping₃⟩ := traded
  rw [Action.wp_bind]
  refine Action.wp_mono (wp_debtClock_book keeping₃) (fun _ w₄ keeping₄ => ?_) fun _ _ => trivial
  rw [Action.wp_bind]
  refine (unbooked_built 5).wp keeping₄ fun row w₅ keeping₅ => ?_
  rw [Action.wp_bind, Action.wp_read, Action.wp_bind]
  refine Action.wp_mono (wp_publish keeping₅) (fun _ w₆ keeping₆ => ?_) fun _ _ => trivial
  exact ⟨_, (steps₃.tail .clock).tail .publish, Till.published_publish _, keeping₆⟩

/-- Between `group_begin` and `group_commit` the book moves, and its figures are published last. -/
theorem wp_cycleWrites_book (keeping : Keeping b w) (balanced : b.Balanced)
    (standing : b.standing = true) :
    Action.wp cycleWrites
      (fun _ w' => ∃ b', Till.Steps b b' ∧ b'.Published ∧ Keeping b' w') (fun _ => True) w := by
  rw [cycleWrites_eq, Action.wp_bind]
  apply Action.wp_mono (wp_commission_book keeping standing) _ fun _ _ => trivial
  intro decided w₁ commissioned
  have ⟨b₁, steps₁, keeping₁⟩ := commissioned
  apply Action.wp_mono (wp_cycleWork_book keeping₁ (steps₁.balanced balanced)
    (steps₁.standing.trans standing) decided) _ fun _ _ => trivial
  intro arriving w₂ worked
  have ⟨b₂, steps₂, published, keeping₂⟩ := worked
  exact ⟨b₂, steps₁.trans steps₂, published, keeping₂⟩

end Moves

end GyreWard
