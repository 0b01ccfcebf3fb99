/-
Module: GyreWard.Proofs.Crossing
Purpose: What a migration that succeeds moves between two honest wards, and when both are honest after
  it.
Trusted boundary: none
Main exports: Spark.reads, honest_iff, HonestAcross, honestAcross_iff, Spark.Agrees, MovesScrip,
  migration_moves_scrip_iff
-/
import GyreWard.Proofs.Books
import GyreWard.Proofs.Migration

namespace GyreWard

open Lib

/-! ### Honest wards -/

/-- What `scalar` reads off a Spark's database when the query does not fail. -/
def Spark.reads (query : SparkTables → Option Int) (s : Spark) : Int :=
  (if s.db.isOpen && s.db.now.created then query s.db.now else none).getD (-1)

/-- The purses of a ward, as its Sparks' databases have them. -/
def Gyre.purses (g : Gyre) : Int := (g.sparks.map (Spark.reads (selectSpark (·.purse)))).sum

/-- The salvage of a ward, as its Sparks' databases have it. -/
def Gyre.items (g : Gyre) : Int := (g.sparks.map (Spark.reads countHeld)).sum

/-- What a ward holds beyond what it issued. -/
def Gyre.surplus (g : Gyre) : Int := g.treasury + g.purses + g.retired + g.spent - g.issued

theorem sumSparks_reads {w : World} (quiet : Quiet w) (query : SparkTables → Option Int) :
    sumSparks query (List.range w.g.sparks.length) w =
      (.ret (w.g.sparks.map (Spark.reads query)).sum, w.after w.g.sparks.length) := by
  apply sumSparks_all quiet
  intro i s here
  unfold Gyre.askSpark
  rw [here]
  rfl

theorem purses_reads {w : World} (quiet : Quiet w) :
    purses w = (.ret w.g.purses, w.after w.g.sparks.length) := by
  unfold purses
  rw [Action.bind_ret (Action.read_apply _ _)]
  exact sumSparks_reads quiet _

/-- What `honest` compares. -/
theorem honest_reads {w : World} (quiet : Quiet w) :
    (honest w).1 = .ret (decide (w.g.surplus = 0 ∧ w.g.items ≤ w.g.found)) := by
  have pursed := purses_reads quiet
  have counted : sumSparks countHeld (List.range w.g.sparks.length) (w.after w.g.sparks.length) =
      (.ret w.g.items, _) :=
    sumSparks_reads (w := w.after w.g.sparks.length) quiet countHeld
  unfold honest
  rw [Action.bind_ret (Action.read_apply _ _), Action.bind_ret pursed]
  by_cases balanced : w.g.treasury + w.g.purses + w.g.retired + w.g.spent = w.g.issued
  · have surplus : w.g.surplus = 0 := by
      unfold Gyre.surplus
      omega
    rw [if_neg (not_not.mpr balanced), Action.bind_ret counted]
    simp [surplus]
  · have surplus : w.g.surplus ≠ 0 := by
      unfold Gyre.surplus
      omega
    rw [if_pos balanced]
    simp [surplus]

theorem honest_iff {g : Gyre} : g.Honest ↔ g.surplus = 0 ∧ g.items ≤ g.found := by
  unfold Gyre.Honest
  rw [honest_reads fun _ => rfl]
  simp only [Result.ret.injEq, decide_eq_true_eq]

/-- `honest_across` returns 0 when none of its queries fails. -/
def HonestAcross (wards : List Gyre) : Prop :=
  (honestAcross wards (Plane.fresh fun _ => false)).1 = .ret true

theorem sumAcross_quiet (wards : List Gyre) (plane : Plane) (quiet : ∀ k, plane.faults k = false) :
    ∃ held issued plane', sumAcross wards plane = (.ret (held, issued), plane') ∧
      held - issued = (wards.map Gyre.surplus).sum := by
  induction wards generalizing plane with
  | nil => exact ⟨0, 0, plane, rfl, rfl⟩
  | cons g rest ih =>
      have pursed : onPlane g purses plane =
          (.ret g.purses, (World.after g.sparks.length { g := g, plane := plane }).plane) := by
        have still : Quiet { g := g, plane := plane } := quiet
        unfold onPlane
        rw [purses_reads still]
      obtain ⟨held, issued, plane', later, sums⟩ :=
        ih (World.after g.sparks.length { g := g, plane := plane }).plane quiet
      apply Exists.intro (g.treasury + g.purses + g.retired + g.spent + held)
      apply Exists.intro (g.issued + issued)
      apply Exists.intro plane'
      constructor
      · unfold sumAcross
        rw [Action.bind_ret pursed, Action.bind_ret later]
        rfl
      · rw [List.map_cons, List.sum_cons, ← sums]
        unfold Gyre.surplus
        omega

theorem honestAcross_iff {wards : List Gyre} :
    HonestAcross wards ↔ (wards.map Gyre.surplus).sum = 0 := by
  obtain ⟨held, issued, plane', run, sums⟩ :=
    sumAcross_quiet wards (Plane.fresh fun _ => false) fun _ => rfl
  unfold HonestAcross honestAcross
  rw [Action.bind_ret run, ← sums]
  simp only [Action.pure_apply, Result.ret.injEq, decide_eq_true_eq]
  omega

/-! ### What moves -/

/-- A Spark's database holds one row, which says what the ward remembers of them. -/
structure Spark.Agrees (s : Spark) : Prop where
  isOpen : s.db.isOpen = true
  created : s.db.now.created = true
  row : s.db.now.spark.map (fun r => (r.id, r.purse, r.wear, r.place)) =
    [(s.id, s.purse, s.wear, s.place)]

instance (s : Spark) : Decidable s.Agrees :=
  decidable_of_iff (s.db.isOpen = true ∧ s.db.now.created = true ∧
    s.db.now.spark.map (fun r => (r.id, r.purse, r.wear, r.place)) =
      [(s.id, s.purse, s.wear, s.place)])
    ⟨fun h => ⟨h.1, h.2.1, h.2.2⟩, fun agrees => ⟨agrees.isOpen, agrees.created, agrees.row⟩⟩

theorem Spark.Agrees.one {s : Spark} (agrees : s.Agrees) : ∃ cycles wire owner, s.db.now.spark =
    [{ id := s.id, purse := s.purse, wear := s.wear, cycles, place := s.place, wire, owner }] := by
  obtain ⟨r, one, same⟩ := List.map_eq_singleton_iff.mp agrees.row
  simp only [Prod.mk.injEq] at same
  obtain ⟨id, purse, wear, place⟩ := same
  rw [one, ← id, ← purse, ← wear, ← place]
  exact ⟨r.cycles, r.wire, r.owner, rfl⟩

theorem Spark.Agrees.purse {s : Spark} (agrees : s.Agrees) :
    s.reads (selectSpark (·.purse)) = s.purse := by
  obtain ⟨cycles, wire, owner, row⟩ := agrees.one
  simp [Spark.reads, agrees.isOpen, agrees.created, selectSpark, row]

theorem Spark.Agrees.held {s : Spark} (agrees : s.Agrees) :
    s.reads countHeld = (s.db.now.held.length : Int) := by
  simp [Spark.reads, agrees.isOpen, agrees.created, countHeld]

/-- A Spark under the wire name of another ward. -/
def Spark.rewired (wire owner : Nat) (s : Spark) : Spark :=
  { s with db := { s.db with now := s.db.now.renamed s.id wire owner } }

/-- What changes with a name on the wire, and what does not. -/
theorem Spark.Agrees.rewired {s : Spark} (agrees : s.Agrees) (wire owner : Nat) :
    (s.rewired wire owner).Agrees ∧
      ∃ cycles, (s.rewired wire owner).db.now.spark =
        [{ id := s.id, purse := s.purse, wear := s.wear, cycles, place := s.place, wire, owner }] := by
  obtain ⟨cycles, wire', owner', row⟩ := agrees.one
  have renamed : (s.rewired wire owner).db.now.spark =
      [{ id := s.id, purse := s.purse, wear := s.wear, cycles, place := s.place, wire, owner }] := by
    simp [Spark.rewired, SparkTables.renamed, row]
  have same : (s.rewired wire owner).Agrees := by
    constructor
    · exact agrees.isOpen
    · exact agrees.created
    · rw [renamed]
      rfl
  exact ⟨same, cycles, renamed⟩

/-- A sum over a list without one of its items. -/
theorem sum_eraseIdx {α : Type} (f : α → Int) {items : List α} {i : Nat} {a : α}
    (here : items[i]? = some a) :
    ((items.eraseIdx i).map f).sum = (items.map f).sum - f a := by
  induction items generalizing i with
  | nil => cases here
  | cons b rest ih =>
      cases i with
      | zero =>
          obtain rfl := Option.some.inj here
          rw [List.eraseIdx_cons_zero, List.map_cons, List.sum_cons]
          omega
      | succ i =>
          have later := ih (i := i) here
          rw [List.eraseIdx_cons_succ, List.map_cons, List.sum_cons, later, List.map_cons,
            List.sum_cons]
          omega

/-- The accounts of a ward but for what it issued and what it found. -/
structure SameAccounts (g g' : Gyre) : Prop where
  treasury : g'.treasury = g.treasury
  debt : g'.debt = g.debt
  retired : g'.retired = g.retired
  spent : g'.spent = g.spent

/-- The wards after a migration that succeeds: what moved, and what did not. -/
structure Crossed (i : Nat) (s : Spark) (wire : Nat) (p p' : Passage) : Prop where
  left : p'.leaving.sparks = p.leaving.sparks.eraseIdx i
  came : p'.entering.sparks =
    p.entering.sparks ++ [s.rewired wire (classOwner .spark p.entering.wardNo)]
  leavingAccounts : SameAccounts p.leaving p'.leaving
  enteringAccounts : SameAccounts p.entering p'.entering
  leavingIssued : p'.leaving.issued = p.leaving.issued - s.purse
  enteringIssued : p'.entering.issued = p.entering.issued + s.purse
  leavingFound : p'.leaving.found = p.leaving.found - p.carried i
  enteringFound : p'.entering.found = p.entering.found + p.carried i

theorem move_eq {p : Passage} {i : Nat} {s : Spark} (here : p.leaving.sparks[i]? = some s) :
    p.move i =
      { p with
        leaving := { p.leaving with sparks := p.leaving.sparks.eraseIdx i }
        entering := { p.entering with sparks := p.entering.sparks ++ [s] } } := by
  unfold Passage.move
  rw [here]

/-- A migration that succeeds has crossed. -/
theorem migrate_crossed {idx : Int} {p p' : Passage} (ran : migrate idx p = (.ret (), p')) :
    ∃ s wire, p.leaving.sparks[idx.toNat]? = some s ∧
      wireId p.entering.wardNo (sparkLocal s.id) = some wire ∧ Crossed idx.toNat s wire p p' := by
  by_cases refuses : p.Refuses idx
  · rw [migrate_refused refuses] at ran
    cases ran
  have inside : idx.toNat < p.leaving.sparks.length := by
    unfold Passage.Refuses Gyre.nsparks at refuses
    omega
  have here := List.getElem?_eq_getElem inside
  generalize p.leaving.sparks[idx.toNat] = s at here
  have comes := migrate_comes refuses here
  rw [ran] at comes
  generalize idx.toNat = i at here comes
  cases comes with
  | @moved wire books welcomes named accepts =>
      apply Exists.intro s
      apply Exists.intro wire
      have there : (((((p.settled i s).departed s).arrived s).renamed i s wire).later 4).leaving.sparks[i]? =
          some (s.rewired wire (classOwner .spark p.entering.wardNo)) := by
        change (p.leaving.sparks.modify i _)[i]? = _
        rw [List.getElem?_modify_eq, here]
        rfl
      rw [move_eq there]
      constructor
      · exact here
      constructor
      · exact named
      constructor
      · change (p.leaving.sparks.modify i _).eraseIdx i = _
        rw [List.eraseIdx_modify_of_eq]
      · rfl
      · exact ⟨rfl, rfl, rfl, rfl⟩
      · exact ⟨rfl, rfl, rfl, rfl⟩
      · rfl
      · rfl
      · rfl
      · rfl

/-- A migration moved a Spark with their scrip and their salvage, and nothing else. -/
structure MovesScrip (i : Nat) (s : Spark) (p p' : Passage) : Prop where
  leavingHonest : p'.leaving.Honest
  enteringHonest : p'.entering.Honest
  across : ∀ (wards : List Gyre) (j k : Nat), j ≠ k → wards[j]? = some p.leaving →
    wards[k]? = some p.entering → HonestAcross wards →
      HonestAcross ((wards.set j p'.leaving).set k p'.entering)
  left : p'.leaving.sparks = p.leaving.sparks.eraseIdx i
  came : ∃ s', p'.entering.sparks = p.entering.sparks ++ [s'] ∧
    s'.id = s.id ∧ s'.purse = s.purse ∧ s'.wear = s.wear ∧ s'.place = s.place ∧
    s'.db.now.held = s.db.now.held ∧
    ∃ wire cycles, wireId p.entering.wardNo (sparkLocal s.id) = some wire ∧ s'.db.now.spark =
      [{ id := s.id, purse := s.purse, wear := s.wear, cycles, place := s.place, wire
         owner := classOwner .spark p.entering.wardNo }]
  leavingAccounts : SameAccounts p.leaving p'.leaving
  enteringAccounts : SameAccounts p.entering p'.entering
  issued : p'.leaving.issued + p'.entering.issued = p.leaving.issued + p.entering.issued
  found : p'.leaving.found + p'.entering.found = p.leaving.found + p.entering.found

section Crossings

variable {i : Nat} {s : Spark} {wire : Nat} {p p' : Passage}

/-- The ward that is left holds what it issued. -/
theorem Crossed.leavingSums (crossed : Crossed i s wire p p') (agrees : s.Agrees)
    (here : p.leaving.sparks[i]? = some s) :
    p'.leaving.surplus = p.leaving.surplus ∧
      p'.leaving.items = p.leaving.items - s.db.now.held.length := by
  have pursed : p'.leaving.purses = p.leaving.purses - s.purse := by
    unfold Gyre.purses
    rw [crossed.left, sum_eraseIdx _ here, agrees.purse]
  constructor
  · unfold Gyre.surplus
    rw [pursed, crossed.leavingAccounts.treasury, crossed.leavingAccounts.retired,
      crossed.leavingAccounts.spent, crossed.leavingIssued]
    omega
  · unfold Gyre.items
    rw [crossed.left, sum_eraseIdx _ here, agrees.held]

/-- So does the ward that is entered. -/
theorem Crossed.enteringSums (crossed : Crossed i s wire p p') (agrees : s.Agrees) :
    p'.entering.surplus = p.entering.surplus ∧
      p'.entering.items = p.entering.items + s.db.now.held.length := by
  have rewired := (agrees.rewired wire (classOwner .spark p.entering.wardNo)).1
  have pursed : p'.entering.purses = p.entering.purses + s.purse := by
    unfold Gyre.purses
    rw [crossed.came, List.map_append, List.sum_append, List.map_singleton, List.sum_singleton,
      rewired.purse]
    rfl
  constructor
  · unfold Gyre.surplus
    rw [pursed, crossed.enteringAccounts.treasury, crossed.enteringAccounts.retired,
      crossed.enteringAccounts.spent, crossed.enteringIssued]
    omega
  · unfold Gyre.items
    rw [crossed.came, List.map_append, List.sum_append, List.map_singleton, List.sum_singleton,
      rewired.held]
    rfl

/-- Wards that hold as much beyond what they issued as those they stand for are as honest across the
game. -/
theorem honestAcross_set {wards : List Gyre} {j k : Nat} {g g' h h' : Gyre}
    (there : wards[j]? = some g) (other : wards[k]? = some h) (same : g'.surplus = g.surplus)
    (same' : h'.surplus = h.surplus) (honest : HonestAcross wards) :
    HonestAcross ((wards.set j g').set k h') := by
  rw [honestAcross_iff] at honest ⊢
  have unchanged : ((wards.set j g').set k h').map Gyre.surplus = wards.map Gyre.surplus := by
    apply List.ext_getElem?
    intro n
    rw [List.getElem?_map, List.getElem?_map, List.getElem?_set, List.getElem?_set]
    have inside := (List.getElem?_eq_some_iff.mp there).1
    have inside' := (List.getElem?_eq_some_iff.mp other).1
    by_cases last : k = n
    · subst last
      rw [other]
      simp [inside', same']
    · by_cases first : j = n
      · subst first
        rw [there]
        simp [last, inside, same]
      · simp [last, first]
  rw [unchanged]
  exact honest

/-- What the count of a Spark's items comes to. -/
theorem carried_word (agrees : s.Agrees) (here : p.leaving.sparks[i]? = some s) :
    p.carried i = if p.word 0 then -1 else (s.db.now.held.length : Int) := by
  unfold Passage.carried Gyre.askSpark
  rw [here]
  simp [agrees.isOpen, agrees.created, countHeld]

/-- A migration between two honest wards that succeeds moves the Spark with their scrip and nothing
else, and leaves both honest, exactly when the count of their items is answered, or the ward they go
to has found so many more than it holds that one more missing is not noticed. -/
theorem migration_moves_scrip_iff {idx : Int} (leavingAgrees : ∀ s ∈ p.leaving.sparks, s.Agrees)
    (leavingHonest : p.leaving.Honest) (enteringHonest : p.entering.Honest)
    (here : p.leaving.sparks[idx.toNat]? = some s) (ran : migrate idx p = (.ret (), p')) :
    MovesScrip idx.toNat s p p' ↔
      p.plane.faults p.plane.tick = false ∨
        p.entering.items + s.db.now.held.length + 1 ≤ p.entering.found := by
  have agrees := leavingAgrees s (List.mem_of_getElem? here)
  obtain ⟨s', wire, there, named, crossed⟩ := migrate_crossed ran
  obtain rfl := Option.some.inj (here.symm.trans there)
  have leavingSums := crossed.leavingSums agrees here
  have enteringSums := crossed.enteringSums agrees
  have carried := carried_word agrees here
  have leavingFound := crossed.leavingFound
  have enteringFound := crossed.enteringFound
  rw [honest_iff] at leavingHonest enteringHonest
  change _ ↔ p.word 0 = false ∨ _
  constructor
  · intro moves
    have honest := (honest_iff.mp moves.enteringHonest).2
    cases word : p.word 0 with
    | false => exact Or.inl rfl
    | true =>
        rw [word, if_pos rfl] at carried
        apply Or.inr
        omega
  · intro answered
    have few : p.carried idx.toNat ≤ s.db.now.held.length := by
      rw [carried]
      split
      · omega
      · exact le_rfl
    have many : p.entering.items + s.db.now.held.length ≤ p.entering.found + p.carried idx.toNat := by
      rw [carried]
      split
      · rename_i word
        rcases answered with quiet | slack
        · rw [quiet] at word
          cases word
        · omega
      · omega
    constructor
    · rw [honest_iff]
      constructor
      · exact leavingSums.1.trans leavingHonest.1
      · omega
    · rw [honest_iff]
      constructor
      · exact enteringSums.1.trans enteringHonest.1
      · omega
    · intro wards j k _ first second honest
      exact honestAcross_set first second leavingSums.1 enteringSums.1 honest
    · exact crossed.left
    · obtain ⟨-, cycles, row⟩ := agrees.rewired wire (classOwner .spark p.entering.wardNo)
      exact ⟨_, crossed.came, rfl, rfl, rfl, rfl, rfl, wire, cycles, named, row⟩
    · exact crossed.leavingAccounts
    · exact crossed.enteringAccounts
    · rw [crossed.leavingIssued, crossed.enteringIssued]
      omega
    · omega

end Crossings

theorem crossing_honest (faults : Nat → Bool) :
    (∀ s ∈ (crossing faults).leaving.sparks, s.Agrees) ∧ (crossing faults).leaving.Honest ∧
      (crossing faults).entering.Honest := by
  have left : (honest { g := (crossing fun _ => false).leaving
                        plane := Plane.fresh fun _ => false }).1 = .ret true := by
    decide +kernel
  have entered : (honest { g := (crossing fun _ => false).entering
                           plane := Plane.fresh fun _ => false }).1 = .ret true := by
    decide +kernel
  have agrees : ∀ s ∈ (crossing fun _ => false).leaving.sparks, s.Agrees := by decide +kernel
  exact ⟨agrees, left, entered⟩

/-- A Spark crosses with ten of scrip. -/
theorem a_spark_crosses :
    ∃ s p', (crossing fun _ => false).leaving.sparks[(0 : Int).toNat]? = some s ∧ s.purse = 10 ∧
      migrate 0 (crossing fun _ => false) = (.ret (), p') ∧
      MovesScrip (0 : Int).toNat s (crossing fun _ => false) p' := by
  obtain ⟨agrees, left, entered⟩ := crossing_honest fun _ => false
  have paid : (crossing fun _ => false).leaving.sparks[(0 : Int).toNat]?.map (·.purse) = some 10 := by
    decide +kernel
  have came : (migrate 0 (crossing fun _ => false)).1 = .ret () := by decide +kernel
  have answered : (crossing fun _ => false).plane.faults (crossing fun _ => false).plane.tick = false :=
    rfl
  generalize (crossing fun _ => false) = p at *
  obtain ⟨s, here, purse⟩ := Option.map_eq_some_iff.mp paid
  have moves := migration_moves_scrip_iff agrees left entered here (ran_to came)
  exact ⟨s, _, here, purse, ran_to came, moves.mpr (Or.inl answered)⟩

/-- The count of the first Spark's items fails, and the migration succeeds.  The ward they go to has
found one item less than none, and is no longer honest. -/
theorem unanswered_count_breaks_the_books :
    ∃ s p', (crossing fun k => k == 0).leaving.sparks[(0 : Int).toNat]? = some s ∧
      (∀ s ∈ (crossing fun k => k == 0).leaving.sparks, s.Agrees) ∧
      (crossing fun k => k == 0).leaving.Honest ∧ (crossing fun k => k == 0).entering.Honest ∧
      migrate 0 (crossing fun k => k == 0) = (.ret (), p') ∧ p'.entering.found = -1 ∧
      ¬ MovesScrip (0 : Int).toNat s (crossing fun k => k == 0) p' := by
  obtain ⟨agrees, left, entered⟩ := crossing_honest fun k => k == 0
  have there : (crossing fun k => k == 0).leaving.sparks[(0 : Int).toNat]?.map (·.purse) = some 10 := by
    decide +kernel
  have came : (migrate 0 (crossing fun k => k == 0)).1 = .ret () := by decide +kernel
  have lost : (migrate 0 (crossing fun k => k == 0)).2.entering.found = -1 := by decide +kernel
  have broken : (honest { g := (migrate 0 (crossing fun k => k == 0)).2.entering
                          plane := Plane.fresh fun _ => false }).1 = .ret false := by
    decide +kernel
  generalize (crossing fun k => k == 0) = p at *
  obtain ⟨s, here, -⟩ := Option.map_eq_some_iff.mp there
  apply Exists.intro s
  apply Exists.intro (migrate 0 p).2
  refine ⟨here, agrees, left, entered, ran_to came, lost, ?_⟩
  intro moves
  have both := broken.symm.trans moves.enteringHonest
  cases both

end GyreWard
