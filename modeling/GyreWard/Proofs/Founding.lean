/-
Module: GyreWard.Proofs.Founding
Purpose: What `join_ward` and `found_ward` make of a ward, and what they leave when they fail; and
  that they do not, when nothing else does.
Trusted boundary: none
Main exports: wireId_inj, newSpark, Gyre.withSpark, wp_joinWard, foundedTables, Gyre.foundedAs,
  wp_foundWard, lands_joinWard, lands_foundWard
-/
import GyreWard.Proofs.Statements

namespace GyreWard

open Lib
open Lib.Action (wp Lands)

/-! ### Names on the wire -/

theorem wireId_eq_some {ward : Int} {loc wire : Nat} :
    wireId ward loc = some wire ↔
      0 ≤ ward ∧ ward.toNat < wireWardMax ∧ loc < wireLocalMax ∧
        wire = ward.toNat * wireLocalMax + loc := by
  unfold wireId
  split_ifs with unfit
  · simp only [false_iff]
    omega
  · have fits : loc < 2 ^ wireLocalBits := by
      change loc < wireLocalMax
      omega
    rw [← Nat.shiftLeft_add_eq_or_of_lt fits, Nat.shiftLeft_eq]
    change some (ward.toNat * wireLocalMax + loc) = some wire ↔ _
    rw [Option.some.injEq]
    constructor
    · intro same
      omega
    · intro same
      exact same.2.2.2.symm

/-- A wire name says which ward it is of, and which of the ward's things it names. -/
theorem wireId_inj {ward ward' : Int} {loc loc' wire : Nat} (named : wireId ward loc = some wire)
    (named' : wireId ward' loc' = some wire) : ward = ward' ∧ loc = loc' := by
  have ⟨real, _, fits, made⟩ := wireId_eq_some.mp named
  have ⟨real', _, fits', made'⟩ := wireId_eq_some.mp named'
  have split : ward.toNat = ward'.toNat ∧ loc = loc' := by
    unfold wireLocalMax wireLocalBits at *
    omega
  constructor
  · omega
  · exact split.2

/-! ### Joining a ward -/

/-- A Spark who has just joined a ward. -/
def newSpark (dbPrefix : Text) (ward id : Int) : Spark :=
  { db :=
      { name := sparkName dbPrefix id, isOpen := true, saved := none
        now :=
          { created := true
            spark := [sparkRow id ((wireId ward (sparkLocal id)).getD 0) (classOwner .spark ward)] } }
    id, purse := 0, wear := 0, place := sparkHome id }

/-- The ward with a new Spark at the end of the array. -/
def Gyre.withSpark (id : Int) (g : Gyre) : Gyre :=
  { g with sparks := g.sparks ++ [newSpark g.dbPrefix g.wardNo id] }

/-- There is a seat in the ward for a new Spark, and a name for them on the wire. -/
structure HasSeat (id : Int) (g : Gyre) : Prop where
  room : g.sparks.length < sparksPerWard
  named : (wireId g.wardNo (sparkLocal id)).isSome = true

theorem wp_wireIdOrExit {Q : Nat → World → Prop} {E : World → Prop} {w : World} {ward : Int}
    {loc : Nat} (named : ∀ wire, wireId ward loc = some wire → Q wire w) :
    wp (wireIdOrExit ward loc) Q E w := by
  unfold wireIdOrExit
  cases wire : wireId ward loc with
  | some n => exact named n wire
  | none => trivial

/-- `join_ward` seats a new Spark, or leaves the ward as it was. -/
theorem wp_joinWard (id : Int) (w : World) :
    wp (joinWard id) (fun _ w' => HasSeat id w.g ∧ w'.g = w.g.withSpark id)
      (fun w' => w'.g = w.g) w := by
  unfold joinWard
  rw [Action.wp_bind, Action.wp_read]
  refine Action.wp_ite (fun _ => rfl) fun full => ?_
  dsimp only
  rw [Action.wp_bind, Action.wp_read]
  -- the open, its pragmas, `DROP` and `CREATE` touch nothing of the ward in memory
  rw [Action.wp_bind]
  refine wp_fallible rfl ?_
  rw [Action.wp_bind]
  refine wp_fallible rfl ?_
  rw [Action.wp_bind]
  refine wp_fallible rfl ?_
  rw [Action.wp_bind]
  refine wp_fallible rfl ?_
  rw [Action.wp_bind]
  refine wp_fallible rfl ?_
  rw [Action.wp_bind]
  refine wp_wireIdOrExit fun wire named => ?_
  rw [Action.wp_bind]
  refine wp_fallible rfl ?_
  rw [Action.wp_bind, Action.wp_read]
  refine ⟨⟨?_, ?_⟩, ?_⟩
  · rw [not_or] at full
    exact Nat.not_le.mp full.2
  · rw [named]
    rfl
  · simp [Gyre.withSpark, newSpark, named]
    rfl

/-! ### Founding a ward -/

/-- The row of venue `i` in a ward that has just been founded. -/
def Venue.founded (ward : Int) (i : Nat) (v : Venue) : VenueRow :=
  { id := i, name := v.name, cost := v.cost, built := 0, place := v.place
    wire := (wireId ward (wireVenueBase + i)).getD 0, owner := classOwner .venue ward }

/-- The Queen's own row. -/
def queenRow (ward : Int) : WardRow :=
  { cycle := 0, treasury := 300, debt := 4000, issued := 300, retired := 0
    place := nonphysicalPlace wireQueen, wire := (wireId ward wireQueen).getD 0
    owner := classOwner .queen ward }

/-- The tables of a ward that has just been founded. -/
def foundedTables (ward : Int) : WardTables :=
  { created := true
    ward := [queenRow ward]
    venue := venues.zipIdx.map fun (v, i) => v.founded ward i }

/-- The ward `found_ward` makes, before anybody joins it. -/
def Gyre.foundedAs (dbPrefix : Text) (seed : UInt64) (base : Int) (g : Gyre) : Gyre :=
  Gyre.opened seed
    { g with
      ward :=
        { name := fitted 128 (dbPrefix ++ text "-ward.db"), isOpen := true
          now := foundedTables (base.tdiv sparksPerWard), saved := none }
      dbPrefix := fitted 64 dbPrefix, wardNo := base.tdiv sparksPerWard }

/-- New Sparks, one after another. -/
def Gyre.withSparks (ids : List Int) (g : Gyre) : Gyre :=
  ids.foldl (fun g id => g.withSpark id) g

/-- `open_db` opens the ward's database on whatever the store holds, or leaves it closed. -/
theorem wp_openWard (name : Text) (w : World) :
    wp (openWard name)
      (fun _ w' => ∃ t, w'.g =
        { w.g with ward := { name, isOpen := true, now := t, saved := none } })
      (fun w' => w'.g = { w.g with ward := Conn.null {} }) w := by
  unfold openWard
  rw [Action.wp_bind]
  change wp _ _ _ (w.setGyre fun g => { g with ward := Conn.null {} })
  rw [Action.wp_bind, Action.wp_read, Action.wp_bind]
  refine wp_fallible rfl ?_
  rw [Action.wp_bind]
  refine wp_fallible rfl ?_
  rw [Action.wp_bind]
  refine wp_fallible rfl ?_
  rw [Action.wp_bind, Action.wp_read]
  exact ⟨_, rfl⟩

/-- A ward on which nothing but its tables and its books has been touched, outside any
transaction. -/
structure Unfounded (g g' : Gyre) : Prop where
  sparks : g'.sparks = g.sparks
  saved : g'.ward.saved = none

/-- The venues of a list with their places, inserted one after another. -/
theorem wp_foundVenues (g : Gyre) :
    ∀ (items : List (Venue × Nat)) (w : World), Unfounded g w.g → w.g.ward.isOpen = true →
      w.g.ward.now.created = true →
      wp (Action.forEach items fun (v, i) => foundVenue i v)
        (fun _ w' => w'.g = w.g.setWard fun c =>
          { c with now := { c.now with
              venue := c.now.venue ++ items.map fun (v, i) => v.founded w.g.wardNo i } })
        (fun w' => Unfounded g w'.g) w
  | [], w, _, _, _ => by
      simp [Action.forEach, Action.wp, Action.pure, Gyre.setWard]
  | (v, i) :: rest, w, unfounded, isOpen, created => by
      change wp (foundVenue i v >>= fun _ => _) _ _ w
      rw [Action.wp_bind]
      unfold foundVenue
      rw [Action.wp_bind, Action.wp_read, Action.wp_bind]
      refine wp_wireIdOrExit fun wire named => wp_runWard ⟨unfounded.sparks, unfounded.saved⟩ ?_
      intro _ t inserted
      rw [insertVenue, WardTables.existing, if_pos created] at inserted
      split at inserted
      · cases inserted
      · obtain rfl := Option.some.inj inserted
        have row : v.founded w.g.wardNo i =
            { id := i, name := v.name, cost := v.cost, built := 0, place := v.place, wire
              owner := classOwner .venue w.g.wardNo } := by
          rw [Venue.founded, named]
          rfl
        rw [← row]
        refine Action.wp_mono (wp_foundVenues g rest _ ?_ isOpen created) (fun _ w' made => ?_)
          fun _ h => h
        · exact ⟨unfounded.sparks, unfounded.saved⟩
        · rw [made]
          simp [World.setGyre, Gyre.setWard]

/-- Sparks join one after another until one does not. -/
theorem wp_joinWards (base : Int) :
    ∀ (places : List Nat) (w : World),
      wp (Action.forEach places fun i => joinWard (base + i))
        (fun _ w' => w'.g = w.g.withSparks (places.map fun (i : Nat) => base + i))
        (fun w' => ∃ ids, w'.g = w.g.withSparks ids ∧ ∀ id ∈ ids, base ≤ id) w
  | [], w => rfl
  | i :: rest, w => by
      change wp (joinWard (base + i) >>= fun _ => _) _ _ w
      rw [Action.wp_bind]
      refine Action.wp_mono (wp_joinWard (base + i) w) (fun _ w₁ joined => ?_) fun w' same => ?_
      · refine Action.wp_mono (wp_joinWards base rest w₁) (fun _ w' made => ?_) fun w' made => ?_
        · rw [made, joined.2]
          rfl
        · obtain ⟨ids, made, further⟩ := made
          refine ⟨(base + i) :: ids, ?_, ?_⟩
          · rw [made, joined.2]
            rfl
          · exact List.forall_mem_cons.mpr ⟨Int.le_add_of_nonneg_right (Int.natCast_nonneg i), further⟩
      · exact ⟨[], same, fun _ mem => by cases mem⟩

/-- `found_ward` founds the ward, or stops before the first Spark, or stops between two. -/
theorem wp_foundWard (dbPrefix : Text) (n : Nat) (seed : UInt64) (base : Int) (w : World) :
    wp (foundWard dbPrefix n seed base)
      (fun _ w' => w'.g = (w.g.foundedAs dbPrefix seed base).withSparks
        ((List.range n).map fun (i : Nat) => base + i))
      (fun w' => Unfounded w.g w'.g ∨
        ∃ ids, w'.g = (w.g.foundedAs dbPrefix seed base).withSparks ids ∧ ∀ id ∈ ids, base ≤ id) w := by
  unfold foundWard
  rw [Action.wp_bind]
  refine Action.wp_mono (wp_openWard _ w) (fun _ w₁ opened => ?_) fun w' closed => ?_
  swap
  · rw [closed]
    exact Or.inl ⟨rfl, rfl⟩
  obtain ⟨t, opened⟩ := opened
  obtain ⟨g₁, plane, grp, stop⟩ := w₁
  obtain rfl : g₁ = _ := opened
  rw [Action.wp_bind]
  change wp _ _ _ (World.setGyre (fun g =>
    { g with dbPrefix := fitted 64 dbPrefix, wardNo := base.tdiv sparksPerWard }) _)
  -- the two statements that clear the store and create the tables
  rw [Action.wp_bind]
  refine wp_runWard (Or.inl ⟨rfl, rfl⟩) fun _ t₁ dropped => ?_
  obtain rfl := Option.some.inj dropped
  rw [Action.wp_bind]
  refine wp_runWard (Or.inl ⟨rfl, rfl⟩) fun _ t₂ created => ?_
  obtain rfl := Option.some.inj created
  rw [Action.wp_bind]
  refine Action.wp_mono (wp_foundVenues w.g _ _ ⟨rfl, rfl⟩ rfl rfl) (fun _ w₂ listed => ?_)
    fun _ h => Or.inl h
  obtain ⟨g₂, plane₂, grp₂, stop₂⟩ := w₂
  obtain rfl : g₂ = _ := listed
  rw [Action.wp_bind]
  change wp _ _ _ (World.setGyre (Gyre.opened seed) _)
  rw [Action.wp_bind, Action.wp_read, Action.wp_bind]
  refine wp_wireIdOrExit fun wire named => ?_
  rw [Action.wp_bind]
  refine wp_runWard (Or.inl ⟨rfl, rfl⟩) fun _ t₃ inserted => ?_
  -- the Queen's row is the first of her table, so nothing has its name
  obtain rfl := Option.some.inj inserted
  have queen : wire = (wireId (base.tdiv sparksPerWard) wireQueen).getD 0 := by
    rw [show wireId (base.tdiv sparksPerWard) wireQueen = some wire from named]
    rfl
  subst queen
  refine Action.wp_mono (wp_joinWards base (List.range n) _) (fun _ w' joined => ?_)
    fun w' joined => ?_
  · exact joined
  · exact Or.inr joined

/-! ### On a plane that fails nothing -/

theorem lands_fallible {w : World} (quiet : Quiet w) {Q : Unit → World → Prop}
    (after : Q () (w.after 1)) : Lands fallible Q w :=
  .of_run (fallible_quiet quiet) after

theorem lands_wireIdOrExit {ward : Int} {loc wire : Nat} (named : wireId ward loc = some wire)
    {w : World} {Q : Nat → World → Prop} (after : Q wire w) : Lands (wireIdOrExit ward loc) Q w := by
  apply Lands.of_run _ after
  rw [wireIdOrExit, named]
  rfl

theorem lands_runWard {w : World} (quiet : Quiet w) (isOpen : w.g.ward.isOpen = true)
    {stmt : WardTables → Option WardTables} {t : WardTables} (effect : stmt w.g.ward.now = some t)
    {Q : Unit → World → Prop}
    (after : Q () ((w.after 1).setGyre (Gyre.setWard fun c => { c with now := t }))) :
    Lands (runWard stmt) Q w :=
  .of_run (runWard_quiet quiet isOpen effect) after

/-- A Spark who has a seat gets it. -/
theorem lands_joinWard {id : Int} {w : World} (quiet : Quiet w) (seat : HasSeat id w.g) :
    Lands (joinWard id) (fun _ w' => Quiet w' ∧ w'.g = w.g.withSpark id) w := by
  have room : ¬ (maxSparks ≤ w.g.sparks.length ∨ sparksPerWard ≤ w.g.sparks.length) := by
    have := seat.room
    unfold maxSparks sparksPerWard at *
    omega
  have ⟨wire, named⟩ := Option.isSome_iff_exists.mp seat.named
  unfold joinWard
  apply Lands.bind
  apply Lands.of_run rfl
  rw [if_neg room]
  apply Lands.bind
  apply Lands.of_run rfl
  dsimp only
  -- the open, its pragmas, `DROP` and `CREATE`
  apply Lands.bind
  apply lands_fallible
  · exact quiet
  apply Lands.bind
  apply lands_fallible
  · exact quiet
  apply Lands.bind
  apply lands_fallible
  · exact quiet
  apply Lands.bind
  apply lands_fallible
  · exact quiet
  apply Lands.bind
  apply lands_fallible
  · exact quiet
  apply Lands.bind
  apply lands_wireIdOrExit named
  apply Lands.bind
  apply lands_fallible
  · exact quiet
  apply Lands.bind
  apply Lands.of_run rfl
  apply Lands.of_run rfl
  constructor
  · exact quiet
  · simp [World.setGyre, Gyre.withSpark, newSpark, named]

/-- There are seats for a list of new Sparks, one after another. -/
theorem lands_joinWards (base : Int) (places : List Nat) {w : World} (quiet : Quiet w)
    (room : w.g.sparks.length + places.length ≤ sparksPerWard)
    (named : ∀ i ∈ places, (wireId w.g.wardNo (sparkLocal (base + i))).isSome = true) :
    Lands (Action.forEach places fun i => joinWard (base + i)) (fun _ w' => Quiet w') w := by
  induction places generalizing w with
  | nil => exact .of_run rfl quiet
  | cons i rest ih =>
      change Lands (joinWard (base + i) >>= fun _ => _) _ _
      apply Lands.bind
      have seat : HasSeat (base + i) w.g := by
        constructor
        · rw [List.length_cons] at room
          omega
        · exact named i (List.mem_cons_self ..)
      apply (lands_joinWard quiet seat).mono
      rintro _ w' ⟨quiet', joined⟩
      apply ih quiet'
      · rw [joined, Gyre.withSpark, List.length_append, List.length_singleton]
        rw [List.length_cons] at room
        omega
      · intro k later
        rw [joined]
        exact named k (List.mem_cons_of_mem _ later)

/-- A venue whose names are free is inserted. -/
theorem lands_foundVenue {i wire : Nat} (v : Venue) {w : World} (quiet : Quiet w)
    (isOpen : w.g.ward.isOpen = true) (created : w.g.ward.now.created = true)
    (named : wireId w.g.wardNo (wireVenueBase + i) = some wire)
    (free : ∀ r ∈ w.g.ward.now.venue, r.id ≠ i ∧ r.wire ≠ wire) :
    Lands (foundVenue i v)
      (fun _ w' => Quiet w' ∧ ∃ row : VenueRow, row.id = i ∧ row.wire = wire ∧
        w'.g = w.g.setWard fun c =>
          { c with now := { c.now with venue := c.now.venue ++ [row] } }) w := by
  have absent : ¬ (w.g.ward.now.venue.any fun r => r.id == (i : Int) || r.wire == wire) = true := by
    intro clash
    have ⟨r, mem, same⟩ := List.any_eq_true.mp clash
    have ⟨other, apart⟩ := free r mem
    simp [other, apart] at same
  unfold foundVenue
  apply Lands.bind
  apply Lands.of_run rfl
  apply Lands.bind
  apply lands_wireIdOrExit named
  apply lands_runWard quiet isOpen
  · rw [insertVenue, WardTables.existing, if_pos created, if_neg absent]
  · constructor
    · exact quiet
    · exact ⟨_, rfl, rfl, rfl⟩

/-- Venues none of whose names is taken yet, inserted one after another. -/
theorem lands_foundVenues {ward : Int} (real : 0 ≤ ward) (few : ward.toNat < wireWardMax)
    (items : List (Venue × Nat)) {w : World} (quiet : Quiet w) (here : w.g.wardNo = ward)
    (isOpen : w.g.ward.isOpen = true) (created : w.g.ward.now.created = true)
    (taken : ∀ r ∈ w.g.ward.now.venue, ∃ k : Nat, r.id = k ∧
      wireId ward (wireVenueBase + k) = some r.wire ∧ k ∉ items.map Prod.snd)
    (nodup : (items.map Prod.snd).Nodup) (small : ∀ v ∈ items, v.2 < nVenues) :
    Lands (Action.forEach items fun (v, i) => foundVenue i v) (fun _ w' => Quiet w') w := by
  induction items generalizing w with
  | nil => exact .of_run rfl quiet
  | cons item rest ih =>
      have ⟨fresh, nodupRest⟩ := List.nodup_cons.mp nodup
      have named : wireId ward (wireVenueBase + item.2) =
          some (ward.toNat * wireLocalMax + (wireVenueBase + item.2)) := by
        apply wireId_eq_some.mpr
        have := small item (List.mem_cons_self ..)
        unfold nVenues at this
        unfold wireVenueBase wireLocalMax wireLocalBits
        omega
      change Lands (foundVenue item.2 item.1 >>= fun _ => _) _ _
      apply Lands.bind
      have free : ∀ r ∈ w.g.ward.now.venue, r.id ≠ item.2 ∧
          r.wire ≠ ward.toNat * wireLocalMax + (wireVenueBase + item.2) := by
        intro r mem
        have ⟨k, numbered, wired, other⟩ := taken r mem
        have apart : k ≠ item.2 := fun same => other (same ▸ List.mem_cons_self ..)
        constructor
        · intro same
          exact apart (Int.ofNat.inj (numbered.symm.trans same))
        · intro same
          rw [same] at wired
          have := (wireId_inj wired named).2
          omega
      apply (lands_foundVenue item.1 quiet isOpen created (here.symm ▸ named) free).mono
      rintro _ w' ⟨quiet', row, numbered, wired, made⟩
      have venue : w'.g.ward.now.venue = w.g.ward.now.venue ++ [row] := by
        rw [made]
        rfl
      apply ih quiet'
      · rw [made]
        exact here
      · rw [made]
        exact isOpen
      · rw [made]
        exact created
      · intro r mem
        rw [venue] at mem
        rcases List.mem_append.mp mem with old | new
        · have ⟨k, numbered, wired, other⟩ := taken r old
          exact ⟨k, numbered, wired, fun later => other (List.mem_cons_of_mem _ later)⟩
        · rw [List.mem_singleton.mp new, wired]
          exact ⟨item.2, numbered, named, fresh⟩
      · exact nodupRest
      · exact fun v later => small v (List.mem_cons_of_mem _ later)

/-- The venues of a ward whose tables have just been created. -/
theorem lands_venues {ward : Int} (real : 0 ≤ ward) (few : ward.toNat < wireWardMax) {w : World}
    (quiet : Quiet w) (here : w.g.wardNo = ward) (isOpen : w.g.ward.isOpen = true)
    (saved : w.g.ward.saved = none) (tables : w.g.ward.now = { created := true }) :
    Lands (Action.forEach venues.zipIdx fun (v, i) => foundVenue i v)
      (fun _ w' => Quiet w' ∧ w'.g = w.g.setWard fun c =>
        { c with now := { c.now with
            venue := c.now.venue ++ venues.zipIdx.map fun (v, i) => v.founded w.g.wardNo i } })
      w := by
  have created : w.g.ward.now.created = true := by rw [tables]
  have lands : Lands (Action.forEach venues.zipIdx fun (v, i) => foundVenue i v)
      (fun _ w' => Quiet w') w := by
    apply lands_foundVenues real few _ quiet here isOpen created
    · rw [tables]
      intro r mem
      cases mem
    · decide
    · decide
  exact lands.wp (wp_foundVenues w.g _ w ⟨rfl, saved⟩ isOpen created)

theorem lands_openWard (name : Text) {w : World} (quiet : Quiet w) :
    Lands (openWard name) (fun _ w' => Quiet w' ∧
      ∃ t, w'.g = { w.g with ward := { name, isOpen := true, now := t, saved := none } }) w := by
  unfold openWard
  apply Lands.bind
  apply Lands.of_run rfl
  apply Lands.bind
  apply Lands.of_run rfl
  apply Lands.bind
  apply lands_fallible
  · exact quiet
  apply Lands.bind
  apply lands_fallible
  · exact quiet
  apply Lands.bind
  apply lands_fallible
  · exact quiet
  apply Lands.bind
  apply Lands.of_run rfl
  apply Lands.of_run rfl
  exact ⟨quiet, _, rfl⟩

/-- A ward with room for its Sparks, and names for them, is founded. -/
theorem lands_foundWard (dbPrefix : Text) (n : Nat) (seed : UInt64) {base : Int} {w : World}
    (quiet : Quiet w) (empty : w.g.sparks = []) (real : 0 ≤ base.tdiv sparksPerWard)
    (few : (base.tdiv sparksPerWard).toNat < wireWardMax) (fits : n ≤ sparksPerWard)
    (named : ∀ i < n, (wireId (base.tdiv sparksPerWard) (sparkLocal (base + i))).isSome = true) :
    Lands (foundWard dbPrefix n seed base)
      (fun _ w' => Quiet w' ∧ w'.g = (w.g.foundedAs dbPrefix seed base).withSparks
        ((List.range n).map fun (i : Nat) => base + i)) w := by
  suffices lands : Lands (foundWard dbPrefix n seed base) (fun _ w' => Quiet w') w from
    lands.wp (wp_foundWard dbPrefix n seed base w)
  have queen : wireId (base.tdiv sparksPerWard) wireQueen =
      some ((base.tdiv sparksPerWard).toNat * wireLocalMax + wireQueen) := by
    apply wireId_eq_some.mpr
    unfold wireQueen wireLocalMax wireLocalBits
    omega
  unfold foundWard
  apply Lands.bind
  apply (lands_openWard _ quiet).mono
  rintro _ w₁ ⟨quiet₁, t, opened⟩
  cases w₁ with
  | mk g₁ plane₁ grp₁ stop₁ =>
  cases opened
  apply Lands.bind
  apply Lands.of_run rfl
  apply Lands.bind
  apply lands_runWard
  · exact quiet₁
  · rfl
  · rfl
  apply Lands.bind
  apply lands_runWard
  · exact quiet₁
  · rfl
  · rfl
  apply Lands.bind
  refine (lands_venues real few ?_ rfl rfl rfl rfl).mono ?_
  · exact quiet₁
  rintro _ w₂ ⟨quiet₂, listed⟩
  cases w₂ with
  | mk g₂ plane₂ grp₂ stop₂ =>
  cases listed
  apply Lands.bind
  apply Lands.of_run rfl
  apply Lands.bind
  apply Lands.of_run rfl
  apply Lands.bind
  apply lands_wireIdOrExit queen
  apply Lands.bind
  apply lands_runWard
  · exact quiet₂
  · rfl
  · rfl
  apply lands_joinWards
  · exact quiet₂
  · change w.g.sparks.length + (List.range n).length ≤ sparksPerWard
    rw [empty, List.length_range]
    simpa using fits
  · intro i mem
    exact named i (List.mem_range.mp mem)

end GyreWard
