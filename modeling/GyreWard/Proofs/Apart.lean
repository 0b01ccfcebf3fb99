/-
Module: GyreWard.Proofs.Apart
Purpose: The Sparks of a game have an id each, through every call in which nobody arrives under
  another Spark's.
Trusted boundary: none
Main exports: InGame, Game.Apart, Shards.apart, Fresh, Game.Apart.play
-/
import GyreWard.Proofs.Names

namespace GyreWard

open Lib
open Lib.Action (MadeOf wp)

/-! ### A ward of a game -/

/-- The seats of ward `i` of a game: its Sparks have ids of the game, and databases named by them. -/
structure Roster.Proper (i : Nat) (r : Roster) : Prop where
  dbPrefix : r.dbPrefix = shardName i
  spark : ∀ t ∈ r.sparks, 0 ≤ t.1 ∧ t.1 < maxWards * sparksPerWard ∧
    ∃ k < maxWards, t.2 = sparkName (shardName k) t.1

/-- A ward of a game: sound, and everything in it called by its names. -/
structure InGame (i : Nat) (g : Gyre) : Prop where
  sound : Sound g
  named : g.Named i
  seats : g.roster.Proper i

/-- The ids of a game's Sparks. -/
def Game.ids (game : Game) : List Int := game.wards.flatMap fun g => g.sparks.map (·.id)

/-- A game whose Sparks all have an id of their own. -/
structure Game.Apart (game : Game) : Prop where
  few : game.wards.length ≤ maxWards
  ward : ∀ i g, game.wards[i]? = some g → InGame i g
  ids : game.ids.Nodup

theorem zones_size : ((maxWards : Int) * sparksPerWard) = 11072 := rfl

theorem shardName_fits (i : Nat) : fitted 64 (shardName i) = shardName i := by
  apply List.take_of_length_le
  unfold shardName fitted
  rw [List.length_take]
  omega

theorem named_newSpark {dbPrefix : Text} {ward id : Int}
    (has : (wireId ward (sparkLocal id)).isSome = true) :
    (newSpark dbPrefix ward id).db.Holds (SparkTables.Proper ward id) := by
  have ⟨wire, given⟩ := Option.isSome_iff_exists.mp has
  constructor
  · intro r mem
    rw [List.mem_singleton.mp mem, sparkRow, given]
    rfl
  · exact nofun

theorem small_named {i loc : Nat} (few : i < maxWards) (small : loc < wireContractBase) :
    wireId i loc = some (i * wireLocalMax + loc) := by
  apply wireId_eq_some.mpr
  unfold maxWards at few
  unfold wireContractBase at small
  unfold wireWardMax wireLocalMax wireLocalBits
  omega

theorem proper_foundedTables {i : Nat} (few : i < maxWards) :
    (foundedTables i).plates.Proper i := by
  have numbers : (foundedTables i).plates.venue.map Prod.fst = [0, 1, 2, 3, 4, 5] := rfl
  constructor
  · exact Nat.le_refl 1
  · intro wire mem
    rw [List.mem_singleton.mp mem, queenRow, small_named few (by decide)]
    rfl
  · intro v mem
    have ⟨row, listed, plate⟩ := List.mem_map.mp mem
    have ⟨item, known, made⟩ := List.mem_map.mp listed
    have small : ∀ item ∈ venues.zipIdx, item.2 < nVenues := by decide
    have number := small item known
    rw [← plate, ← made]
    apply Exists.intro item.2
    constructor
    · exact number
    · constructor
      · rfl
      · have given : wireId i (wireVenueBase + item.2) =
            some (i * wireLocalMax + (wireVenueBase + item.2)) := by
          apply small_named few
          unfold nVenues at number
          unfold wireVenueBase wireContractBase
          omega
        change _ = some ((wireId i (wireVenueBase + item.2)).getD 0)
        rw [given]
        rfl
  · rw [numbers]
    decide
  · intro r mem
    cases mem
  · exact List.nodup_nil

theorem inGame_shardWard {i n : Nat} (seed : UInt64) (few : i < maxWards)
    (fits : n ≤ sparksPerWard) : InGame i (shardWard i n seed) := by
  have range : ∀ k < n, 0 ≤ ((i * sparksPerWard : Nat) : Int) + k ∧
      ((i * sparksPerWard : Nat) : Int) + k < maxWards * sparksPerWard := by
    intro k small
    rw [zones_size]
    have size : sparksPerWard = 1384 := rfl
    rw [size] at fits ⊢
    unfold maxWards at few
    omega
  have opened : Settled
      (Gyre.zero.foundedAs (shardName i) seed ((i * sparksPerWard : Nat) : Int)) :=
    ⟨sound_of_empty rfl rfl, rfl, rfl⟩
  constructor
  · exact (opened.withSparks _).sound
  · constructor
    · exact shardWard_number i n seed
    · have ward : (shardWard i n seed).ward =
          (Gyre.zero.foundedAs (shardName i) seed ((i * sparksPerWard : Nat) : Int)).ward := by
        rw [shardWard, withSparks_eq]
      rw [ward]
      constructor
      · change (foundedTables (((i * sparksPerWard : Nat) : Int).tdiv sparksPerWard)).plates.Proper i
        rw [base_number]
        exact proper_foundedTables few
      · intro tables saved
        cases saved
    · intro k s here
      have mem := List.mem_of_getElem? here
      rw [shardWard_sparks] at mem
      obtain ⟨j, small, made⟩ := List.mem_map.mp mem
      obtain ⟨real, low⟩ := range j (List.mem_range.mp small)
      rw [← made]
      apply named_newSpark
      change (wireId i (sparkLocal (((i * sparksPerWard : Nat) : Int) + j))).isSome = true
      rw [spark_named few real low]
      rfl
  · constructor
    · rw [shardWard, withSparks_eq]
      exact shardName_fits i
    · intro t mem
      obtain ⟨s, there, plate⟩ := List.mem_map.mp mem
      rw [shardWard_sparks] at there
      obtain ⟨j, small, made⟩ := List.mem_map.mp there
      obtain ⟨real, low⟩ := range j (List.mem_range.mp small)
      rw [← plate, ← made, shardName_fits]
      exact ⟨real, low, i, few, rfl⟩

/-- The wards of a game as it is founded. -/
theorem Shards.wards_eq {game : Game} (shards : Shards game) :
    game.wards.length ≤ maxWards ∧ ∀ i g, game.wards[i]? = some g →
      ∃ n seed, n ≤ sparksPerWard ∧ g = shardWard i n seed := by
  induction shards with
  | none plane =>
      constructor
      · exact Nat.zero_le _
      · intro i g here
        simp at here
  | @ward game n seed w before few fits founded ih =>
      constructor
      · rw [List.length_append]
        exact few
      · intro i g here
        rcases Nat.lt_or_ge i game.wards.length with old | new
        · rw [List.getElem?_append_left old] at here
          exact ih.2 i g here
        · rw [List.getElem?_append_right new] at here
          have last : i = game.wards.length := by
            have inside := (List.getElem?_eq_some_iff.mp here).1
            rw [List.length_singleton] at inside
            omega
          rw [last, Nat.sub_self] at here
          cases here
          have made := Action.wp_ret (wp_foundWard _ _ _ _ _) founded
          exact ⟨n, seed, fits, by rw [last, made, shardWard]⟩

theorem shardWard_ids (i n : Nat) (seed : UInt64) :
    (shardWard i n seed).sparks.map (·.id) =
      (List.range n).map fun (k : Nat) => ((i * sparksPerWard : Nat) : Int) + k := by
  rw [shardWard_sparks, List.map_map]
  rfl

/-- A game as it is founded: its Sparks are numbered through, ward after ward. -/
theorem Shards.apart {game : Game} (shards : Shards game) : game.Apart := by
  have ⟨few, wards⟩ := shards.wards_eq
  constructor
  · exact few
  · intro i g here
    have inside := (List.getElem?_eq_some_iff.mp here).1
    have ⟨n, seed, fits, made⟩ := wards i g here
    rw [made]
    exact inGame_shardWard seed (by omega) fits
  · rw [Game.ids, List.nodup_flatMap]
    constructor
    · intro g mem
      have ⟨i, here⟩ := List.mem_iff_getElem?.mp mem
      have ⟨n, seed, _, made⟩ := wards i g here
      rw [made, shardWard_ids]
      apply List.nodup_range.map
      intro k k' same
      simp only at same
      omega
    · rw [List.pairwise_iff_getElem]
      intro i j inside inside' before id here there
      have ⟨n, seed, fits, made⟩ := wards i _ (List.getElem?_eq_getElem inside)
      have ⟨n', seed', fits', made'⟩ := wards j _ (List.getElem?_eq_getElem inside')
      change id ∈ game.wards[i].sparks.map (·.id) at here
      change id ∈ game.wards[j].sparks.map (·.id) at there
      rw [made, shardWard_ids] at here
      rw [made', shardWard_ids] at there
      have ⟨k, small, numbered⟩ := List.mem_map.mp here
      have ⟨k', small', numbered'⟩ := List.mem_map.mp there
      have size : sparksPerWard = 1384 := rfl
      rw [List.mem_range] at small small'
      rw [size] at fits fits' numbered numbered'
      omega

/-! ### Calls of a game -/

/-- One list of many is replaced. -/
theorem count_flatMap_set {α β : Type} [DecidableEq β] (f : α → List β) (b : β) {items : List α}
    {i : Nat} {old : α} (here : items[i]? = some old) (new : α) :
    ((items.set i new).flatMap f).count b + (f old).count b =
      (items.flatMap f).count b + (f new).count b := by
  induction items generalizing i with
  | nil => simp at here
  | cons a rest ih =>
      cases i with
      | zero =>
          cases here
          simp only [List.set_cons_zero, List.flatMap_cons, List.count_append]
          omega
      | succ i =>
          have later := ih here
          simp only [List.set_cons_succ, List.flatMap_cons, List.count_append]
          omega

section Calls

variable {game : Game} {i : Nat} {g : Gyre}

theorem ids_roster (g : Gyre) : g.sparks.map (·.id) = g.roster.sparks.map Prod.fst := by
  rw [Gyre.roster, List.map_map]
  rfl

/-- A ward replaced by one with the same Sparks. -/
theorem Game.Apart.replace (apart : game.Apart) {g' : Gyre} {plane : Plane}
    (inGame : InGame i g') (ids : (Game.mk (game.wards.set i g') plane).ids.Nodup) :
    (Game.mk (game.wards.set i g') plane).Apart := by
  constructor
  · rw [List.length_set]
    exact apart.few
  · intro j h there
    rw [List.getElem?_set] at there
    split at there
    · rename_i same
      split at there
      · cases there
        exact same ▸ inGame
      · cases there
    · exact apart.ward j h there
  · exact ids

/-- The ids when the Sparks of one ward are the same. -/
theorem Game.Apart.ids_same (apart : game.Apart) (here : game.wards[i]? = some g) {g' : Gyre}
    {plane : Plane} (same : g'.sparks.map (·.id) = g.sparks.map (·.id)) :
    (Game.mk (game.wards.set i g') plane).ids.Nodup := by
  rw [List.nodup_iff_count_le_one]
  intro id
  have balance := count_flatMap_set (fun g : Gyre => g.sparks.map (·.id)) id here g'
  have once : (game.wards.flatMap fun g => g.sparks.map (·.id)).count id ≤ 1 :=
    List.nodup_iff_count_le_one.mp apart.ids id
  change ((game.wards.set i g').flatMap fun g => g.sparks.map (·.id)).count id ≤ 1
  simp only [same] at balance
  omega

/-- The moves of a call leave everybody where they are, and call everything by its name. -/
theorem InGame.stir (inGame : InGame i g) {α : Type} {x : Action World α} (made : MadeOf Stir α x)
    {plane : Plane} {a : α} {w : World} (run : x { g, plane } = (.ret a, w)) :
    w.g.Named i ∧ w.g.roster = g.roster := by
  have named := Action.wp_ret (wp_stir_named (w := { g, plane }) made inGame.named) run
  have seats := Action.wp_ret ((leaves_roster made).wp { g, plane }) run
  exact ⟨named, seats⟩

/-- A call that only moves a ward keeps everybody apart. -/
theorem Game.Apart.stir (apart : game.Apart) (here : game.wards[i]? = some g)
    {x : Action World Unit} (made : MadeOf Stir Unit x) {w : World}
    (run : x { g, plane := game.plane } = (.ret (), w)) (sound : Sound w.g) :
    (Game.mk (game.wards.set i w.g) w.plane).Apart := by
  have inGame := apart.ward i g here
  have ⟨named, seats⟩ := inGame.stir made run
  apply apart.replace
  · exact ⟨sound, named, seats.symm ▸ inGame.seats⟩
  · apply apart.ids_same here
    rw [ids_roster, ids_roster, seats]

/-! ### Arrivals -/

/-- The cycle ends with a Spark arriving. -/
def Arrives (g : Gyre) (plane : Plane) : Prop := (cycleBody { g, plane }).1 = .ret true

/-- Nobody arrives under an id that a Spark of the game already has. -/
def Fresh (game : Game) : Play → Prop
  | .cycle i => ∀ g, game.wards[i]? = some g → Arrives g game.plane →
      g.wardNo * sparksPerWard + g.nsparks ∉ game.ids
  | _ => True

theorem Gyre.Named.withSpark {ward id : Int} (named : g.Named ward) (seat : HasSeat id g) :
    (g.withSpark id).Named ward where
  number := named.number
  tables := named.tables
  spark := by
    intro k s here
    rcases spark_withSpark here with before | new
    · exact named.spark k s before
    · have has := seat.named
      rw [named.number] at has
      rw [new, named.number]
      exact named_newSpark has

/-- The ids when one Spark has come. -/
theorem Game.Apart.ids_more (apart : game.Apart) (here : game.wards[i]? = some g) {g' : Gyre}
    {plane : Plane} {id : Int} (more : g'.sparks.map (·.id) = g.sparks.map (·.id) ++ [id])
    (new : id ∉ game.ids) : (Game.mk (game.wards.set i g') plane).ids.Nodup := by
  rw [List.nodup_iff_count_le_one]
  intro id'
  have balance := count_flatMap_set (fun g : Gyre => g.sparks.map (·.id)) id' here g'
  have once : (game.wards.flatMap fun g => g.sparks.map (·.id)).count id' ≤ 1 :=
    List.nodup_iff_count_le_one.mp apart.ids id'
  change ((game.wards.set i g').flatMap fun g => g.sparks.map (·.id)).count id' ≤ 1
  simp only [more, List.count_append] at balance
  by_cases same : id = id'
  · have absent : (game.wards.flatMap fun g => g.sparks.map (·.id)).count id' = 0 :=
      List.count_eq_zero_of_not_mem (same ▸ new)
    have one : [id].count id' ≤ 1 := List.count_le_length
    omega
  · have other : [id].count id' = 0 := by
      apply List.count_eq_zero_of_not_mem
      intro mem
      exact same (List.mem_singleton.mp mem).symm
    omega

/-- The seats of a ward when one Spark has come. -/
theorem Roster.Proper.withSpark (seats : g.roster.Proper i) {id : Int} (few : i < maxWards)
    (range : 0 ≤ id ∧ id < maxWards * sparksPerWard) : (g.withSpark id).roster.Proper i where
  dbPrefix := seats.dbPrefix
  spark := by
    intro t mem
    have ⟨s, there, plate⟩ := List.mem_map.mp mem
    rcases List.mem_append.mp there with before | new
    · exact seats.spark t (List.mem_map.mpr ⟨s, before, plate⟩)
    · have called : g.dbPrefix = shardName i := seats.dbPrefix
      rw [← plate, List.mem_singleton.mp new, called]
      exact ⟨range.1, range.2, i, few, rfl⟩

/-- A cycle in which nobody arrives under another Spark's id keeps everybody apart. -/
theorem Game.Apart.cycle (apart : game.Apart) (here : game.wards[i]? = some g)
    (fresh : Fresh game (.cycle i)) {w : World}
    (run : GyreWard.cycle { g, plane := game.plane } = (.ret (), w)) :
    (Game.mk (game.wards.set i w.g) w.plane).Apart := by
  have inGame := apart.ward i g here
  have sound := Action.wp_ret (sound_cycle (w := { g, plane := game.plane }) inGame.sound) run
  have ⟨arriving, w₁, body, rest⟩ := cycle_ret run
  have ⟨named, seats⟩ := inGame.stir stir_cycleBody body
  cases arriving with
  | false =>
      rw [if_neg Bool.false_ne_true] at rest
      apply apart.replace
      · exact ⟨sound, rest.symm ▸ named, by rw [rest, seats]; exact inGame.seats⟩
      · apply apart.ids_same here
        rw [ids_roster, ids_roster, rest, seats]
  | true =>
      rw [if_pos rfl] at rest
      have ⟨seat, joined⟩ := rest
      have few : i < maxWards :=
        lt_of_lt_of_le (List.getElem?_eq_some_iff.mp here).1 apart.few
      have number : g.wardNo = i := inGame.named.number
      have nsparks : w₁.g.nsparks = g.nsparks := congrArg Nat.cast (roster_sparks seats)
      have arrives : Arrives g game.plane := congrArg Prod.fst body
      have new := fresh g here arrives
      have range : 0 ≤ w₁.g.wardNo * sparksPerWard + w₁.g.nsparks ∧
          w₁.g.wardNo * sparksPerWard + w₁.g.nsparks < maxWards * sparksPerWard := by
        have room : (w₁.g.sparks.length : Int) < sparksPerWard := Int.ofNat_lt.mpr seat.room
        rw [zones_size, named.number, Gyre.nsparks]
        have size : (sparksPerWard : Int) = 1384 := rfl
        rw [size] at room ⊢
        unfold maxWards at few
        omega
      apply apart.replace
      · constructor
        · exact sound
        · rw [joined]
          exact named.withSpark seat
        · rw [joined]
          exact Roster.Proper.withSpark (seats.symm ▸ inGame.seats) few range
      · rw [named.number, nsparks, ← number] at joined
        apply apart.ids_more here _ new
        rw [joined, Gyre.withSpark, List.map_append, ids_roster, ids_roster, seats]
        rfl

/-! ### Migrations -/

/-- The ids when one Spark has gone. -/
theorem Game.Apart.ids_less (apart : game.Apart) (here : game.wards[i]? = some g) {g' : Gyre}
    {plane : Plane} {id : Int}
    (less : (g.sparks.map (·.id)).Perm (id :: g'.sparks.map (·.id))) :
    (id :: (Game.mk (game.wards.set i g') plane).ids).Nodup := by
  rw [List.nodup_iff_count_le_one]
  intro id'
  have balance := count_flatMap_set (fun g : Gyre => g.sparks.map (·.id)) id' here g'
  have once : (game.wards.flatMap fun g => g.sparks.map (·.id)).count id' ≤ 1 :=
    List.nodup_iff_count_le_one.mp apart.ids id'
  have gone := less.count_eq id'
  change (id :: (game.wards.set i g').flatMap fun g => g.sparks.map (·.id)).count id' ≤ 1
  rw [List.count_cons] at gone ⊢
  omega

/-- Between two commands, a Spark's database is in no transaction. -/
theorem Sound.spark (sound : Sound g) {s : Spark} (mem : s ∈ g.sparks) :
    s.Steady ∧ s.db.saved = none := by
  have ⟨k, there⟩ := List.mem_iff_getElem?.mp mem
  constructor
  · exact sound.steady.spark k s there
  · by_contra inside
    exact sound.settled (.spark k) ⟨s, there, inside⟩

theorem Posted.sound {g' : Gyre} (posted : Posted g g') (sound : Sound g)
    (each : ∀ s ∈ g'.sparks, s.Steady ∧ s.db.saved = none) : Sound g' := by
  have ⟨row, t, run, made⟩ := posted.ward
  have outside : g'.ward.saved = none := by
    rw [made]
    by_contra inside
    exact sound.settled .ward inside
  constructor
  · constructor
    · intro _
      constructor
      · rw [made]
        exact posted.isOpen
      · constructor
        · rw [made]
          exact (WardStatement.ledger row).created run
        · intro before saved
          rw [outside] at saved
          cases saved
    · exact fun k s there => (each s (List.mem_of_getElem? there)).1
  · intro h inside
    cases h with
    | ward => exact inside outside
    | spark k =>
        have ⟨s, there, saved⟩ := inside
        exact saved (each s (List.mem_of_getElem? there)).2

theorem Posted.named {g' : Gyre} {ward : Int} (posted : Posted g g') (named : g.Named ward)
    (each : ∀ s ∈ g'.sparks, s.db.Holds (SparkTables.Proper ward s.id)) : g'.Named ward where
  number := posted.wardNo.trans named.number
  tables := by
    have ⟨row, t, run, made⟩ := posted.ward
    rw [made]
    exact ⟨(WardStatement.ledger row).proper run named.tables.now, named.tables.saved⟩
  spark := fun _ s there => each s (List.mem_of_getElem? there)

/-- The row of a Spark who has changed wards bears the name of the ward they went to. -/
theorem proper_updateSparkWire {ward id : Int} {wire owner : Nat} {t t' : SparkTables}
    (mine : t.Of id) (named : wireId ward (sparkLocal id) = some wire)
    (run : updateSparkWire id wire owner t = some t') : t'.Proper ward id := by
  have ⟨created, row, rows, numbered⟩ := mine
  rw [updateSparkWire, updateSparkRow, SparkTables.existing, if_pos created] at run
  cases run
  intro r mem
  simp only [rows, List.map_cons, List.map_nil, numbered, if_true] at mem
  rw [List.mem_singleton.mp mem]
  exact named

section Migrating

variable {k : Nat} {s s' : Spark} {leaving entering leaving' entering' : Gyre}

/-- A Spark who has changed wards is who they were, in the same database. -/
theorem Moved.same (moved : Moved k s s' leaving entering leaving' entering') :
    s'.id = s.id ∧ s'.db.name = s.db.name ∧ s'.db.saved = s.db.saved := by
  have ⟨_, _, _, _, made⟩ := moved.spark
  rw [made]
  exact ⟨rfl, rfl, rfl⟩

theorem Moved.tables (moved : Moved k s s' leaving entering leaving' entering')
    (mine : s.db.now.Of s.id) :
    s'.db.now.Of s.id ∧ s'.db.now.Proper entering.wardNo s.id := by
  have ⟨wire, t, named, run, made⟩ := moved.spark
  rw [made]
  constructor
  · exact mine.update run fun _ => rfl
  · exact proper_updateSparkWire mine named run

theorem Moved.inGame_leaving (moved : Moved k s s' leaving entering leaving' entering')
    (inGame : InGame i leaving) : InGame i leaving' := by
  have before : ∀ s ∈ leaving'.sparks, s ∈ leaving.sparks := by
    intro s mem
    rw [moved.left] at mem
    exact List.mem_of_mem_eraseIdx mem
  constructor
  · apply moved.leavingHouse.sound inGame.sound
    exact fun s mem => inGame.sound.spark (before s mem)
  · apply moved.leavingHouse.named inGame.named
    intro s mem
    have ⟨k, there⟩ := List.mem_iff_getElem?.mp (before s mem)
    exact inGame.named.spark k s there
  · constructor
    · exact moved.leavingHouse.dbPrefix.trans inGame.seats.dbPrefix
    · intro t mem
      have ⟨s, there, plate⟩ := List.mem_map.mp mem
      exact inGame.seats.spark t (List.mem_map.mpr ⟨s, before s there, plate⟩)

theorem Moved.inGame_entering {j : Nat}
    (moved : Moved k s s' leaving entering leaving' entering') (inGame : InGame i leaving)
    (inGame' : InGame j entering) : InGame j entering' := by
  have ⟨sameId, sameName, sameSaved⟩ := moved.same
  have mem : s ∈ leaving.sparks := List.mem_of_getElem? moved.here
  have ⟨steady, settled⟩ := inGame.sound.spark mem
  have ⟨mine, called⟩ := moved.tables steady.rows.now
  have split : ∀ s'' ∈ entering'.sparks, s'' ∈ entering.sparks ∨ s'' = s' := by
    intro s'' mem
    rw [moved.came] at mem
    exact (List.mem_append.mp mem).imp_right List.mem_singleton.mp
  have unsaved : ∀ {P : SparkTables → Prop} t, s'.db.saved = some t → P t := by
    intro P t saved
    rw [sameSaved, settled] at saved
    cases saved
  constructor
  · apply moved.enteringHouse.sound inGame'.sound
    intro s'' mem
    rcases split s'' mem with before | same
    · exact inGame'.sound.spark before
    · rw [same]
      constructor
      · constructor
        · have ⟨_, _, _, _, made⟩ := moved.spark
          rw [made]
          exact steady.isOpen
        · rw [sameId]
          exact ⟨mine, unsaved⟩
      · rw [sameSaved, settled]
  · apply moved.enteringHouse.named inGame'.named
    intro s'' mem
    rcases split s'' mem with before | same
    · have ⟨k, there⟩ := List.mem_iff_getElem?.mp before
      exact inGame'.named.spark k s'' there
    · rw [same, sameId]
      rw [inGame'.named.number] at called
      exact ⟨called, unsaved⟩
  · constructor
    · exact moved.enteringHouse.dbPrefix.trans inGame'.seats.dbPrefix
    · intro t listed
      have ⟨s'', there, plate⟩ := List.mem_map.mp listed
      rcases split s'' there with before | same
      · exact inGame'.seats.spark t (List.mem_map.mpr ⟨s'', before, plate⟩)
      · rw [← plate, same, sameId, sameName]
        exact inGame.seats.spark _ (List.mem_map.mpr ⟨s, mem, rfl⟩)

/-- A migration keeps everybody apart. -/
theorem Game.Apart.migrate (apart : game.Apart) {j : Nat} (other : i ≠ j)
    (here : game.wards[i]? = some leaving) (there : game.wards[j]? = some entering)
    (moved : Moved k s s' leaving entering leaving' entering') (plane : Plane) :
    (Game.mk ((game.wards.set i leaving').set j entering') plane).Apart := by
  have inGame := apart.ward i leaving here
  have inGame' := apart.ward j entering there
  have gone : (leaving.sparks.map (·.id)).Perm (s.id :: leaving'.sparks.map (·.id)) := by
    have ⟨inside, found⟩ := List.getElem?_eq_some_iff.mp moved.here
    rw [moved.left, ← found]
    exact (List.getElem_cons_eraseIdx_perm inside).symm.map (·.id)
  have left : (s.id :: (Game.mk (game.wards.set i leaving') plane).ids).Nodup :=
    apart.ids_less here gone
  have first : (Game.mk (game.wards.set i leaving') plane).Apart :=
    apart.replace (moved.inGame_leaving inGame) (List.nodup_cons.mp left).2
  have still : (game.wards.set i leaving')[j]? = some entering := by
    rw [List.getElem?_set_ne other]
    exact there
  apply first.replace (moved.inGame_entering inGame inGame')
  apply first.ids_more still _ (List.nodup_cons.mp left).1
  rw [moved.came, List.map_append, List.map_singleton, moved.same.1]

end Migrating

/-- A call in which nobody arrives under another Spark's id keeps everybody apart. -/
theorem Game.Apart.play {game game' : Game} {call : Play} (apart : game.Apart)
    (fresh : Fresh game call) (succeeds : game.play call = some game') : game'.Apart := by
  cases call with
  | cycle i =>
      have ⟨g, w, here, run, after⟩ := onWard_some succeeds
      rw [after]
      exact apart.cycle here fresh run
  | build i venue =>
      have ⟨g, w, here, run, after⟩ := onWard_some succeeds
      have inGame := apart.ward i g here
      rw [after]
      apply apart.stir here (stir_writes (made_buildVenue venue)) run
      exact Action.wp_ret
        (sound_made (w := { g, plane := game.plane }) (made_buildVenue venue) inGame.sound) run
  | pay i spark amount item =>
      have ⟨g, w, here, run, after⟩ := onWard_some succeeds
      have inGame := apart.ward i g here
      rw [after]
      apply apart.stir here (stir_payAlone spark amount item) run
      exact Action.wp_ret
        (sound_payAlone (w := { g, plane := game.plane }) inGame.sound spark amount item) run
  | migrate i j idx =>
      have ⟨other, leaving, entering, p, here, there, run, after⟩ := migrate_some succeeds
      have ⟨s, s', moved⟩ := Action.wp_ret (migrate_moves idx _) run
      rw [after]
      exact apart.migrate other here there moved p.plane

end Calls

end GyreWard
