/-
Module: GyreWard.Proofs.Distinct
Purpose: No two entities of a game share an id, a database or a name on the wire; and the arrival
  that breaks this.
Trusted boundary: none
Main exports: Game.databases, Game.wires, Game.Distinct, names_are_distinct
-/
import GyreWard.Proofs.Apart

namespace GyreWard

open Lib

/-! ### Databases -/

/-- The names of the databases behind a game's Sparks. -/
def Game.databases (game : Game) : List Text := game.wards.flatMap fun g => g.sparks.map (·.db.name)

theorem decimal_inj {m n : Nat} (same : decimal m = decimal n) : m = n := by
  have byte : ∀ c : Char, c.isDigit = true → Char.ofNat (UInt8.ofNat c.toNat).toNat = c := by
    intro c digit
    have small : c.toNat < 256 := by
      simp only [Char.isDigit, Bool.and_eq_true, decide_eq_true_eq] at digit
      have top := UInt32.le_iff_toNat_le.mp digit.2
      change c.toNat ≤ 57 at top
      omega
    rw [UInt8.toNat_ofNat', Nat.mod_eq_of_lt small, Char.ofNat_toNat]
  -- the digits can be read back from the bytes
  have read : ∀ n : Nat, (decimal n).map (fun u => Char.ofNat u.toNat) = Nat.toDigits 10 n := by
    intro n
    rw [decimal, if_neg (by omega), List.map_map, Int.toNat_natCast]
    have each : ∀ c ∈ Nat.toDigits 10 n,
        ((fun u : UInt8 => Char.ofNat u.toNat) ∘ fun c => UInt8.ofNat c.toNat) c = id c :=
      fun c mem => byte c (Nat.isDigit_of_mem_toDigits (by decide) (by decide) mem)
    rw [List.map_congr_left each, List.map_id]
  have digits : Nat.toDigits 10 m = Nat.toDigits 10 n := by
    rw [← read, ← read, same]
  rw [← Nat.ofDigitChars_ten_toDigits (n := m), digits, Nat.ofDigitChars_ten_toDigits]

theorem length_decimal (n : Nat) : (decimal n).length = (Nat.toDigits 10 n).length := by
  rw [decimal, if_neg (by omega), List.length_map, Int.toNat_natCast]

/-- The names of two Sparks' databases are the same only when their ids are, whichever wards of a
game named them. -/
theorem sparkName_inj {k k' : Nat} (few : k < maxWards) (few' : k' < maxWards) {m n : Nat}
    (small : m < maxWards * sparksPerWard) (small' : n < maxWards * sparksPerWard)
    (same : sparkName (shardName k) m = sparkName (shardName k') n) : m = n := by
  have ward : ∀ k < maxWards, (shardName k ++ text "-spark-").length = 19 := by decide +kernel
  have number : ∀ n : Nat, n < maxWards * sparksPerWard → (decimal n).length ≤ 5 := by
    intro n small
    have size : maxWards * sparksPerWard = 11072 := rfl
    rw [length_decimal, Nat.length_toDigits_le_iff (by decide) (by decide)]
    omega
  have whole : ∀ k < maxWards, ∀ n : Nat, n < maxWards * sparksPerWard →
      sparkName (shardName k) n =
        (shardName k ++ text "-spark-") ++ (decimal n ++ text ".db") := by
    intro k few n small
    have tail : (text ".db").length = 3 := by decide
    have short : ((shardName k ++ text "-spark-") ++ (decimal n ++ text ".db")).length ≤ 127 := by
      rw [List.length_append, ward k few, List.length_append, tail]
      have digits := number n small
      omega
    rw [sparkName, List.append_assoc _ (decimal n), fitted]
    exact List.take_of_length_le short
  rw [whole k few m small, whole k' few' n small'] at same
  have tails := List.append_inj_right same ((ward k few).trans (ward k' few').symm)
  exact decimal_inj (List.append_cancel_right tails)

section Distinct

variable {game : Game}

theorem Game.Apart.databases (apart : game.Apart) : game.databases.Nodup := by
  let seats : List (Int × Text) := game.wards.flatMap fun g => g.roster.sparks
  have proper : ∀ t ∈ seats, 0 ≤ t.1 ∧ t.1 < maxWards * sparksPerWard ∧
      ∃ k < maxWards, t.2 = sparkName (shardName k) t.1 := by
    intro t mem
    obtain ⟨g, there, seat⟩ := List.mem_flatMap.mp mem
    obtain ⟨i, here⟩ := List.mem_iff_getElem?.mp there
    exact (apart.ward i g here).seats.spark t seat
  have ids : (seats.map Prod.fst).Nodup := by
    have same : seats.map Prod.fst = game.ids := by
      simp only [seats, Game.ids, List.map_flatMap, ids_roster]
    exact same ▸ apart.ids
  have names : game.databases = seats.map Prod.snd := by
    simp only [seats, Game.databases, List.map_flatMap, Gyre.roster, List.map_map]
    rfl
  rw [names]
  apply List.Nodup.map_on _ (List.Nodup.of_map _ ids)
  intro t mem t' mem' same
  obtain ⟨real, low, k, few, named⟩ := proper t mem
  obtain ⟨real', low', k', few', named'⟩ := proper t' mem'
  have id : ((t.1.toNat : Nat) : Int) = t.1 := Int.toNat_of_nonneg real
  have id' : ((t'.1.toNat : Nat) : Int) = t'.1 := Int.toNat_of_nonneg real'
  have alike : t.1.toNat = t'.1.toNat := by
    apply sparkName_inj few few'
    · omega
    · omega
    · rw [id, id', ← named, ← named', same]
  apply Prod.ext
  · omega
  · exact same

end Distinct

/-! ### Names on the wire -/

/-- Every name on the wire in a ward: its Queen's, its venues', its contracts', its Sparks'. -/
def Gyre.wires (g : Gyre) : List Nat :=
  g.ward.now.ward.map (·.wire) ++ g.ward.now.venue.map (·.wire) ++
    g.ward.now.board.filterMap (·.wire) ++
    g.sparks.flatMap fun s => s.db.now.spark.map (·.wire)

/-- Every name on the wire in a game. -/
def Game.wires (game : Game) : List Nat := game.wards.flatMap Gyre.wires

/-- What is called something in a ward's tables: its local name, and its name on the wire. -/
def Plates.tags (p : Plates) : List (Nat × Nat) :=
  p.queen.map (fun wire => (wireQueen, wire)) ++
    p.venue.map (fun v => (wireVenueBase + v.1.toNat, v.2)) ++
    p.board.filterMap fun r => r.2.map fun wire => (wireContractBase + r.1, wire)

def Gyre.sparkTags (g : Gyre) : List (Nat × Nat) :=
  g.sparks.flatMap fun s => s.db.now.spark.map fun r => (sparkLocal s.id, r.wire)

theorem wires_tags (g : Gyre) :
    g.wires = (g.ward.now.plates.tags ++ g.sparkTags).map Prod.snd := by
  have board : ∀ rows : List BoardRow, rows.filterMap (·.wire) =
      ((rows.map fun r => (r.id, r.wire)).filterMap fun r =>
        r.2.map fun wire => (wireContractBase + r.1, wire)).map Prod.snd := by
    intro rows
    induction rows with
    | nil => rfl
    | cons r rest ih =>
        cases named : r.wire with
        | none => simp [named, ih]
        | some wire => simp [named, ih]
  simp only [Gyre.wires, Plates.tags, Gyre.sparkTags, WardTables.plates, board, List.map_append,
    List.map_flatMap, List.map_map]
  rfl

/-- Names on the wire of one ward are told apart by their local names. -/
theorem nodup_named {ward : Int} {tags : List (Nat × Nat)} (locals : (tags.map Prod.fst).Nodup)
    (named : ∀ t ∈ tags, wireId ward t.1 = some t.2) : (tags.map Prod.snd).Nodup := by
  apply List.Nodup.map_on _ (List.Nodup.of_map _ locals)
  intro t mem t' mem' same
  apply Prod.ext
  · have told := named t mem
    rw [same] at told
    exact (wireId_inj told (named t' mem')).2
  · exact same

section Tags

variable {ward : Int} {p : Plates}

theorem Plates.Proper.named (proper : p.Proper ward) :
    ∀ t ∈ p.tags, wireId ward t.1 = some t.2 := by
  intro t mem
  rcases List.mem_append.mp mem with fixed | contract
  · rcases List.mem_append.mp fixed with queen | venue
    · have ⟨wire, there, made⟩ := List.mem_map.mp queen
      rw [← made]
      exact proper.queen wire there
    · have ⟨v, there, made⟩ := List.mem_map.mp venue
      have ⟨i, _, number, named⟩ := proper.venue v there
      rw [← made, number]
      exact named
  · have ⟨r, there, made⟩ := List.mem_filterMap.mp contract
    have ⟨wire, told, plate⟩ := Option.map_eq_some_iff.mp made
    rw [← plate]
    exact proper.contract r there wire told

/-- The Queen is at 0, a venue behind her, and a contract far behind both. -/
theorem Plates.Proper.ranges (proper : p.Proper ward) :
    (∀ loc ∈ (p.queen.map fun wire => (wireQueen, wire)).map Prod.fst, loc = wireQueen) ∧
      (∀ loc ∈ (p.venue.map fun v => (wireVenueBase + v.1.toNat, v.2)).map Prod.fst,
        wireVenueBase ≤ loc ∧ loc < wireVenueBase + nVenues) ∧
      ∀ loc ∈ (p.board.filterMap fun r =>
        r.2.map fun wire => (wireContractBase + r.1, wire)).map Prod.fst,
        wireContractBase ≤ loc := by
  constructor
  · intro loc mem
    simp only [List.map_map, List.mem_map, Function.comp_apply] at mem
    have ⟨_, _, made⟩ := mem
    exact made.symm
  · constructor
    · intro loc mem
      simp only [List.map_map, List.mem_map, Function.comp_apply] at mem
      have ⟨v, there, made⟩ := mem
      have ⟨i, small, number, _⟩ := proper.venue v there
      rw [number, Int.toNat_natCast] at made
      omega
    · intro loc mem
      have ⟨t, there, made⟩ := List.mem_map.mp mem
      have ⟨r, _, told⟩ := List.mem_filterMap.mp there
      have ⟨wire, _, plate⟩ := Option.map_eq_some_iff.mp told
      rw [← made, ← plate]
      exact Nat.le_add_right ..

theorem Plates.Proper.locals (proper : p.Proper ward) : (p.tags.map Prod.fst).Nodup := by
  have ⟨queens, venues, contracts⟩ := proper.ranges
  have queen : ((p.queen.map fun wire => (wireQueen, wire)).map Prod.fst).Nodup := by
    have one := proper.oneQueen
    cases queens : p.queen with
    | nil => exact List.nodup_nil
    | cons wire rest =>
        rw [queens, List.length_cons] at one
        have alone : rest = [] := List.length_eq_zero_iff.mp (by omega)
        rw [alone]
        exact List.nodup_singleton _
  have venue : ((p.venue.map fun v => (wireVenueBase + v.1.toNat, v.2)).map Prod.fst).Nodup := by
    rw [List.map_map]
    apply List.Nodup.map_on _ (List.Nodup.of_map _ proper.venues)
    intro v mem v' mem' same
    have ⟨i, _, number, _⟩ := proper.venue v mem
    have ⟨i', _, number', _⟩ := proper.venue v' mem'
    simp only [Function.comp_apply, number, number', Int.toNat_natCast] at same
    apply List.inj_on_of_nodup_map proper.venues mem mem'
    omega
  have contract : ((p.board.filterMap fun r =>
      r.2.map fun wire => (wireContractBase + r.1, wire)).map Prod.fst).Nodup := by
    have among : ∀ rows : List (Nat × Option Nat),
        ((rows.filterMap fun r => r.2.map fun wire => (wireContractBase + r.1, wire)).map
          Prod.fst).Sublist ((rows.map Prod.fst).map (wireContractBase + ·)) := by
      intro rows
      induction rows with
      | nil => exact .slnil
      | cons r rest ih =>
          rcases r with ⟨id, named⟩
          cases named with
          | none => exact ih.cons _
          | some wire => exact ih.cons_cons _
    apply (among p.board).nodup
    exact proper.contracts.map fun _ _ same => Nat.add_left_cancel same
  rw [Plates.tags, List.map_append, List.map_append, List.nodup_append, List.nodup_append]
  constructor
  · constructor
    · exact queen
    · constructor
      · exact venue
      · intro loc mem loc' mem' same
        have first := queens loc mem
        have later := venues loc' mem'
        unfold wireQueen at first
        unfold wireVenueBase at later
        omega
  · constructor
    · exact contract
    · intro loc mem loc' mem' same
      have far := contracts loc' mem'
      unfold wireContractBase at far
      rcases List.mem_append.mp mem with first | second
      · have near := queens loc first
        unfold wireQueen at near
        omega
      · have near := venues loc second
        unfold wireVenueBase nVenues at near
        omega

end Tags

section Distinct

variable {game : Game}

/-- A Spark of a game has a local name behind the venues and before the contracts. -/
theorem sparkLocal_range {id : Int} (real : 0 ≤ id) (low : id < maxWards * sparksPerWard) :
    sparkLocal id = wireSparkBase + id.toNat ∧ wireSparkBase ≤ sparkLocal id ∧
      sparkLocal id < wireContractBase := by
  rw [zones_size] at low
  have known := sparkLocal_eq real (by omega)
  constructor
  · exact known
  · rw [known]
    unfold wireSparkBase wireContractBase
    omega

/-- In a ward of a game, every name on the wire is one of the ward's, and no two are the same. -/
theorem InGame.wires {i : Nat} {g : Gyre} (inGame : InGame i g)
    (ids : (g.sparks.map (·.id)).Nodup) :
    (∀ wire ∈ g.wires, ∃ loc, wireId i loc = some wire) ∧ g.wires.Nodup := by
  have proper := inGame.named.tables.now
  have range : ∀ s ∈ g.sparks, 0 ≤ s.id ∧ s.id < maxWards * sparksPerWard := by
    intro s mem
    have seat := inGame.seats.spark (s.id, s.db.name) (List.mem_map.mpr ⟨s, mem, rfl⟩)
    exact ⟨seat.1, seat.2.1⟩
  have locals : g.sparkTags.map Prod.fst = g.sparks.map fun s => sparkLocal s.id := by
    have each : ∀ s ∈ g.sparks,
        (s.db.now.spark.map fun r => (sparkLocal s.id, r.wire)).map Prod.fst =
          [sparkLocal s.id] := by
      intro s mem
      have ⟨r, rows, _⟩ := (inGame.sound.spark mem).1.rows.now.row
      rw [rows]
      rfl
    rw [Gyre.sparkTags, List.map_flatMap, List.flatMap_congr each]
    exact List.flatMap_pure_eq_map _ _
  have named : ∀ t ∈ g.ward.now.plates.tags ++ g.sparkTags, wireId i t.1 = some t.2 := by
    intro t mem
    rcases List.mem_append.mp mem with house | spark
    · exact proper.named t house
    · have ⟨s, there, told⟩ := List.mem_flatMap.mp spark
      have ⟨r, row, made⟩ := List.mem_map.mp told
      have ⟨k, here⟩ := List.mem_iff_getElem?.mp there
      rw [← made]
      exact (inGame.named.spark k s here).now r row
  have apart : ((g.ward.now.plates.tags ++ g.sparkTags).map Prod.fst).Nodup := by
    rw [List.map_append, List.nodup_append, locals]
    constructor
    · exact proper.locals
    · constructor
      · have known : g.sparks.map (fun s => sparkLocal s.id) =
            (g.sparks.map (·.id)).map sparkLocal := by
          rw [List.map_map]
          rfl
        rw [known]
        apply List.Nodup.map_on _ ids
        intro id mem id' mem' same
        have ⟨s, there, made⟩ := List.mem_map.mp mem
        have ⟨s', there', made'⟩ := List.mem_map.mp mem'
        have ⟨real, low⟩ := range s there
        have ⟨real', low'⟩ := range s' there'
        rw [← made, ← made'] at same ⊢
        rw [(sparkLocal_range real low).1, (sparkLocal_range real' low').1] at same
        omega
      · intro loc mem loc' mem' same
        have ⟨s, there, made⟩ := List.mem_map.mp mem'
        have ⟨real, low⟩ := range s there
        have ⟨_, behind, before⟩ := sparkLocal_range real low
        have ⟨queens, venues, contracts⟩ := proper.ranges
        rw [Plates.tags, List.map_append, List.map_append] at mem
        unfold wireSparkBase at behind
        rcases List.mem_append.mp mem with fixed | contract
        · rcases List.mem_append.mp fixed with queen | venue
          · have near := queens loc queen
            unfold wireQueen at near
            omega
          · have near := venues loc venue
            unfold wireVenueBase nVenues at near
            omega
        · have far := contracts loc contract
          omega
  rw [wires_tags]
  constructor
  · intro wire mem
    have ⟨t, there, made⟩ := List.mem_map.mp mem
    exact ⟨t.1, made ▸ named t there⟩
  · exact nodup_named apart named

theorem Game.Apart.wires (apart : game.Apart) : game.wires.Nodup := by
  have wards : ∀ (i : Nat) (g : Gyre), game.wards[i]? = some g →
      (∀ wire ∈ g.wires, ∃ loc, wireId i loc = some wire) ∧ g.wires.Nodup := by
    intro i g here
    apply (apart.ward i g here).wires
    have ids := (List.nodup_flatMap.mp apart.ids).1
    exact ids g (List.mem_of_getElem? here)
  rw [Game.wires, List.nodup_flatMap]
  constructor
  · intro g mem
    have ⟨i, here⟩ := List.mem_iff_getElem?.mp mem
    exact (wards i g here).2
  · rw [List.pairwise_iff_getElem]
    intro i j inside inside' before wire mem mem'
    have ⟨loc, named⟩ := (wards i _ (List.getElem?_eq_getElem inside)).1 wire mem
    have ⟨loc', named'⟩ := (wards j _ (List.getElem?_eq_getElem inside')).1 wire mem'
    have same := (wireId_inj named named').1
    omega

/-- No two entities of a game share a name or a database. -/
structure Game.Distinct (game : Game) : Prop where
  ids : game.ids.Nodup
  databases : game.databases.Nodup
  wires : game.wires.Nodup

/-- In a game in which nobody arrives under an id that a Spark of the game has, no two entities
share a name or a database. -/
theorem names_are_distinct (game : Game) (plays : Plays Fresh game) : game.Distinct := by
  have apart : game.Apart := by
    induction plays with
    | founded shards => exact shards.apart
    | played _ fresh succeeds ih => exact ih.play fresh succeeds
  exact ⟨apart.ids, apart.databases, apart.wires⟩

end Distinct

/-! ### Two wards -/

/-- Two wards as `shard` founds them, with `n` Sparks and with one, on a plane that fails nothing. -/
def twoWards (n : Nat) (seed : UInt64) : Game :=
  let first := (foundWard (shardName 0) n seed ((0 * sparksPerWard : Nat) : Int)
    { g := Gyre.zero, plane := Plane.fresh fun _ => false }).2
  let second := (foundWard (shardName 1) 1 seed ((1 * sparksPerWard : Nat) : Int)
    { g := Gyre.zero, plane := first.plane }).2
  { wards := [first.g, second.g], plane := second.plane }

theorem shards_twoWards {n : Nat} (seed : UInt64) (fits : n ≤ sparksPerWard) :
    Shards (twoWards n seed) := by
  have ⟨_, w₀, first, quiet, _⟩ := lands_shardWard seed (show 0 < maxWards by decide) fits
    (Eq.refl (0 * sparksPerWard)) (Plane.fresh fun _ => false) fun _ => rfl
  have ⟨_, w₁, second, _, _⟩ := lands_shardWard seed (show 1 < maxWards by decide)
    (show 1 ≤ sparksPerWard by decide) (Eq.refl (1 * sparksPerWard)) w₀.plane quiet
  have none : Shards { wards := [], plane := Plane.fresh fun _ => false } := .none _
  have one : Shards { wards := [w₀.g], plane := w₀.plane } := none.ward (by decide) fits first
  have two : Shards { wards := [w₀.g, w₁.g], plane := w₁.plane } :=
    one.ward (show 1 < maxWards by decide) (show 1 ≤ sparksPerWard by decide) second
  have made : twoWards n seed = { wards := [w₀.g, w₁.g], plane := w₁.plane } := by
    simp only [twoWards, first, second]
  exact made ▸ two

/-- Calls that succeed one after another. -/
theorem Plays.calls {meets : Game → Play → Prop} {calls : List Play} {game game' : Game}
    (plays : Plays meets game) (admitted : ∀ game, ∀ call ∈ calls, meets game call)
    (run : calls.foldlM Game.play game = some game') : Plays meets game' := by
  induction calls generalizing game with
  | nil =>
      cases run
      exact plays
  | cons call rest ih =>
      rw [List.foldlM_cons] at run
      have ⟨next, first, later⟩ := Option.bind_eq_some_iff.mp run
      have here := plays.played (admitted game call (List.mem_cons_self ..)) first
      exact ih here (fun game call mem => admitted game call (List.mem_cons_of_mem _ mem)) later

/-- Nobody has the next id of the ward. -/
theorem fresh_cycle {game : Game} {i : Nat}
    (free : (game.wards[i]?.all fun g : Gyre =>
      decide ((g.wardNo * sparksPerWard + g.nsparks : Int) ∉ game.ids)) = true) :
    Fresh game (.cycle i) := by
  intro g here _
  rw [here, Option.all_some] at free
  exact of_decide_eq_true free

/-- A Spark migrates after a cycle of the ward they leave, and everybody is told apart. -/
theorem migrant_is_told_apart :
    ∃ game, [Play.cycle 0, .migrate 0 1 0].foldlM Game.play (twoWards 2 1) = some game ∧
      game.Distinct := by
  have lands : ([Play.cycle 0, .migrate 0 1 0].foldlM Game.play (twoWards 2 1)).isSome = true := by
    decide +kernel
  have ⟨game, run⟩ := Option.isSome_iff_exists.mp lands
  have split := run
  rw [List.foldlM_cons] at split
  have ⟨next, first, later⟩ := Option.bind_eq_some_iff.mp split
  have fresh : Fresh (twoWards 2 1) (.cycle 0) := fresh_cycle (by decide +kernel)
  have founded : Plays Fresh (twoWards 2 1) := .founded (shards_twoWards 1 (by decide))
  have plays : Plays Fresh game := by
    apply (founded.played fresh first).calls _ later
    intro _ call mem
    rw [List.mem_singleton.mp mem]
    trivial
  exact ⟨game, run, names_are_distinct game plays⟩

/-- After a migration, the next Spark to arrive is another Spark 9, over the first one's database. -/
theorem two_sparks_nine : ¬ ∀ game, Plays (fun _ _ => True) game → game.Distinct := by
  intro distinct
  let calls : List Play := List.replicate 11 (.cycle 0) ++ [.build 0 5, .migrate 0 1 0, .cycle 0]
  have ids : (calls.foldlM Game.play (twoWards 10 2978)).map Game.ids =
      some [1, 2, 3, 4, 5, 6, 7, 8, 9, 9, 1384, 0] := by decide +kernel
  have ⟨game, run, made⟩ := Option.map_eq_some_iff.mp ids
  have founded : Plays (fun _ _ => True) (twoWards 10 2978) :=
    .founded (shards_twoWards 2978 (by decide))
  have apart := (distinct game (founded.calls (fun _ _ _ => trivial) run)).ids
  rw [made] at apart
  exact absurd apart (by decide)

end GyreWard
