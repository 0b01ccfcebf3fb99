/-
Module: GyreWard.Proofs.NamedApart
Purpose: What `named_apart` gathers of a game, and when it finds every clash in it.
Trusted boundary: none
Main exports: Gyre.entities, Gyre.Wired, gatherWires_quiet, gatherAll_quiet, namedApart_quiet,
  named_apart_finds_every_clash_iff
-/
import GyreWard.Proofs.Distinct

namespace GyreWard

open Lib

/-- The names on the wire of a ward's venues, contracts and Sparks. -/
def Gyre.entities (g : Gyre) : List Nat :=
  g.ward.now.venue.map (·.wire) ++ g.ward.now.board.filterMap (·.wire) ++
    g.sparks.flatMap fun s => s.db.now.spark.map (·.wire)

/-- A ward whose databases are open, in which everything has one name, of 32 bits. -/
structure Gyre.Wired (g : Gyre) : Prop where
  isOpen : g.ward.isOpen = true
  created : g.ward.now.created = true
  named : ∀ r ∈ g.ward.now.board, r.wire ≠ none
  sparks : ∀ s ∈ g.sparks, s.db.isOpen = true ∧ s.db.now.created = true ∧
    ∃ r, s.db.now.spark = [r]
  words : ∀ wire ∈ g.entities, wire < 2 ^ 32

theorem Gyre.entities_sublist (g : Gyre) : g.entities.Sublist g.wires := by
  unfold Gyre.entities Gyre.wires
  rw [List.append_assoc, List.append_assoc, List.append_assoc]
  exact List.sublist_append_right _ _

/-- The name in a Spark's row. -/
def Spark.wire (s : Spark) : Nat := (s.db.now.spark.head?.map (·.wire)).getD 0

theorem wire_of_row {s : Spark} {r : SparkRow} (one : s.db.now.spark = [r]) : s.wire = r.wire := by
  unfold Spark.wire
  rw [one]
  rfl

theorem Gyre.Wired.sparkWires {g : Gyre} (wired : g.Wired) :
    (g.sparks.flatMap fun s => s.db.now.spark.map (·.wire)) = g.sparks.map Spark.wire := by
  have sparks := wired.sparks
  generalize g.sparks = list at sparks
  induction list with
  | nil => rfl
  | cons s rest ih =>
      obtain ⟨-, -, r, one⟩ := sparks s (List.mem_cons_self ..)
      rw [List.flatMap_cons, ih fun s' mem => sparks s' (List.mem_cons_of_mem _ mem), one,
        List.map_singleton, List.map_cons, wire_of_row one]
      rfl

theorem toUInt32_word {wire : Nat} (word : wire < 2 ^ 32) : toUInt32 (Int.ofNat wire) = wire := by
  change ((wire : Int) % 2 ^ 32).toNat = wire
  omega

theorem map_toUInt32 {wires : List Nat} (words : ∀ wire ∈ wires, wire < 2 ^ 32) :
    (wires.map Int.ofNat).map toUInt32 = wires := by
  rw [List.map_map]
  conv_rhs => rw [← List.map_id wires]
  apply List.map_congr_left
  intro wire mem
  exact toUInt32_word (words wire mem)

section Gathering

variable {w : World}

/-- A table's names, as far as there is room. -/
theorem gatherTable_quiet (quiet : Quiet w) (isOpen : w.g.ward.isOpen = true)
    (created : w.g.ward.now.created = true) {column : WardTables → List Int} {wires out : List Nat}
    (same : column w.g.ward.now = wires.map Int.ofNat) (words : ∀ wire ∈ wires, wire < 2 ^ 32)
    (fits : out.length ≤ namedCap) :
    gatherTable column out w = (.ret ((out ++ wires).take namedCap), w.after 1) := by
  unfold gatherTable
  rw [Action.bind_ret (fallible_quiet quiet), Action.bind_ret (Action.read_apply _ _)]
  have there : ¬ (¬ (w.after 1).g.ward.isOpen = true ∨ ¬ (w.after 1).g.ward.now.created = true) := by
    rw [not_or, not_not, not_not]
    exact ⟨isOpen, created⟩
  rw [if_neg there]
  change (Result.ret (((column w.g.ward.now).map toUInt32).foldl (push namedCap) out), _) = _
  rw [same, map_toUInt32 words, foldl_push fits]

/-- The Sparks' names, as far as there is room. -/
theorem gatherSparkWires_quiet {value : Nat → Nat} :
    ∀ {places out : List Nat} {w : World}, Quiet w →
      (∀ i ∈ places, value i < 2 ^ 32 ∧
        (w.g.askSpark i (selectSpark fun r => Int.ofNat r.wire)).getD (-1) = Int.ofNat (value i)) →
      out.length ≤ namedCap →
      ∃ n, gatherSparkWires places out w =
        (.ret ((out ++ places.map value).take namedCap), w.after n)
  | [], out, w, _, _, fits => by
      rw [List.map_nil, List.append_nil, List.take_of_length_le fits]
      exact ⟨0, rfl⟩
  | i :: rest, out, w, quiet, answers, fits => by
      unfold gatherSparkWires
      by_cases room : out.length < namedCap
      · obtain ⟨word, answer⟩ := answers i (List.mem_cons_self ..)
        have asked : scalarSpark i (selectSpark fun r => Int.ofNat r.wire) w =
            (.ret (Int.ofNat (value i)), w.after 1) := by
          rw [scalarSpark_quiet quiet, answer]
        have grown : (out ++ [value i]).length ≤ namedCap := by
          rw [List.length_append]
          exact room
        obtain ⟨n, run⟩ := gatherSparkWires_quiet (quiet_after 1 w |>.mpr quiet)
          (fun j mem => answers j (List.mem_cons_of_mem _ mem)) grown
        apply Exists.intro (1 + n)
        rw [if_pos room, Action.bind_ret asked, toUInt32_word word, run, World.after_after,
          List.append_assoc]
        rfl
      · have full : out.length = namedCap := Nat.le_antisymm fits (Nat.not_lt.mp room)
        rw [if_neg room, ← full, List.take_left]
        exact ⟨0, rfl⟩

/-- A ward's names, as far as there is room. -/
theorem gatherWires_quiet (quiet : Quiet w) (wired : w.g.Wired) {out : List Nat}
    (fits : out.length ≤ namedCap) :
    ∃ n, gatherWires out w = (.ret ((out ++ w.g.entities).take namedCap), w.after n) := by
  have short : ∀ list : List Nat, (list.take namedCap).length ≤ namedCap :=
    fun list => List.length_take_le _ _
  have words := wired.words
  unfold Gyre.entities at words
  have venues : gatherTable (fun t => t.venue.map fun v => Int.ofNat v.wire) out w =
      (.ret ((out ++ w.g.ward.now.venue.map (·.wire)).take namedCap), w.after 1) := by
    apply gatherTable_quiet quiet wired.isOpen wired.created
    · rw [List.map_map]
      rfl
    · exact fun wire mem => words wire (List.mem_append_left _ (List.mem_append_left _ mem))
    · exact fits
  have board : gatherTable (fun t => t.board.map fun r => Int.ofNat (r.wire.getD 0))
      ((out ++ w.g.ward.now.venue.map (·.wire)).take namedCap) (w.after 1) =
        (.ret ((((out ++ w.g.ward.now.venue.map (·.wire)).take namedCap) ++
          w.g.ward.now.board.filterMap (·.wire)).take namedCap), w.after 2) := by
    apply gatherTable_quiet (w := w.after 1) quiet wired.isOpen wired.created
    · have named := wired.named
      change w.g.ward.now.board.map _ = _
      generalize w.g.ward.now.board = rows at named
      induction rows with
      | nil => rfl
      | cons r rest ih =>
          have later := ih fun r' mem => named r' (List.mem_cons_of_mem _ mem)
          have here := named r (List.mem_cons_self ..)
          cases wire : r.wire with
          | none => exact absurd wire here
          | some n =>
              rw [List.map_cons, later, List.filterMap_cons_some wire, List.map_cons, wire]
              rfl
    · exact fun wire mem => words wire (List.mem_append_left _ (List.mem_append_right _ mem))
    · exact short _
  have answers : ∀ i ∈ List.range w.g.sparks.length,
      (w.g.sparks[i]?.map Spark.wire).getD 0 < 2 ^ 32 ∧
        (w.g.askSpark i (selectSpark fun r => Int.ofNat r.wire)).getD (-1) =
          Int.ofNat ((w.g.sparks[i]?.map Spark.wire).getD 0) := by
    intro i mem
    obtain ⟨s, here⟩ : ∃ s, w.g.sparks[i]? = some s :=
      ⟨_, List.getElem?_eq_getElem (List.mem_range.mp mem)⟩
    have inside := List.mem_of_getElem? here
    obtain ⟨isOpen, created, r, one⟩ := wired.sparks s inside
    rw [here, Option.map_some, Option.getD_some, wire_of_row one]
    constructor
    · apply words
      apply List.mem_append_right
      apply List.mem_flatMap.mpr
      apply Exists.intro s
      rw [one]
      exact ⟨inside, List.mem_singleton_self _⟩
    · simp [Gyre.askSpark, here, isOpen, created, selectSpark, one]
  obtain ⟨n, sparks⟩ := gatherSparkWires_quiet (w := w.after 2) quiet answers
    (short (((out ++ w.g.ward.now.venue.map (·.wire)).take namedCap) ++
      w.g.ward.now.board.filterMap (·.wire)))
  apply Exists.intro (2 + n)
  unfold gatherWires
  rw [Action.bind_ret venues, Action.bind_ret board, Action.bind_ret (Action.read_apply _ _)]
  change gatherSparkWires (List.range w.g.sparks.length) _ _ = _
  rw [sparks, World.after_after, take_append_take, List.append_assoc, take_append_take,
    map_range_getElem?, ← wired.sparkWires]
  simp only [Gyre.entities, List.append_assoc]

end Gathering

/-- The names of several wards, as far as there is room. -/
theorem gatherAll_quiet {wards : List Gyre} (wired : ∀ g ∈ wards, g.Wired) {plane : Plane}
    (quiet : ∀ k, plane.faults k = false) {all : List Nat} (fits : all.length ≤ namedCap) :
    ∃ plane', gatherAll wards all plane =
      (.ret ((all ++ wards.flatMap Gyre.entities).take namedCap), plane') := by
  induction wards generalizing plane all with
  | nil =>
      rw [List.flatMap_nil, List.append_nil, List.take_of_length_le fits]
      exact ⟨plane, rfl⟩
  | cons g rest ih =>
      obtain ⟨n, run⟩ := gatherWires_quiet (w := { g := g, plane := plane }) quiet
        (wired g (List.mem_cons_self ..)) fits
      have gathered : onPlane g (gatherWires all) plane =
          (.ret ((all ++ g.entities).take namedCap),
            (World.after n { g := g, plane := plane }).plane) := by
        unfold onPlane
        rw [run]
      have still : ∀ k, (World.after n { g := g, plane := plane }).plane.faults k = false := quiet
      obtain ⟨plane', later⟩ := ih (fun g' mem => wired g' (List.mem_cons_of_mem _ mem)) still
        (List.length_take_le namedCap (all ++ g.entities))
      apply Exists.intro plane'
      unfold gatherAll
      rw [Action.bind_ret gathered, later, take_append_take, List.flatMap_cons, List.append_assoc]

theorem byWire_le (x y : Nat) : decide (byWire x y ≤ 0) = true ↔ x ≤ y := by
  unfold byWire
  rw [decide_eq_true_eq]
  split <;> split <;> omega

/-- `named_apart` looks at the first `CAP` names. -/
theorem namedApart_quiet {wards : List Gyre} (wired : ∀ g ∈ wards, g.Wired) {plane : Plane}
    (quiet : ∀ k, plane.faults k = false) :
    (namedApart wards plane).1 = .ret true ↔
      ((wards.flatMap Gyre.entities).take namedCap).Nodup := by
  have empty : ([] : List Nat).length ≤ namedCap := Nat.zero_le _
  obtain ⟨plane', gathered⟩ := gatherAll_quiet wired quiet empty
  rw [List.nil_append] at gathered
  have attempted : Action.attempt (gatherAll wards []) plane =
      (.ret (some ((wards.flatMap Gyre.entities).take namedCap)), plane') := by
    unfold Action.attempt
    rw [gathered]
  rw [← apart_mergeSort_iff byWire_le]
  unfold namedApart
  rw [Action.bind_ret attempted]
  exact ⟨fun same => Result.ret.inj same, fun same => congrArg Result.ret same⟩

/-- A clash that is overlooked: the first `CAP` names differ, and one behind them is the name of
something in front of it. -/
structure Overlooked (names : List Nat) : Prop where
  first : (names.take namedCap).Nodup
  clash : ∃ before wire after, names = before ++ wire :: after ∧ namedCap ≤ before.length ∧
    wire ∈ before

/-- `named_apart` returns 0 exactly when no two venues, contracts or Sparks of the wards share a name,
unless it overlooks a clash. -/
theorem named_apart_finds_every_clash_iff (wards : List Gyre) (wired : ∀ g ∈ wards, g.Wired)
    (plane : Plane) (quiet : ∀ k, plane.faults k = false) :
    ((namedApart wards plane).1 = .ret true ↔ (wards.flatMap Gyre.entities).Nodup) ↔
      ¬ Overlooked (wards.flatMap Gyre.entities) := by
  rw [namedApart_quiet wired quiet]
  generalize wards.flatMap Gyre.entities = names
  constructor
  · intro finds overlooked
    obtain ⟨before, wire, after, split, -, again⟩ := overlooked.clash
    exact not_nodup_iff.mpr ⟨before, wire, after, split, again⟩ (finds.mp overlooked.first)
  · intro found
    constructor
    · intro first
      by_contra twice
      obtain ⟨before, wire, after, split, again⟩ := not_nodup_iff.mp twice
      apply found
      constructor
      · exact first
      refine ⟨before, wire, after, split, ?_, again⟩
      -- a clash within the cap would show among the first names
      by_contra early
      have cut : names.take namedCap =
          before ++ wire :: after.take (namedCap - before.length - 1) := by
        obtain ⟨k, room⟩ : ∃ k, namedCap = before.length + (k + 1) :=
          ⟨namedCap - before.length - 1, by omega⟩
        rw [split, room, List.take_length_add_append, List.take_succ_cons, Nat.add_sub_cancel_left,
          Nat.add_sub_cancel]
      exact not_nodup_iff.mpr ⟨before, wire, _, cut, again⟩ first
    · exact fun nodup => (List.take_sublist _ _).nodup nodup

/-! ### A game with too many names -/

/-- A ward whose first Spark is there twice. -/
def Gyre.twinned (g : Gyre) : Gyre := { g with sparks := g.sparks ++ g.sparks.take 1 }

/-- Seven full wards as `shard` founds them, and an eighth with one Spark less, the first of whom is
there twice. -/
def twinnedGame : List Gyre :=
  (List.range 7).map (fun i => shardWard i sparksPerWard 1) ++
    [(shardWard 7 (sparksPerWard - 1) 1).twinned]

theorem Shards.founds {wards : List Gyre} {plane : Plane} {m n : Nat} {seed : UInt64} {w : World}
    (shards : Shards { wards, plane }) (count : wards.length = m) (few : m < maxWards)
    (fits : n ≤ sparksPerWard)
    (founded : foundWard (shardName m) n seed ((m * sparksPerWard : Nat) : Int)
      { g := Gyre.zero, plane } = (.ret (), w)) :
    Shards { wards := wards ++ [w.g], plane := w.plane } := by
  subst count
  exact .ward shards few fits founded

/-- Full wards, and one more of any size, as `shard` founds them. -/
theorem shards_full {m n : Nat} (few : m < maxWards) (fits : n ≤ sparksPerWard) :
    ∃ plane, Shards
      { wards := (List.range m).map (fun i => shardWard i sparksPerWard 1) ++ [shardWard m n 1]
        plane } := by
  have full : ∀ m < maxWards, ∃ plane, (∀ k, plane.faults k = false) ∧
      Shards { wards := (List.range m).map fun i => shardWard i sparksPerWard 1, plane } := by
    intro m few
    induction m with
    | zero => exact ⟨Plane.fresh fun _ => false, fun _ => rfl, .none _⟩
    | succ m ih =>
        obtain ⟨plane, quiet, shards⟩ := ih (by omega)
        obtain ⟨_, w, founded, still, made⟩ :=
          lands_shardWard 1 (show m < maxWards by omega) (Nat.le_refl sparksPerWard) rfl plane quiet
        have count : ((List.range m).map fun i => shardWard i sparksPerWard 1).length = m := by
          rw [List.length_map, List.length_range]
        have grown := shards.founds count (by omega) (Nat.le_refl sparksPerWard) founded
        rw [made] at grown
        apply Exists.intro w.plane
        rw [List.range_succ, List.map_append]
        exact ⟨still, grown⟩
  obtain ⟨plane, quiet, shards⟩ := full m few
  obtain ⟨_, w, founded, -, made⟩ := lands_shardWard 1 few fits rfl plane quiet
  have count : ((List.range m).map fun i => shardWard i sparksPerWard 1).length = m := by
    rw [List.length_map, List.length_range]
  have grown := shards.founds count few fits founded
  rw [made] at grown
  exact ⟨w.plane, grown⟩

/-- The wards of a game have their names, once their contracts have theirs. -/
theorem InGame.wired {i : Nat} {g : Gyre} (inGame : InGame i g) (few : i < maxWards)
    (standing : g.Open) (ids : (g.sparks.map (·.id)).Nodup)
    (named : ∀ r ∈ g.ward.now.board, r.wire ≠ none) : g.Wired where
  isOpen := standing.isOpen
  created := standing.created
  named := named
  sparks := by
    intro s mem
    obtain ⟨k, here⟩ := List.getElem?_of_mem mem
    obtain ⟨isOpen, rows⟩ := inGame.sound.steady.spark k s here
    obtain ⟨created, r, one, -⟩ := rows.now
    exact ⟨isOpen, created, r, one⟩
  words := by
    intro wire mem
    have inside : wire ∈ g.wires := g.entities_sublist.subset mem
    obtain ⟨loc, made⟩ := (inGame.wires ids).1 wire inside
    obtain ⟨-, -, low, same⟩ := wireId_eq_some.mp made
    unfold maxWards at few
    unfold wireLocalMax wireLocalBits at low same
    omega

theorem Gyre.Wired.twinned {g : Gyre} (wired : g.Wired) : g.twinned.Wired := by
  have known : ∀ s ∈ g.twinned.sparks, s ∈ g.sparks := by
    intro s mem
    rcases List.mem_append.mp mem with old | again
    · exact old
    · exact List.mem_of_mem_take again
  constructor
  · exact wired.isOpen
  · exact wired.created
  · exact wired.named
  · exact fun s mem => wired.sparks s (known s mem)
  · intro wire mem
    apply wired.words
    rcases List.mem_append.mp mem with tables | spark
    · exact List.mem_append_left _ tables
    · obtain ⟨s, there, row⟩ := List.mem_flatMap.mp spark
      exact List.mem_append_right _ (List.mem_flatMap.mpr ⟨s, known s there, row⟩)

/-- A ward as it is founded: six venues, no contract, and as many names as venues and Sparks. -/
theorem shardWard_house (i n : Nat) (seed : UInt64) :
    (shardWard i n seed).ward.now.venue.length = nVenues ∧ (shardWard i n seed).ward.now.board = [] ∧
      (shardWard i n seed).sparks.length = n := by
  constructor
  · rw [shardWard, withSparks_eq]
    rfl
  constructor
  · rw [shardWard, withSparks_eq]
    rfl
  · rw [shardWard_sparks, List.length_map, List.length_range]

theorem shardWard_entities {i n : Nat} {seed : UInt64} (wired : (shardWard i n seed).Wired) :
    (shardWard i n seed).entities.length = nVenues + n := by
  obtain ⟨venues, board, sparks⟩ := shardWard_house i n seed
  unfold Gyre.entities
  rw [wired.sparkWires, board, List.length_append, List.length_append, List.length_map,
    List.length_map, venues, sparks]
  rfl

/-- In a founded ward of two Sparks no clash is overlooked. -/
theorem founded_ward_is_named_apart :
    (namedApart [shardWard 0 2 1] (Plane.fresh fun _ => false)).1 = .ret true ↔
      ([shardWard 0 2 1].flatMap Gyre.entities).Nodup := by
  obtain ⟨-, board, -⟩ := shardWard_house 0 2 1
  have ids : ((shardWard 0 2 1).sparks.map (·.id)).Nodup := by
    rw [shardWard_sparks]
    decide
  have wired : (shardWard 0 2 1).Wired := by
    apply (inGame_shardWard 1 (by decide) (by decide)).wired (by decide) (shardWard_open ..) ids
    rw [board]
    exact fun r none => by cases none
  have wards : ∀ g ∈ [shardWard 0 2 1], g.Wired := by
    intro g mem
    rw [List.mem_singleton.mp mem]
    exact wired
  apply (named_apart_finds_every_clash_iff [shardWard 0 2 1] wards _ fun _ => rfl).mpr
  intro overlooked
  obtain ⟨before, wire, after, split, many, -⟩ := overlooked.clash
  have lengths := congrArg List.length split
  rw [List.flatMap_singleton, shardWard_entities wired, List.length_append] at lengths
  unfold namedCap at many
  unfold nVenues at lengths
  omega

/-- The first Spark of a ward of twins answers to the name of another. -/
theorem twinned_clash {g : Gyre} (wired : g.Wired) (someone : g.sparks ≠ []) :
    ¬ g.twinned.entities.Nodup := by
  obtain ⟨s, rest, sparks⟩ := List.exists_cons_of_ne_nil someone
  obtain ⟨-, -, r, one⟩ := wired.sparks s (sparks ▸ List.mem_cons_self ..)
  apply not_nodup_iff.mpr
  refine ⟨g.entities, r.wire, [], ?_, ?_⟩
  · simp [Gyre.entities, Gyre.twinned, sparks, one]
  · simp [Gyre.entities, sparks, one]

theorem Gyre.twinned_ward (g : Gyre) : g.twinned.ward = g.ward := rfl

theorem twinned_length {g : Gyre} (someone : g.sparks ≠ []) :
    g.twinned.sparks.length = g.sparks.length + 1 := by
  obtain ⟨s, rest, sparks⟩ := List.exists_cons_of_ne_nil someone
  unfold Gyre.twinned
  rw [List.length_append, sparks]
  rfl

/-- A game of eight wards of as many Sparks as each has room for.  Two of the last ward answer to one
name, and `named_apart` returns 0. -/
theorem named_apart_overlooks_a_clash :
    twinnedGame.length = maxWards ∧
      (∀ g ∈ twinnedGame, g.Wired ∧ g.sparks.length = sparksPerWard ∧
        g.ward.now.venue.length = nVenues ∧ g.ward.now.board = []) ∧
      ¬ (twinnedGame.flatMap Gyre.entities).Nodup ∧
      (namedApart twinnedGame (Plane.fresh fun _ => false)).1 = .ret true := by
  obtain ⟨plane, shards⟩ := shards_full (m := 7) (n := sparksPerWard - 1) (by decide) (by decide)
  have apart := shards.apart
  generalize full : (List.range 7).map (fun i => shardWard i sparksPerWard 1) = wards at shards apart
  have count : wards.length = 7 := by
    rw [← full, List.length_map, List.length_range]
  have wired : ∀ g ∈ wards ++ [shardWard 7 (sparksPerWard - 1) 1],
      g.Open → g.ward.now.board = [] → g.Wired := by
    intro g mem standing empty
    obtain ⟨i, here⟩ := List.getElem?_of_mem mem
    have few := apart.few
    have inside := (List.getElem?_eq_some_iff.mp here).1
    apply (apart.ward i g here).wired (lt_of_lt_of_le inside few) standing
    · exact (List.nodup_flatMap.mp apart.ids).1 g mem
    · rw [empty]
      exact fun r none => by cases none
  have each : ∀ g ∈ wards, g.Wired ∧ g.sparks.length = sparksPerWard ∧
      g.ward.now.venue.length = nVenues ∧ g.ward.now.board = [] ∧
        g.entities.length = nVenues + sparksPerWard := by
    intro g mem
    have known := wired g (List.mem_append_left _ mem)
    rw [← full] at mem
    obtain ⟨i, -, rfl⟩ := List.mem_map.mp mem
    obtain ⟨venues, board, sparks⟩ := shardWard_house i sparksPerWard 1
    have known := known (shardWard_open ..) board
    exact ⟨known, sparks, venues, board, shardWard_entities known⟩
  obtain ⟨venues, board, sparks⟩ := shardWard_house 7 (sparksPerWard - 1) 1
  have last := wired _ (List.mem_append_right _ (List.mem_singleton_self _)) (shardWard_open ..) board
  have someone : (shardWard 7 (sparksPerWard - 1) 1).sparks ≠ [] := by
    rw [← List.length_pos_iff, sparks]
    decide
  have game : twinnedGame = wards ++ [(shardWard 7 (sparksPerWard - 1) 1).twinned] := by
    rw [← full]
    rfl
  generalize shardWard 7 (sparksPerWard - 1) 1 = g at *
  have all : ∀ g ∈ twinnedGame, g.Wired ∧ g.sparks.length = sparksPerWard ∧
      g.ward.now.venue.length = nVenues ∧ g.ward.now.board = [] := by
    intro g' mem
    rw [game] at mem
    rcases List.mem_append.mp mem with first | twins
    · obtain ⟨wired, sparks, venues, board, -⟩ := each g' first
      exact ⟨wired, sparks, venues, board⟩
    · obtain rfl := List.mem_singleton.mp twins
      have grown := twinned_length someone
      rw [sparks, Nat.sub_add_cancel (by decide)] at grown
      rw [g.twinned_ward]
      exact ⟨last.twinned, grown, venues, board⟩
  have names : twinnedGame.flatMap Gyre.entities =
      wards.flatMap Gyre.entities ++ g.twinned.entities := by
    rw [game, List.flatMap_append, List.flatMap_singleton]
  have many : (wards.flatMap Gyre.entities).length = 7 * (nVenues + sparksPerWard) := by
    have lengths : wards.map (fun g => g.entities.length) =
        wards.map fun _ => nVenues + sparksPerWard :=
      List.map_congr_left fun g mem => (each g mem).2.2.2.2
    rw [List.length_flatMap, lengths, List.map_const', count, List.sum_replicate_nat]
  refine ⟨?_, all, ?_, ?_⟩
  · rw [game, List.length_append, count]
    rfl
  · rw [names]
    intro nodup
    exact twinned_clash last someone (List.nodup_append.mp nodup).2.1
  · rw [namedApart_quiet (fun g mem => (all g mem).1) fun _ => rfl, names,
      List.take_append_of_le_length (by rw [many]; decide)]
    apply (List.take_sublist _ _).nodup
    have entities : (wards.flatMap Gyre.entities).Sublist (wards.flatMap Gyre.wires) :=
      List.Sublist.flatMap_right wards fun g _ => g.entities_sublist
    apply entities.nodup
    have wires := apart.wires
    rw [Game.wires, List.flatMap_append] at wires
    exact (List.nodup_append.mp wires).1

end GyreWard
