/-
Module: GyreWard.Proofs.Pieces
Purpose: What a thaw takes back, against what was frozen under the name: over every run of freezes, when
  the two are the same.
Trusted boundary: human-reviewed spec (`FreezeRun`)
Main exports: begins_frozenName, FreezeRun, Traced, ToldApart, Traced.exact_iff,
  a_thaw_takes_what_was_frozen_iff
-/
import Mathlib.Data.List.Forall2
import GyreWard.Proofs.Stillness

namespace GyreWard

open Lib

/-! ### Names -/

theorem decimal_plain {k : Nat} {c : UInt8} (digit : c ∈ decimal k) : c ≠ 0x23 := by
  rw [decimal, if_neg (by omega)] at digit
  obtain ⟨d, printed, rfl⟩ := List.mem_map.mp digit
  have isDigit := Nat.isDigit_of_mem_toDigits (by decide) (by decide) printed
  simp only [Char.isDigit, Bool.and_eq_true, decide_eq_true_eq] at isDigit
  have low := UInt32.le_iff_toNat_le.mp isDigit.1
  have high := UInt32.le_iff_toNat_le.mp isDigit.2
  change 48 ≤ d.toNat at low
  change d.toNat ≤ 57 at high
  intro same
  have value := congrArg UInt8.toNat same
  rw [UInt8.toNat_ofNat'] at value
  change d.toNat % 256 = 35 at value
  omega

/-- The name of a piece begins with a name and the separator when it is a piece of that body, or of one
whose own name begins so, and the separator is not cut off. -/
theorem begins_frozenName {name o : Text} {k : Nat} :
    name ++ text "#" <+: frozenName o k ↔
      (o = name ∨ name ++ text "#" <+: o) ∧ name.length ≤ 126 := by
  have short : (name ++ text "#").length ≤ 128 - 1 ↔ name.length ≤ 126 := by
    rw [List.length_append]
    change name.length + 1 ≤ 127 ↔ _
    omega
  rw [frozenName, fitted, List.prefix_take_iff, short]
  apply and_congr_left
  intro _
  constructor
  · intro begins
    rcases List.prefix_or_prefix_of_prefix begins (List.prefix_append (o ++ text "#") _) with
      inside | ⟨rest, longer⟩
    · rcases List.prefix_concat_iff.mp inside with same | begun
      · exact .inl (List.append_cancel_right same).symm
      · exact .inr begun
    · -- what follows the separator are digits, and no separator is one
      cases rest using List.reverseRecOn with
      | nil =>
          rw [List.append_nil] at longer
          exact .inl (List.append_cancel_right longer)
      | append_singleton front last _ =>
          have ends : last = 0x23 := by
            rw [← List.append_assoc] at longer
            exact List.singleton_inj.mp (List.append_inj_right' longer rfl)
          rw [← longer, List.prefix_append_right_inj] at begins
          have digit : last ∈ decimal k :=
            begins.subset (List.mem_append_right front (List.mem_singleton_self last))
          exact absurd ends (decimal_plain digit)
  · rintro (rfl | begun)
    · exact List.prefix_append _ _
    · exact begun.trans ((List.prefix_append _ _).trans (List.prefix_append _ _))

theorem isPieceName_iff {name : Text} {geomName : Option Text} :
    isPieceName name geomName = true ↔ ∃ gn, geomName = some gn ∧ name ++ text "#" <+: gn := by
  cases geomName with
  | none =>
      constructor
      · intro piece
        cases piece
      · rintro ⟨gn, none, -⟩
        cases none
  | some gn =>
      rw [isPieceName, Bool.and_eq_true, List.isPrefixOf_iff_prefix, List.isPrefixOf_iff_prefix]
      constructor
      · rintro ⟨⟨rest, rfl⟩, separator⟩
        rw [List.drop_left] at separator
        exact ⟨_, rfl, (List.prefix_append_right_inj name).mpr separator⟩
      · rintro ⟨gn, same, begins⟩
        obtain rfl := Option.some.inj same
        refine ⟨(List.prefix_append name _).trans begins, ?_⟩
        obtain ⟨rest, rfl⟩ := begins
        rw [List.append_assoc, List.drop_left]
        exact List.prefix_append _ _

/-! ### Where geoms come from -/

section Pieces

variable {V S M P : Type}

/-- Whose piece a geom is: the name of the body it was frozen from, and nothing for a geom that was not
frozen. -/
def originOf (origins : List (Option Text)) (g : Nat) : Option Text := origins.getD g none

theorem originOf_iff {origins : List (Option Text)} {g : Nat} {o : Text} :
    originOf origins g = some o ↔ ∃ inside : g < origins.length, origins[g] = some o := by
  rw [originOf, List.getD]
  by_cases inside : g < origins.length
  · rw [List.getElem?_eq_getElem inside]
    constructor
    · intro here
      exact ⟨inside, here⟩
    · rintro ⟨_, here⟩
      exact here
  · rw [List.getElem?_eq_none (Nat.not_lt.mp inside)]
    constructor
    · intro none
      cases none
    · rintro ⟨there, -⟩
      exact absurd there inside

/-- The geoms of a built model are those of the scene, in its order. -/
theorem Built.geomName_eq {scene : Scene S M P} {m : SceneModel S P} (built : Built scene m) {g : Nat}
    (geom : g < m.ngeom) : ∃ x, scene.geoms[g]? = some x ∧ m.geomName g = x.name ∧ m.geom g = x.plain := by
  have entry := congrArg (fun l => l[g]?) built.geoms
  have here : g < (List.range m.ngeom).length := by
    rw [List.length_range]
    exact geom
  simp only [List.getElem?_map, List.getElem?_eq_getElem here, List.getElem_range,
    Option.map_some] at entry
  obtain ⟨x, there, same⟩ := Option.map_eq_some_iff.mp entry.symm
  obtain ⟨name, plain⟩ := Prod.mk.inj same
  exact ⟨x, there, name.symm, plain.symm⟩

theorem Built.ngeom_eq {scene : Scene S M P} {m : SceneModel S P} (built : Built scene m) :
    m.ngeom = scene.geoms.length := by
  have lengths := congrArg List.length built.geoms
  rw [List.length_map, List.length_map, List.length_range] at lengths
  exact lengths

/-- The names of the world's geoms tell where they come from. -/
def Traced (scene : Scene S M P) (origins : List (Option Text)) : Prop :=
  List.Forall₂ (fun origin g => ∀ o, origin = some o → ∃ k, SpecGeom.name g = some (frozenName o k))
    origins scene.world

theorem Traced.named {scene : Scene S M P} {origins : List (Option Text)} (traced : Traced scene origins)
    {m : SceneModel S P} (built : Built scene m) {g : Nat} {o : Text}
    (frozen : originOf origins g = some o) :
    g < m.ngeom ∧ ∃ k, m.geomName g = some (frozenName o k) := by
  obtain ⟨same, each⟩ := List.forall₂_iff_get.mp traced
  obtain ⟨inside, entry⟩ := originOf_iff.mp frozen
  have world : g < scene.world.length := same ▸ inside
  have geom : g < m.ngeom := by
    rw [built.ngeom_eq, Scene.geoms, List.length_append]
    exact Nat.lt_add_right _ world
  obtain ⟨x, there, name, -⟩ := built.geomName_eq geom
  rw [Scene.geoms, List.getElem?_append_left world, List.getElem?_eq_getElem world] at there
  obtain rfl := Option.some.inj there
  obtain ⟨k, piece⟩ := each g inside world o entry
  exact ⟨geom, k, name.trans piece⟩

/-! ### Runs of freezes -/

section Runs

variable [LT V] [DecidableLT V]

/-- Where the geoms come from that a tick puts on the world. -/
def Bench.origins (cfg : FreezeCfg V) (keepPrefix : Option Text) (s : Bench S M P) (d : MjData V P) :
    List (Option Text) :=
  (s.frozen cfg keepPrefix d).flatMap fun b =>
    List.replicate (s.model.bodyGeomnum b) (some (s.model.bodyName b))

variable [Mul P]

/-- Ticks on one freeze state, on any data, all of whose builds succeed; with where the geoms of the
world come from. -/
inductive FreezeRun (weigh : S → M) (build : Scene S M P → Option (SceneModel S P))
    (cfg : FreezeCfg V) (keepPrefix : Option Text) : Bench S M P → List (Option Text) → Prop where
  | start {scene : Scene S M P} {model : SceneModel S P} (built : build scene = some model) :
      FreezeRun weigh build cfg keepPrefix { f := weftFreezeInit model.toMjModel, scene, model }
        (scene.world.map fun _ => none)
  | tick {s s' : Bench S M P} {origins : List (Option Text)} {n : Nat}
      (run : FreezeRun weigh build cfg keepPrefix s origins) (d : MjData V P)
      (ticked : s.tick weigh build cfg keepPrefix d = some (s', n)) :
      FreezeRun weigh build cfg keepPrefix s' (origins ++ s.origins cfg keepPrefix d)

variable {weigh : S → M} {build : Scene S M P → Option (SceneModel S P)} {cfg : FreezeCfg V}
  {keepPrefix : Option Text} {s s' : Bench S M P} {origins : List (Option Text)} {n : Nat}

/-- A tick names what it adds after the bodies it takes it from. -/
theorem Traced.tick {d : MjData V P} (traced : Traced s.scene origins)
    (ticked : Ticked weigh build cfg keepPrefix s d s' n) :
    Traced s'.scene (origins ++ s.origins cfg keepPrefix d) := by
  have unchanged (nothing : s.frozen cfg keepPrefix d = []) :
      Traced s.scene (origins ++ s.origins cfg keepPrefix d) := by
    rw [Bench.origins, nothing, List.flatMap_nil, List.append_nil]
    exact traced
  cases ticked with
  | skips other =>
      apply unchanged
      rw [Bench.frozen, Bench.selected, if_pos other]
      rfl
  | counts known nothing => exact unchanged nothing
  | freezes known something built =>
      apply List.rel_append traced
      apply List.rel_flatMap (R := Eq) (List.forall₂_refl _)
      rintro b _ rfl
      dsimp only
      have each : List.replicate (s.model.bodyGeomnum b) (some (s.model.bodyName b)) =
          (List.range (s.model.bodyGeomnum b)).map fun _ => some (s.model.bodyName b) := by
        rw [List.map_const', List.length_range]
      rw [each, promotedPieces, promotedGeoms, List.map_map, List.forall₂_map_left_iff,
        List.forall₂_map_right_iff, List.forall₂_same]
      intro k _ o same
      obtain rfl := Option.some.inj same
      exact ⟨k, rfl⟩

/-- What holds in every run. -/
theorem FreezeRun.traced (faithful : ∀ scene m, build scene = some m → Built scene m)
    (run : FreezeRun weigh build cfg keepPrefix s origins) :
    Built s.scene s.model ∧ Traced s.scene origins := by
  induction run with
  | start built =>
      refine ⟨faithful _ _ built, ?_⟩
      apply List.forall₂_map_left_iff.mpr
      apply List.forall₂_same.mpr
      intro _ _ o some
      cases some
  | tick _ d ticked ih =>
      obtain ⟨built, traced⟩ := ih
      have cases := tick_cases ticked
      refine ⟨?_, traced.tick cases⟩
      cases cases with
      | skips other => exact built
      | counts known nothing => exact built
      | freezes known something made => exact faithful _ _ made

end Runs

/-! ### Telling them apart -/

/-- A geom that a thaw takes for a piece of a body it is no piece of. -/
inductive Impostor (m : SceneModel S P) (origins : List (Option Text)) (name : Text) (g : Nat) : Prop where
  | scenery {gn : Text} (unfrozen : originOf origins g = none) (named : m.geomName g = some gn)
      (begins : name ++ text "#" <+: gn)
  | frozen {o : Text} (origin : originOf origins g = some o) (other : o ≠ name)
      (begins : name ++ text "#" <+: o) (fits : name.length ≤ 126)

/-- The name leaves room for the separator when anything was frozen under it, no more than 32 geoms were,
and an impostor comes behind as many. -/
structure ToldApart (m : SceneModel S P) (origins : List (Option Text)) (name : Text) : Prop where
  fits : some name ∈ origins → name.length ≤ 126
  few : origins.count (some name) ≤ 32
  behind : ∀ g < m.ngeom, Impostor m origins name g → 32 ≤ (origins.take g).count (some name)

/-- How many of the first geoms are pieces of a body. -/
theorem count_origins (origins : List (Option Text)) (name : Text) (n : Nat) :
    (List.range n).countP (fun g => decide (originOf origins g = some name)) =
      (origins.take n).count (some name) := by
  induction n with
  | zero => rfl
  | succ n ih =>
      rw [List.range_succ, List.countP_append, ih, List.take_add_one, List.count_append,
        List.countP_singleton]
      congr 1
      rw [originOf, List.getD]
      cases origins[n]? with
      | none => rfl
      | some origin =>
          rw [Option.getD_some, Option.toList_some, List.count_singleton]
          by_cases same : origin = some name
          · rw [if_pos (decide_eq_true same), if_pos (beq_iff_eq.mpr same)]
          · rw [if_neg (by simpa using same), if_neg (by simpa using same)]

/-- The pieces of a body pass when its name leaves room for the separator. -/
theorem Traced.passes {scene : Scene S M P} {origins : List (Option Text)} (traced : Traced scene origins)
    {m : SceneModel S P} (built : Built scene m) {name : Text} {g : Nat} {o : Text}
    (origin : originOf origins g = some o) :
    isPieceName name (m.geomName g) = true ↔
      (o = name ∨ name ++ text "#" <+: o) ∧ name.length ≤ 126 := by
  obtain ⟨-, k, named⟩ := traced.named built origin
  rw [named, isPieceName_iff, ← begins_frozenName (k := k)]
  constructor
  · rintro ⟨gn, same, begins⟩
    obtain rfl := Option.some.inj same
    exact begins
  · intro begins
    exact ⟨_, rfl, begins⟩

/-- A thaw takes back just what was frozen under the name when that can be told apart. -/
theorem Traced.exact_iff {scene : Scene S M P} {origins : List (Option Text)}
    (traced : Traced scene origins) {m : SceneModel S P} (built : Built scene m) (name : Text) :
    (∀ g, g ∈ pieces m name ↔ originOf origins g = some name) ↔ ToldApart m origins name := by
  have inside : ∀ g, decide (originOf origins g = some name) = true → g < m.ngeom := by
    intro g frozen
    exact (traced.named built (of_decide_eq_true frozen)).1
  have all : (List.range m.ngeom).countP (fun g => decide (originOf origins g = some name)) =
      origins.count (some name) := by
    have world : origins.length ≤ m.ngeom := by
      rw [built.ngeom_eq, Scene.geoms, List.length_append, (List.forall₂_iff_get.mp traced).1]
      exact Nat.le_add_right _ _
    rw [count_origins, List.take_of_length_le world]
  have impostor {g : Nat} (unfrozen : originOf origins g ≠ some name) :
      isPieceName name (m.geomName g) = true ↔ Impostor m origins name g := by
    cases origin : originOf origins g with
    | none =>
        rw [isPieceName_iff]
        constructor
        · rintro ⟨gn, named, begins⟩
          exact .scenery origin named begins
        · intro impostor
          cases impostor with
          | scenery _ named begins => exact ⟨_, named, begins⟩
          | frozen origin' =>
              rw [origin] at origin'
              cases origin'
    | some o =>
        have other : o ≠ name := fun same => unfrozen (origin.trans (congrArg some same))
        rw [traced.passes built origin]
        constructor
        · rintro ⟨same | begins, fits⟩
          · exact absurd same other
          · exact .frozen origin other begins fits
        · intro impostor
          cases impostor with
          | scenery none =>
              rw [origin] at none
              cases none
          | frozen origin' _ begins fits =>
              rw [origin] at origin'
              obtain rfl := Option.some.inj origin'
              exact ⟨.inr begins, fits⟩
  have chosen := chosen_iff (p := fun g => isPieceName name (m.geomName g)) (c := 32) inside
  simp only [decide_eq_true_eq, decide_eq_false_iff_not, all, count_origins] at chosen
  rw [pieces_eq, chosen]
  constructor
  · rintro ⟨passes, few, behind⟩
    refine { few, fits := ?_, behind := ?_ }
    · intro mem
      obtain ⟨g, there, here⟩ := List.getElem_of_mem mem
      have origin : originOf origins g = some name := originOf_iff.mpr ⟨there, here⟩
      exact ((traced.passes built origin).mp (passes g origin)).2
    · intro g geom there
      have unfrozen : originOf origins g ≠ some name := by
        cases there with
        | scenery none =>
            rw [none]
            intro same
            cases same
        | frozen origin other =>
            rw [origin]
            exact fun same => other (Option.some.inj same)
      exact behind g geom ((impostor unfrozen).mpr there) unfrozen
  · intro apart
    refine ⟨?_, apart.few, ?_⟩
    · intro g origin
      apply (traced.passes built origin).mpr
      refine ⟨.inl rfl, apart.fits ?_⟩
      obtain ⟨inside, entry⟩ := originOf_iff.mp origin
      rw [← entry]
      exact List.getElem_mem inside
    · intro g geom passes unfrozen
      exact apart.behind g geom ((impostor unfrozen).mp passes)

/-- In every world that ticks reach: a thaw takes back just the geoms that were frozen from the body of that
name exactly when they can be told apart. -/
theorem a_thaw_takes_what_was_frozen_iff [LT V] [DecidableLT V] [Mul P] (weigh : S → M)
    (build : Scene S M P → Option (SceneModel S P))
    (faithful : ∀ scene m, build scene = some m → Built scene m) (cfg : FreezeCfg V)
    (keepPrefix : Option Text) (s : Bench S M P) (origins : List (Option Text))
    (run : FreezeRun weigh build cfg keepPrefix s origins) (name : Text) (_named : name ≠ []) :
    (∀ g, g ∈ pieces s.model name ↔ originOf origins g = some name) ↔
      ToldApart s.model origins name := by
  obtain ⟨built, traced⟩ := run.traced faithful
  exact traced.exact_iff built name

end Pieces

/-! ### Scenes that freeze at once -/

def atOnce : FreezeCfg Nat := { stillSpeed := 1, stillTicks := 1, maxPerTick := 8 }

/-- A scene, before anything happens. -/
def Scene.bench (scene : Scene Nat Nat Line) : Bench Nat Nat Line :=
  { f := weftFreezeInit scene.layOut.toMjModel, scene, model := scene.layOut }

/-- A scene after one tick that finds everything still. -/
def Scene.settled (scene : Scene Nat Nat Line) : Bench Nat Nat Line :=
  let after := scene.bench.promoted (fun _ => 0) atOnce avatars stillData
  { f := scene.bench.recounted atOnce avatars stillData after.layOut, scene := after
    model := after.layOut }

/-- The crate comes back, and nothing else. -/
theorem the_crate_is_told_apart :
    ToldApart loneScene.settled.model [none, some (text "crate")] (text "crate") ∧
      ∀ g, g ∈ pieces loneScene.settled.model (text "crate") ↔
        originOf [none, some (text "crate")] g = some (text "crate") := by
  have started : FreezeRun (fun _ => 0) Scene.build atOnce avatars loneScene.bench [none] :=
    .start loneScene_built
  have run : FreezeRun (fun _ => 0) Scene.build atOnce avatars loneScene.settled
      [none, some (text "crate")] := .tick started stillData (n := 1) rfl
  have apart : ToldApart loneScene.settled.model [none, some (text "crate")] (text "crate") := by
    constructor
    · decide
    · decide
    · intro g geom impostor
      have two : loneScene.settled.model.ngeom = 2 := by decide
      cases impostor with
      | @scenery gn unfrozen named begins =>
          have first : g = 0 := by
            rcases g with _ | _ | g
            · rfl
            · exact absurd unfrozen (by decide)
            · omega
          have floor : loneScene.settled.model.geomName 0 = some (text "floor") := by decide
          rw [first, floor] at named
          obtain rfl := Option.some.inj named
          exact absurd begins (by decide)
      | @frozen o origin other =>
          obtain ⟨inside, entry⟩ := originOf_iff.mp origin
          rcases List.mem_cons.mp (entry ▸ List.getElem_mem inside) with none | crate
          · cases none
          · exact absurd (Option.some.inj (List.mem_singleton.mp crate)) other
  exact ⟨apart, (a_thaw_takes_what_was_frozen_iff (fun _ => 0) Scene.build
    (fun _ _ built => build_faithful built) atOnce avatars loneScene.settled _ run (text "crate")
    (by decide)).mpr apart⟩

def twinScene : Scene Nat Nat Line where
  world := []
  bodies := [
    { name := text "a", ancestors := [], joints := [.free], pose := home
      geoms := [{ name := none, look := 1, mass := 2, pose := home }] },
    { name := text "a#0", ancestors := [], joints := [.free], pose := home
      geoms := [{ name := none, look := 1, mass := 2, pose := home }] }]

/-- Of two bodies one has a name that begins as the pieces of the other are named. -/
theorem a_thaw_takes_a_neighbour :
    ¬ ∀ (s : Bench Nat Nat Line) (origins : List (Option Text)),
        FreezeRun (fun _ => 0) Scene.build atOnce avatars s origins → ∀ name, name ≠ [] →
          ∀ g, g ∈ pieces s.model name ↔ originOf origins g = some name := by
  intro claim
  have started : FreezeRun (fun _ => 0) Scene.build atOnce avatars twinScene.bench [] :=
    .start (if_pos (by decide))
  have run : FreezeRun (fun _ => 0) Scene.build atOnce avatars twinScene.settled
      [some (text "a"), some (text "a#0")] := .tick started stillData (n := 2) rfl
  have both : 1 ∈ pieces twinScene.settled.model (text "a") := by decide
  have other := (claim _ _ run (text "a") (by decide) 1).mp both
  exact absurd other (by decide)

end GyreWard
