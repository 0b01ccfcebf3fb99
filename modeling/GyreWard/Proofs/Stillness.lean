/-
Module: GyreWard.Proofs.Stillness
Purpose: Over every run of ticks and thaws, what a tick selects has been still for as long as it should
  have been, and has been the same body all that time.
Trusted boundary: none
Main exports: Sighting, BenchRun, streak, Counts, AtRest, only_what_has_settled_is_selected
-/
import Mathlib.Algebra.Group.Int.Defs
import Mathlib.Algebra.Group.TypeTags.Basic
import Mathlib.Data.List.TakeWhile
import GyreWard.Proofs.Benches

namespace GyreWard

open Lib

section Stillness

variable {V S M P : Type} [LT V] [DecidableLT V]

/-! ### Sightings -/

/-- What a tick saw: how many times the model had been built again, the model, and the data. -/
structure Sighting (V S P : Type) where
  rebuilt : Int
  model : SceneModel S P
  data : MjData V P

/-- The sighting of a tick. -/
def Bench.sees (s : Bench S M P) (d : MjData V P) : Sighting V S P :=
  { rebuilt := s.f.recompiles, model := s.model, data := d }

/-- A sighting of a body that is slow, in the model that was built last. -/
def Sighting.slow (cfg : FreezeCfg V) (rebuilt : Int) (b : Nat) (x : Sighting V S P) : Bool :=
  x.rebuilt = rebuilt ∧ x.data.bodySpeed b < cfg.stillSpeed

/-- How many ticks in a row, up to the last one, have seen a body slow in that model. -/
def streak (cfg : FreezeCfg V) (rebuilt : Int) (b : Nat) (past : List (Sighting V S P)) : Nat :=
  (past.takeWhile (Sighting.slow cfg rebuilt b)).length

variable {cfg : FreezeCfg V} {keepPrefix : Option Text} {b : Nat} {d : MjData V P}

/-- A body that is slow now makes the streak one longer. -/
theorem streak_sees {s : Bench S M P} (slow : d.bodySpeed b < cfg.stillSpeed)
    (past : List (Sighting V S P)) :
    streak cfg s.f.recompiles b (s.sees d :: past) = streak cfg s.f.recompiles b past + 1 := by
  have here : Sighting.slow cfg s.f.recompiles b (s.sees d) = true := decide_eq_true ⟨rfl, slow⟩
  rw [streak, List.takeWhile_cons_of_pos here, List.length_cons]
  rfl

/-- A streak of some length is that many sightings, one after another. -/
theorem streak_sightings {n : Nat} {rebuilt : Int} {past : List (Sighting V S P)}
    (long : n ≤ streak cfg rebuilt b past) :
    ∃ recent older, past = recent ++ older ∧ recent.length = n ∧
      ∀ x ∈ recent, x.rebuilt = rebuilt ∧ x.data.bodySpeed b < cfg.stillSpeed := by
  have cut := List.takeWhile_append_dropWhile (l := past) (p := Sighting.slow cfg rebuilt b)
  have split := List.take_append_drop n (past.takeWhile (Sighting.slow cfg rebuilt b))
  refine ⟨_, (past.takeWhile (Sighting.slow cfg rebuilt b)).drop n ++
    past.dropWhile (Sighting.slow cfg rebuilt b), ?_, List.length_take_of_le long, ?_⟩
  · rw [← List.append_assoc, split, cut]
  · intro x mem
    have slow := List.mem_takeWhile_imp (List.mem_of_mem_take mem)
    exact of_decide_eq_true slow

/-! ### Counting -/

/-- What `is_freezable` lets pass: one joint, a free one, and a name that is not kept. -/
theorem isFreezable_iff {m : MjModel S P} :
    isFreezable m b keepPrefix = true ↔
      m.bodyJntnum b = 1 ∧ m.jntType (m.bodyJntadr b) = .free ∧
        ∀ kept, keepPrefix = some kept → kept ≠ [] → ¬ kept <+: m.bodyName b := by
  unfold isFreezable
  by_cases one : m.bodyJntnum b = 1
  · by_cases free : m.jntType (m.bodyJntadr b) = .free
    · rw [if_neg (not_not.mpr one), if_neg (not_not.mpr free)]
      cases keepPrefix with
      | none =>
          constructor
          · intro _
            exact ⟨one, free, fun kept some => by cases some⟩
          · intro _
            rfl
      | some kept =>
          rw [Bool.or_eq_true, List.isEmpty_iff, Bool.not_eq_true', ← Bool.not_eq_true,
            List.isPrefixOf_iff_prefix]
          constructor
          · rintro passes
            refine ⟨one, free, ?_⟩
            intro _ same some
            obtain rfl := Option.some.inj same
            exact passes.resolve_left some
          · rintro ⟨-, -, passes⟩
            by_cases empty : kept = []
            · exact .inl empty
            · exact .inr (passes kept rfl empty)
    · rw [if_neg (not_not.mpr one), if_pos free]
      constructor
      · intro no
        cases no
      · rintro ⟨-, yes, -⟩
        exact absurd yes free
  · rw [if_pos one]
    constructor
    · intro no
      cases no
    · rintro ⟨yes, -, -⟩
      exact absurd yes one

/-- A body that has been counted is free to go, and slow now. -/
theorem countStill_pos {f : Freeze} {m : MjModel S P} (body : b ∈ m.bodies)
    (counted : 0 < countStill f m d cfg keepPrefix b) :
    isFreezable m b keepPrefix = true ∧ d.bodySpeed b < cfg.stillSpeed ∧
      countStill f m d cfg keepPrefix b = f.stillFor b + 1 := by
  unfold countStill at counted ⊢
  rw [if_pos body] at counted ⊢
  split at counted
  · cases counted
  · next free =>
      split at counted
      · next slow =>
          rw [if_neg free, if_pos slow]
          exact ⟨by simpa using free, slow, rfl⟩
      · cases counted

/-- What is collected has been counted for long enough, alone or with its island. -/
theorem mem_ripeBodies {f : Freeze} {m : MjModel S P} (ripe : b ∈ ripeBodies f m d cfg keepPrefix) :
    b ∈ m.bodies ∧ cfg.stillTicks ≤ countStill f m d cfg keepPrefix b := by
  rw [ripeBodies_turns] at ripe
  obtain ⟨block, listed, inBlock⟩ := List.mem_flatten.mp (List.mem_of_mem_take ripe)
  obtain ⟨c, body, rfl⟩ := List.mem_map.mp listed
  refine ⟨(brings_company c).bodies body b inBlock, ?_⟩
  unfold company at inBlock
  split at inBlock
  · cases inBlock
  · next long =>
      split at inBlock
      · obtain rfl := List.mem_singleton.mp inBlock
        exact Nat.not_lt.mp long
      · split at inBlock
        · cases inBlock
        · next ready =>
            split at inBlock
            · exact Nat.not_lt.mp (still_of_ready (by simpa using ready) inBlock)
            · cases inBlock

/-! ### Runs -/

variable [Mul P] [Inv P]

/-- Ticks and thaws on one freeze state, in any order and on any data, all of whose builds succeed; with
what the ticks saw, the last one first. -/
inductive BenchRun (weigh : S → M) (thawMass : M) (build : Scene S M P → Option (SceneModel S P))
    (cfg : FreezeCfg V) (keepPrefix : Option Text) : Bench S M P → List (Sighting V S P) → Prop where
  | start {scene : Scene S M P} {model : SceneModel S P} (built : build scene = some model) :
      BenchRun weigh thawMass build cfg keepPrefix
        { f := weftFreezeInit model.toMjModel, scene, model } []
  | tick {s s' : Bench S M P} {past : List (Sighting V S P)} {n : Nat}
      (run : BenchRun weigh thawMass build cfg keepPrefix s past) (d : MjData V P)
      (ticked : s.tick weigh build cfg keepPrefix d = some (s', n)) :
      BenchRun weigh thawMass build cfg keepPrefix s' (s.sees d :: past)
  | thaw {s s' : Bench S M P} {past : List (Sighting V S P)} {n : Nat}
      (run : BenchRun weigh thawMass build cfg keepPrefix s past) (name : Text)
      (thawed : s.thaw thawMass build name = some (s', n)) :
      BenchRun weigh thawMass build cfg keepPrefix s' past

/-- What holds between two calls.  Only thaws change the number of bodies behind the back of the freeze
state, and they only make it greater; while it is the one that is known, nothing is counted that
was not seen. -/
structure Counts (cfg : FreezeCfg V) (s : Bench S M P) (past : List (Sighting V S P)) : Prop where
  built : Built s.scene s.model
  fewer : s.f.nbody ≤ s.model.nbody
  earlier : ∀ x ∈ past, x.rebuilt ≤ s.f.recompiles
  same : ∀ x ∈ past, x.rebuilt = s.f.recompiles → x.model = s.model
  counted : s.f.nbody = s.model.nbody → ∀ b ∈ s.model.bodies,
    s.f.stillFor b ≤ streak cfg s.f.recompiles b past

variable {weigh : S → M} {thawMass : M} {build : Scene S M P → Option (SceneModel S P)}
  {s s' : Bench S M P} {past : List (Sighting V S P)} {n : Nat}

omit [Inv P] in
/-- A tick keeps it. -/
theorem Counts.tick (faithful : ∀ scene m, build scene = some m → Built scene m)
    (counts : Counts cfg s past) (ticked : Ticked weigh build cfg keepPrefix s d s' n) :
    Counts cfg s' (s.sees d :: past) := by
  have earlier : ∀ x ∈ s.sees d :: past, x.rebuilt ≤ s.f.recompiles := by
    intro x mem
    rcases List.mem_cons.mp mem with rfl | before
    · exact Int.le_refl _
    · exact counts.earlier x before
  have same : ∀ x ∈ s.sees d :: past, x.rebuilt = s.f.recompiles → x.model = s.model := by
    intro x mem now
    rcases List.mem_cons.mp mem with rfl | before
    · rfl
    · exact counts.same x before now
  cases ticked with
  | skips other =>
      exact
        { built := counts.built
          fewer := Nat.le_refl _
          earlier
          same
          counted := fun _ b _ => Nat.zero_le _ }
  | counts known nothing =>
      refine { built := counts.built, fewer := counts.fewer, earlier, same, counted := ?_ }
      intro _ b body
      change countStill s.f s.model.toMjModel d cfg keepPrefix b ≤
        streak cfg s.f.recompiles b (s.sees d :: past)
      rcases Nat.eq_zero_or_pos (countStill s.f s.model.toMjModel d cfg keepPrefix b) with none | some
      · rw [none]
        exact Nat.zero_le _
      · obtain ⟨-, slow, more⟩ := countStill_pos body some
        rw [more, streak_sees slow]
        exact Nat.succ_le_succ (counts.counted known b body)
  | @freezes known something model made =>
      have rebuilt := faithful _ _ made
      -- the frozen bodies are gone, so the count cannot be the old one
      have less : model.nbody < s.f.nbody := by
        have before := counts.built.length_bodies
        have after := rebuilt.length_bodies
        have lost := length_staying something
        change (staying s.model.toMjModel (s.frozen cfg keepPrefix d) s.scene.bodies).length =
          model.nbody - 1 at after
        change (staying s.model.toMjModel (s.frozen cfg keepPrefix d) s.scene.bodies).length <
          s.scene.bodies.length at lost
        omega
      have restarts : s.recounted cfg keepPrefix d model =
          { stillFor := fun _ => 0, nbody := model.nbody
            frozenTotal := s.f.frozenTotal + ((s.frozen cfg keepPrefix d).length : Int)
            recompiles := s.f.recompiles + 1 } := if_pos (Nat.ne_of_gt less)
      rw [restarts]
      refine
        { built := rebuilt
          fewer := Nat.le_refl _
          earlier := fun x mem => Int.le_trans (earlier x mem) (Int.le_add_one (Int.le_refl _))
          same := ?_
          counted := fun _ b _ => Nat.zero_le _ }
      intro x mem now
      have before := earlier x mem
      dsimp only at now
      omega

/-- A thaw keeps it. -/
theorem Counts.thaw (faithful : ∀ scene m, build scene = some m → Built scene m)
    (counts : Counts cfg s past) {name : Text} (thawed : Thawed thawMass build s name s' n) :
    Counts cfg s' past := by
  cases thawed with
  | nothing none => exact counts
  | @back first named some model made =>
      have rebuilt := faithful _ _ made
      -- there is a body more, and the freeze state does not know
      have more : s.model.nbody < model.nbody := by
        have before := counts.built.length_bodies
        have after := rebuilt.length_bodies
        have grown : (s.returned thawMass name first).bodies.length = s.scene.bodies.length + 1 := by
          rw [Bench.returned, deletePieces_eq, List.length_append, List.length_map]
          rfl
        omega
      have fewer : s.f.nbody < model.nbody := Nat.lt_of_le_of_lt counts.fewer more
      refine
        { built := rebuilt
          fewer := Nat.le_of_lt fewer
          earlier := fun x mem => Int.le_trans (counts.earlier x mem) (Int.le_add_one (Int.le_refl _))
          same := ?_
          counted := fun known => absurd known (Nat.ne_of_lt fewer) }
      intro x mem now
      have before := counts.earlier x mem
      change x.rebuilt = s.f.recompiles + 1 at now
      omega

/-- It holds in every run. -/
theorem BenchRun.counts (faithful : ∀ scene m, build scene = some m → Built scene m)
    (run : BenchRun weigh thawMass build cfg keepPrefix s past) : Counts cfg s past := by
  induction run with
  | start built =>
      exact
        { built := faithful _ _ built
          fewer := Nat.le_refl _
          earlier := fun x mem => by cases mem
          same := fun x mem => by cases mem
          counted := fun _ b _ => Nat.zero_le _ }
  | tick _ d ticked ih => exact ih.tick faithful (tick_cases ticked)
  | thaw _ name thawed ih => exact ih.thaw faithful (thaw_cases thawed)

/-! ### What is selected -/

/-- A body is free and not kept, and has been slow in this tick and the ticks before it, as many as there
should be, in all of which the model was the one it is now. -/
structure AtRest (cfg : FreezeCfg V) (keepPrefix : Option Text) (s : Bench S M P)
    (past : List (Sighting V S P)) (d : MjData V P) (b : Nat) : Prop where
  one : s.model.bodyJntnum b = 1
  free : s.model.jntType (s.model.bodyJntadr b) = .free
  unkept : ∀ kept, keepPrefix = some kept → kept ≠ [] → ¬ kept <+: s.model.bodyName b
  still : ∃ recent older, s.sees d :: past = recent ++ older ∧ recent.length = cfg.stillTicks ∧
    ∀ x ∈ recent, x.rebuilt = s.f.recompiles ∧ x.model = s.model ∧
      x.data.bodySpeed b < cfg.stillSpeed

/-- In every run of ticks and thaws: what the next tick selects is at rest, alone or with its island. -/
theorem only_what_has_settled_is_selected (weigh : S → M) (thawMass : M)
    (build : Scene S M P → Option (SceneModel S P))
    (faithful : ∀ scene m, build scene = some m → Built scene m) (cfg : FreezeCfg V)
    (ticks : 1 ≤ cfg.stillTicks) (keepPrefix : Option Text) (s : Bench S M P)
    (past : List (Sighting V S P)) (run : BenchRun weigh thawMass build cfg keepPrefix s past)
    (d : MjData V P) : ∀ b ∈ s.selected cfg keepPrefix d, AtRest cfg keepPrefix s past d b := by
  intro b selected
  have counts := run.counts faithful
  unfold Bench.selected at selected
  split at selected
  · cases selected
  · next same =>
      have known : s.f.nbody = s.model.nbody := not_not.mp same
      obtain ⟨body, long⟩ := mem_ripeBodies selected
      obtain ⟨freezable, slow, more⟩ := countStill_pos body (Nat.lt_of_lt_of_le ticks long)
      obtain ⟨one, free, unkept⟩ := isFreezable_iff.mp freezable
      have enough : cfg.stillTicks ≤ streak cfg s.f.recompiles b (s.sees d :: past) := by
        rw [streak_sees slow]
        have seen := counts.counted known b body
        omega
      obtain ⟨recent, older, split, length, all⟩ := streak_sightings enough
      refine { one, free, unkept, still := ⟨recent, older, split, length, ?_⟩ }
      intro x mem
      obtain ⟨now, slow⟩ := all x mem
      have listed : x ∈ s.sees d :: past := by
        rw [split]
        exact List.mem_append_left _ mem
      rcases List.mem_cons.mp listed with rfl | before
      · exact ⟨now, rfl, slow⟩
      · exact ⟨now, counts.same x before now, slow⟩

end Stillness

/-! ### A crate on a floor -/

/-- A place on a line, where moving by one place after another adds up. -/
abbrev Line := Multiplicative Int

def home : Line := Multiplicative.ofAdd 0

def loneScene : Scene Nat Nat Line where
  world := [{ name := some (text "floor"), look := 0, mass := 0, pose := home }]
  bodies := [{ name := text "crate", ancestors := [], joints := [.free], pose := home
               geoms := [{ name := none, look := 1, mass := 2, pose := home }] }]

/-- Everything lies still and touches nothing. -/
def stillData : MjData Nat Line := { bodySpeed := fun _ => 0, dofIsland := none, xpose := fun _ => home }

def loneBench : Bench Nat Nat Line :=
  { f := weftFreezeInit loneScene.layOut.toMjModel, scene := loneScene, model := loneScene.layOut }

theorem loneScene_built : loneScene.build = some loneScene.layOut := if_pos (by decide)

def twoTicks : FreezeCfg Nat := { stillSpeed := 1, stillTicks := 2, maxPerTick := 8 }

def avatars : Option Text := some (text "avatar_")

/-- The bench after one tick. -/
def seenBench : Bench Nat Nat Line :=
  { loneBench with f := loneBench.counted twoTicks avatars stillData }

/-- The crate is at rest in the second tick that sees it. -/
theorem a_still_crate_is_at_rest :
    1 ∈ seenBench.selected twoTicks avatars stillData ∧
      AtRest twoTicks avatars seenBench [loneBench.sees stillData] stillData 1 := by
  have started : BenchRun (fun _ => 0) 2 Scene.build twoTicks avatars loneBench [] :=
    .start loneScene_built
  have once : BenchRun (fun _ => 0) 2 Scene.build twoTicks avatars seenBench
      [loneBench.sees stillData] := .tick started stillData rfl
  have ripe : 1 ∈ seenBench.selected twoTicks avatars stillData := by decide
  exact ⟨ripe, only_what_has_settled_is_selected (fun _ => 0) 2 Scene.build
    (fun _ _ built => build_faithful built) twoTicks (by decide) avatars seenBench _ once stillData 1
    ripe⟩

/-- With an empty prefix to keep, bodies are selected, and every name begins with it. -/
theorem the_empty_prefix_keeps_nothing :
    ¬ ∀ (cfg : FreezeCfg Nat) (keepPrefix : Option Text) (s : Bench Nat Nat Line)
        (past : List (Sighting Nat Nat Line)), 1 ≤ cfg.stillTicks →
        BenchRun (fun _ => 0) 2 Scene.build cfg keepPrefix s past → ∀ d,
          ∀ b ∈ s.selected cfg keepPrefix d, ∀ kept, keepPrefix = some kept →
            ¬ kept <+: s.model.bodyName b := by
  intro claim
  have run : BenchRun (fun _ => 0) 2 Scene.build (⟨1, 1, 8⟩ : FreezeCfg Nat) (some []) loneBench [] :=
    .start loneScene_built
  exact claim ⟨1, 1, 8⟩ (some []) loneBench [] (Nat.le_refl 1) run stillData 1 (by decide) [] rfl
    List.nil_prefix

end GyreWard
