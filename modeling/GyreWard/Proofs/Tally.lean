/-
Module: GyreWard.Proofs.Tally
Purpose: `frozen_total` against the bodies that were frozen and not thawed since, over every run of ticks
  and thaws.
Trusted boundary: human-reviewed spec (`TallyRun`)
Main exports: OnePiece, TallyRun, tick_tallies, thaw_tallies_iff, frozen_total_counts_the_frozen
-/
import GyreWard.Proofs.RoundTrip

namespace GyreWard

section Tally

variable {V S M P : Type}

/-! ### What is frozen -/

/-- The names of the bodies frozen and not thawed since, after a thaw that brought `n` geoms back. -/
def afterThaw (held : List Text) (name : Text) (n : Nat) : List Text :=
  if n = 0 then held else held.erase name

/-- How many geoms have a name as the pieces of a body have. -/
def Bench.alike (s : Bench S M P) (name : Text) : Nat :=
  (List.range s.model.ngeom).countP fun g => isPieceName name (s.model.geomName g)

/-- A thaw finds nothing, or one geom of a body that is frozen. -/
def OnePiece (s : Bench S M P) (held : List Text) (name : Text) : Prop :=
  name = [] ∨ s.alike name = 0 ∨ (s.alike name = 1 ∧ name ∈ held)

variable [LT V] [DecidableLT V] [Mul P] [Inv P]

/-- Ticks and thaws on one freeze state, in any order and on any data, all of whose builds succeed, and all
of whose thaws are `allowed`; with the names of the bodies frozen and not thawed since. -/
inductive TallyRun (weigh : S → M) (thawMass : M) (build : Scene S M P → Option (SceneModel S P))
    (cfg : FreezeCfg V) (keepPrefix : Option Text)
    (allowed : Bench S M P → List Text → Text → Prop) : Bench S M P → List Text → Prop where
  | start {scene : Scene S M P} {model : SceneModel S P} (built : build scene = some model) :
      TallyRun weigh thawMass build cfg keepPrefix allowed
        { f := weftFreezeInit model.toMjModel, scene, model } []
  | tick {s s' : Bench S M P} {held : List Text} {n : Nat}
      (run : TallyRun weigh thawMass build cfg keepPrefix allowed s held) (d : MjData V P)
      (ticked : s.tick weigh build cfg keepPrefix d = some (s', n)) :
      TallyRun weigh thawMass build cfg keepPrefix allowed s'
        (held ++ (s.frozen cfg keepPrefix d).map s.model.bodyName)
  | thaw {s s' : Bench S M P} {held : List Text} {n : Nat}
      (run : TallyRun weigh thawMass build cfg keepPrefix allowed s held) (name : Text)
      (fit : allowed s held name) (thawed : s.thaw thawMass build name = some (s', n)) :
      TallyRun weigh thawMass build cfg keepPrefix allowed s' (afterThaw held name n)

/-! ### Steps -/

variable {weigh : S → M} {thawMass : M} {build : Scene S M P → Option (SceneModel S P)}
  {cfg : FreezeCfg V} {keepPrefix : Option Text} {s s' : Bench S M P} {d : MjData V P} {n : Nat}
  {name : Text} {held : List Text}

omit [LT V] [DecidableLT V] [Mul P] [Inv P] in
theorem length_pieces (s : Bench S M P) (name : Text) :
    (pieces s.model name).length = min 32 (s.alike name) := by
  rw [pieces_eq, List.length_take, ← List.countP_eq_length_filter]
  rfl

omit [Inv P] in
/-- A tick adds one for every body. -/
theorem tick_tallies (ticked : Ticked weigh build cfg keepPrefix s d s' n) :
    s'.f.frozenTotal = s.f.frozenTotal + ((s.frozen cfg keepPrefix d).length : Int) := by
  cases ticked with
  | skips other =>
      have none : s.frozen cfg keepPrefix d = [] := by
        rw [Bench.frozen, Bench.selected, if_pos other]
        rfl
      rw [none]
      exact (Int.add_zero _).symm
  | counts known nothing =>
      rw [nothing]
      exact (Int.add_zero _).symm
  | freezes known something built =>
      dsimp only [Bench.recounted]
      split
      · rfl
      · rfl

omit [LT V] [DecidableLT V] in
/-- A thaw takes away one for every geom, so it keeps count when there is one, of a body that is frozen. -/
theorem thaw_tallies_iff (thawed : Thawed thawMass build s name s' n)
    (counted : s.f.frozenTotal = held.length) :
    s'.f.frozenTotal = (afterThaw held name n).length ↔ OnePiece s held name := by
  have many := length_pieces s name
  cases thawed with
  | nothing none =>
      constructor
      · intro _
        rcases none with empty | nothing
        · exact .inl empty
        · rw [nothing] at many
          exact .inr (.inl (by rw [List.length_nil] at many; omega))
      · intro _
        exact counted
  | @back first named some model built =>
      have found : (pieces s.model name).length ≠ 0 := by
        intro nothing
        rw [List.length_eq_zero_iff.mp nothing] at some
        cases some
      have total : (s.uncounted name).frozenTotal = held.length - ((pieces s.model name).length : Int) := by
        rw [← counted]
        rfl
      dsimp only
      rw [total, afterThaw, if_neg found]
      by_cases mem : name ∈ held
      · have less := List.length_erase_of_mem mem
        have some := List.length_pos_of_mem mem
        constructor
        · intro same
          exact .inr (.inr ⟨by omega, mem⟩)
        · rintro (empty | nothing | ⟨one, -⟩)
          · exact absurd empty named
          · omega
          · omega
      · rw [List.erase_of_not_mem mem]
        constructor
        · intro same
          omega
        · rintro (empty | nothing | ⟨-, there⟩)
          · exact absurd empty named
          · omega
          · exact absurd there mem

/-! ### Runs -/

/-- In every run whose thaws each find nothing, or one geom of a body that is frozen: the total is the number
of bodies frozen and not thawed since. -/
theorem frozen_total_counts_the_frozen (weigh : S → M) (thawMass : M)
    (build : Scene S M P → Option (SceneModel S P)) (cfg : FreezeCfg V) (keepPrefix : Option Text)
    (s : Bench S M P) (held : List Text)
    (run : TallyRun weigh thawMass build cfg keepPrefix OnePiece s held) :
    s.f.frozenTotal = held.length ∧ 0 ≤ s.f.frozenTotal := by
  have counted : s.f.frozenTotal = held.length := by
    induction run with
    | start _ => rfl
    | tick _ d ticked ih =>
        rw [tick_tallies (tick_cases ticked), ih, List.length_append, List.length_map]
        exact (Int.natCast_add _ _).symm
    | thaw _ name fit thawed ih => exact (thaw_tallies_iff (thaw_cases thawed) ih).mpr fit
  exact ⟨counted, counted ▸ Int.natCast_nonneg _⟩

end Tally

/-- A crate of one geom is frozen and thawed. -/
theorem a_crate_is_tallied :
    ∃ s : Bench Nat Nat Line, TallyRun (fun _ => 0) 2 Scene.build atOnce avatars OnePiece s [] ∧
      s.f.recompiles = 2 ∧ s.f.frozenTotal = ([] : List Text).length ∧ 0 ≤ s.f.frozenTotal := by
  have started : TallyRun (fun _ => 0) 2 Scene.build atOnce avatars OnePiece (crateScene 2).bench [] :=
    .start (if_pos (by decide))
  have frozen : TallyRun (fun _ => 0) 2 Scene.build atOnce avatars OnePiece (crateScene 2).settled
      [text "crate"] := .tick started stillData (n := 1) rfl
  have one : OnePiece (crateScene 2).settled [text "crate"] (text "crate") :=
    .inr (.inr ⟨by decide, List.mem_cons_self⟩)
  have after : (crateScene 2).settled.returned 2 (text "crate") 1 = crateScene 2 := by decide
  have back : (crateScene 2).settled.thaw 2 Scene.build (text "crate") =
      some ({ f := (crateScene 2).settled.uncounted (text "crate"), scene := crateScene 2
              model := (crateScene 2).layOut }, 1) := by
    rw [← after]
    rfl
  have thawed : TallyRun (fun _ => 0) 2 Scene.build atOnce avatars OnePiece _ [] :=
    .thaw frozen (text "crate") one back
  exact ⟨_, thawed, by decide, frozen_total_counts_the_frozen _ _ _ _ _ _ _ thawed⟩

/-- A crate of two geoms. -/
def pairScene : Scene Nat Nat Line :=
  { loneScene with bodies := [{ crate 2 with geoms := (crate 2).geoms ++ (crate 2).geoms }] }

/-- It is frozen, and its geoms are two less. -/
theorem a_pair_leaves_less_than_nothing :
    ¬ ∀ (s : Bench Nat Nat Line) (held : List Text),
        TallyRun (fun _ => 0) 2 Scene.build atOnce avatars (fun _ _ _ => True) s held →
          s.f.frozenTotal = held.length ∧ 0 ≤ s.f.frozenTotal := by
  intro claim
  have started : TallyRun (fun _ => 0) 2 Scene.build atOnce avatars (fun _ _ _ => True)
      pairScene.bench [] := .start (if_pos (by decide))
  have frozen : TallyRun (fun _ => 0) 2 Scene.build atOnce avatars (fun _ _ _ => True)
      pairScene.settled [text "crate"] := .tick started stillData (n := 1) rfl
  have after : pairScene.settled.returned 2 (text "crate") 1 = pairScene := by decide
  have back : pairScene.settled.thaw 2 Scene.build (text "crate") =
      some ({ f := pairScene.settled.uncounted (text "crate"), scene := pairScene
              model := pairScene.layOut }, 2) := by
    rw [← after]
    rfl
  have negative := (claim _ _ (.thaw frozen (text "crate") trivial back)).2
  exact absurd negative (by decide)

end GyreWard
