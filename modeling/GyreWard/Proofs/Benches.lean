/-
Module: GyreWard.Proofs.Benches
Purpose: What a tick and a thaw make of the scene they work on, case by case.
Trusted boundary: none; what is known of MuJoCo's builder is stated here
Main exports: Built, foundAmong, promote_found, tick_cases, tick_is_weftFreezeTick, thaw_cases,
  Scene.layOut, Scene.build, build_faithful
-/
import GyreWard.Model.Thaw
import GyreWard.Proofs.Promotion

namespace GyreWard

open Lib

section Benches

variable {V S M P : Type}

/-- The model is what MuJoCo builds of the scene: its bodies, and its geoms in their order. -/
structure Built (scene : Scene S M P) (m : SceneModel S P) : Prop where
  compiled : Compiled scene.spec m.toMjModel
  geoms : (List.range m.ngeom).map (fun g => (m.geomName g, m.geom g)) =
    scene.geoms.map fun g => (g.name, g.plain)

/-- There are as many bodies in the model as in the scene, and the world. -/
theorem Built.length_bodies {scene : Scene S M P} {m : SceneModel S P} (built : Built scene m) :
    scene.bodies.length = m.nbody - 1 := by
  have lengths := congrArg List.length built.compiled.bodies
  simpa [Scene.spec, MjModel.bodies] using lengths

/-! ### Promotion -/

/-- The ripe bodies that are still there when it is their turn. -/
def foundAmong (m : MjModel S P) : List Nat → List (SceneBody S M P) → List Nat
  | [], _ => []
  | b :: rest, bodies =>
      if (bodies.find? fun c => c.name == m.bodyName b).isSome then
        b :: foundAmong m rest
          (bodies.filter fun c => c.name != m.bodyName b && !c.ancestors.contains (m.bodyName b))
      else foundAmong m rest bodies

/-- The bodies that are none of `gone`, and hang under none of them. -/
def staying (m : MjModel S P) (gone : List Nat) (bodies : List (SceneBody S M P)) :
    List (SceneBody S M P) :=
  bodies.filter fun c => clearOf m gone c.plain

variable {m : MjModel S P} {d : MjData V P} {b : Nat} {ripe : List Nat}
  {bodies : List (SceneBody S M P)}

theorem foundAmong_sublist : ∀ (ripe : List Nat) (bodies : List (SceneBody S M P)),
    (foundAmong m ripe bodies).Sublist ripe
  | [], _ => List.Sublist.refl _
  | b :: rest, bodies => by
      unfold foundAmong
      split
      · exact (foundAmong_sublist rest _).cons_cons b
      · exact (foundAmong_sublist rest _).cons b

/-- What is found was there. -/
theorem named_of_found (mem : b ∈ foundAmong m ripe bodies) :
    ∃ c ∈ bodies, c.name = m.bodyName b := by
  induction ripe generalizing bodies with
  | nil => cases mem
  | cons a rest ih =>
      unfold foundAmong at mem
      split at mem
      · next there =>
          rcases List.mem_cons.mp mem with rfl | later
          · obtain ⟨c, search⟩ := Option.isSome_iff_exists.mp there
            have named := List.find?_some search
            exact ⟨c, List.mem_of_find?_eq_some search, eq_of_beq named⟩
          · obtain ⟨c, kept, named⟩ := ih later
            exact ⟨c, List.mem_of_mem_filter kept, named⟩
      · exact ih mem

theorem staying_cons (a : Nat) (gone : List Nat) :
    staying m (a :: gone) bodies =
      staying m gone
        (bodies.filter fun c => c.name != m.bodyName a && !c.ancestors.contains (m.bodyName a)) := by
  unfold staying
  rw [List.filter_filter]
  apply List.filter_congr
  intro c _
  exact Bool.and_comm _ _

/-- When something is found, there are fewer bodies afterwards. -/
theorem length_staying (some : foundAmong m ripe bodies ≠ []) :
    (staying m (foundAmong m ripe bodies) bodies).length < bodies.length := by
  obtain ⟨b, rest, shape⟩ := List.exists_cons_of_ne_nil some
  have first : b ∈ foundAmong m ripe bodies := by
    rw [shape]
    exact List.mem_cons_self
  obtain ⟨c, there, named⟩ := named_of_found first
  apply List.length_filter_lt_length_iff_exists.mpr
  refine ⟨c, there, ?_⟩
  intro clear
  exact (clearOf_iff.mp clear b first).1 named

section Promote

variable [Mul P]

/-- One turn of the loop. -/
def Scene.promoteOne (weigh : S → M) (m : MjModel S P) (d : MjData V P) (so_far : Scene S M P × Nat)
    (b : Nat) : Scene S M P × Nat :=
  match so_far.1.findBody (m.bodyName b) with
  | none => so_far
  | some src =>
      (Scene.deleteBody
          { so_far.1 with world := so_far.1.world ++ promotedPieces weigh m d b } src.name,
        so_far.2 + 1)

theorem Scene.promote_fold (weigh : S → M) (ripe : List Nat) (scene : Scene S M P) :
    scene.promote weigh m d ripe = ripe.foldl (Scene.promoteOne weigh m d) (scene, 0) := rfl

/-- What promotion makes of the scene. -/
theorem promote_found (weigh : S → M) (ripe : List Nat) (scene : Scene S M P) :
    scene.promote weigh m d ripe =
      ({ world := scene.world ++
          (foundAmong m ripe scene.bodies).flatMap (promotedPieces weigh m d)
         bodies := staying m (foundAmong m ripe scene.bodies) scene.bodies },
        (foundAmong m ripe scene.bodies).length) := by
  have loop : ∀ (ripe : List Nat) (world : List (SpecGeom S M P)) (bodies : List (SceneBody S M P))
      (frozen : Nat),
      ripe.foldl (Scene.promoteOne weigh m d) ({ world, bodies }, frozen) =
        ({ world := world ++ (foundAmong m ripe bodies).flatMap (promotedPieces weigh m d)
           bodies := staying m (foundAmong m ripe bodies) bodies },
          frozen + (foundAmong m ripe bodies).length) := by
    intro ripe
    induction ripe with
    | nil =>
        intro world bodies frozen
        have all : staying m [] bodies = bodies := List.filter_true _
        simp only [List.foldl_nil, foundAmong, List.flatMap_nil, List.append_nil, all,
          List.length_nil, Nat.add_zero]
    | cons b rest ih =>
        intro world bodies frozen
        rw [List.foldl_cons, foundAmong, Scene.promoteOne, Scene.findBody]
        cases search : bodies.find? fun c => c.name == m.bodyName b with
        | none => exact ih world bodies frozen
        | some src =>
            have same := List.find?_some search
            have named : src.name = m.bodyName b := eq_of_beq same
            dsimp only [Scene.deleteBody]
            rw [named, ih, if_pos Option.isSome_some, staying_cons, List.flatMap_cons, List.append_assoc,
              List.length_cons, Nat.add_assoc, Nat.add_comm 1]
  have whole := loop ripe scene.world scene.bodies 0
  rw [Nat.zero_add] at whole
  exact whole

theorem spec_promoteOne (weigh : S → M) (so_far : Scene S M P × Nat) (b : Nat) :
    ((Scene.promoteOne weigh m d so_far b).1.spec, (Scene.promoteOne weigh m d so_far b).2) =
      promoteOne m d (so_far.1.spec, so_far.2) b := by
  have search : mjsFindBody so_far.1.spec (m.bodyName b) =
      (so_far.1.findBody (m.bodyName b)).map SceneBody.plain := List.find?_map ..
  unfold Scene.promoteOne promoteOne
  rw [search]
  cases so_far.1.findBody (m.bodyName b) with
  | none => rfl
  | some src =>
      have placed : (promotedPieces weigh m d b).map
          (fun g => ({ name := g.name.getD [], look := g.look, pose := g.pose } : WorldGeom S P)) =
          promotedGeoms m d b := by
        rw [promotedPieces, List.map_map]
        exact List.map_id _
      simp only [Option.map_some, Scene.spec, Scene.deleteBody, mjsDelete, List.map_append, placed,
        List.filter_map]
      rfl

/-- What promotion makes of the scene is what it makes of the part a tick looks at. -/
theorem spec_promote (weigh : S → M) (ripe : List Nat) (scene : Scene S M P) :
    ((scene.promote weigh m d ripe).1.spec, (scene.promote weigh m d ripe).2) =
      promote m d ripe scene.spec := by
  have loop : ∀ (ripe : List Nat) (so_far : Scene S M P × Nat),
      ((ripe.foldl (Scene.promoteOne weigh m d) so_far).1.spec,
        (ripe.foldl (Scene.promoteOne weigh m d) so_far).2) =
        ripe.foldl (promoteOne m d) (so_far.1.spec, so_far.2) := by
    intro ripe
    induction ripe with
    | nil => intro so_far; rfl
    | cons b rest ih =>
        intro so_far
        rw [List.foldl_cons, List.foldl_cons, ih, spec_promoteOne]
  exact loop ripe (scene, 0)

/-- Nothing found, nothing changed. -/
theorem promote_nothing (weigh : S → M) (ripe : List Nat) (scene : Scene S M P)
    (nothing : (scene.promote weigh m d ripe).2 = 0) : (scene.promote weigh m d ripe).1 = scene := by
  rw [promote_found] at nothing ⊢
  have none : foundAmong m ripe scene.bodies = [] := List.length_eq_zero_iff.mp nothing
  have all : staying m [] scene.bodies = scene.bodies := List.filter_true _
  simp only [none, List.flatMap_nil, List.append_nil, all]

end Promote

/-! ### Ticks -/

section Tick

variable [Mul P] [LT V] [DecidableLT V]
variable {weigh : S → M} {build : Scene S M P → Option (SceneModel S P)} {cfg : FreezeCfg V}
  {keepPrefix : Option Text} {s s' : Bench S M P} {n : Nat}

/-- The freeze state after the counting of a tick. -/
def Bench.counted (cfg : FreezeCfg V) (keepPrefix : Option Text) (s : Bench S M P)
    (d : MjData V P) : Freeze :=
  { s.f with stillFor := countStill s.f s.model.toMjModel d cfg keepPrefix }

/-- A freeze state that has to begin counting again, for a number of bodies. -/
def Freeze.restarted (f : Freeze) (nbody : Nat) : Freeze :=
  { f with stillFor := fun _ => 0, nbody }

/-- The bodies a tick freezes. -/
def Bench.frozen (cfg : FreezeCfg V) (keepPrefix : Option Text) (s : Bench S M P)
    (d : MjData V P) : List Nat :=
  foundAmong s.model.toMjModel (s.selected cfg keepPrefix d) s.scene.bodies

/-- The scene a tick leaves. -/
def Bench.promoted (weigh : S → M) (cfg : FreezeCfg V) (keepPrefix : Option Text)
    (s : Bench S M P) (d : MjData V P) : Scene S M P where
  world := s.scene.world ++
    (s.frozen cfg keepPrefix d).flatMap (promotedPieces weigh s.model.toMjModel d)
  bodies := staying s.model.toMjModel (s.frozen cfg keepPrefix d) s.scene.bodies

/-- The freeze state a tick leaves that froze something, when the model is built again. -/
def Bench.recounted (cfg : FreezeCfg V) (keepPrefix : Option Text) (s : Bench S M P)
    (d : MjData V P) (model : SceneModel S P) : Freeze :=
  let f := s.counted cfg keepPrefix d
  let f := { f with
    frozenTotal := f.frozenTotal + ((s.frozen cfg keepPrefix d).length : Int)
    recompiles := f.recompiles + 1 }
  if f.nbody ≠ model.nbody then f.restarted model.nbody else f

/-- All a tick can do: begin to count again, count, or count and freeze. -/
inductive Ticked (weigh : S → M) (build : Scene S M P → Option (SceneModel S P))
    (cfg : FreezeCfg V) (keepPrefix : Option Text) (s : Bench S M P) (d : MjData V P) :
    Bench S M P → Nat → Prop where
  | skips (other : s.f.nbody ≠ s.model.nbody) :
      Ticked weigh build cfg keepPrefix s d { s with f := s.f.restarted s.model.nbody } 0
  | counts (known : s.f.nbody = s.model.nbody) (nothing : s.frozen cfg keepPrefix d = []) :
      Ticked weigh build cfg keepPrefix s d { s with f := s.counted cfg keepPrefix d } 0
  | freezes (known : s.f.nbody = s.model.nbody) (something : s.frozen cfg keepPrefix d ≠ [])
      {model : SceneModel S P} (built : build (s.promoted weigh cfg keepPrefix d) = some model) :
      Ticked weigh build cfg keepPrefix s d
        { f := s.recounted cfg keepPrefix d model
          scene := s.promoted weigh cfg keepPrefix d, model }
        (s.frozen cfg keepPrefix d).length

theorem tick_cases {d : MjData V P}
    (ticked : s.tick weigh build cfg keepPrefix d = some (s', n)) :
    Ticked weigh build cfg keepPrefix s d s' n := by
  unfold Bench.tick at ticked
  by_cases other : s.f.nbody ≠ s.model.nbody
  · rw [if_pos other] at ticked
    obtain ⟨rfl, rfl⟩ := Prod.mk.inj (Option.some.inj ticked)
    exact .skips other
  · have known : s.f.nbody = s.model.nbody := not_not.mp other
    have selected : s.selected cfg keepPrefix d =
        ripeBodies s.f s.model.toMjModel d cfg keepPrefix := if_neg other
    rw [if_neg other, ← selected] at ticked
    dsimp only at ticked
    split at ticked
    · next nobody =>
        obtain ⟨rfl, rfl⟩ := Prod.mk.inj (Option.some.inj ticked)
        have nothing : s.frozen cfg keepPrefix d = [] := by
          rw [Bench.frozen, List.isEmpty_iff.mp nobody]
          rfl
        exact .counts known nothing
    · rw [promote_found] at ticked
      dsimp only at ticked
      split at ticked
      · next idle =>
          obtain ⟨rfl, rfl⟩ := Prod.mk.inj (Option.some.inj ticked)
          have nothing : s.frozen cfg keepPrefix d = [] := List.length_eq_zero_iff.mp idle
          have same := promote_nothing (d := d) weigh (s.selected cfg keepPrefix d) s.scene
            (m := s.model.toMjModel) (by rw [promote_found]; exact idle)
          rw [promote_found] at same
          dsimp only at same
          rw [same]
          exact .counts known nothing
      · next busy =>
          have something : s.frozen cfg keepPrefix d ≠ [] :=
            fun none => busy (List.length_eq_zero_iff.mpr none)
          split at ticked
          · cases ticked
          · next model built =>
              obtain ⟨rfl, rfl⟩ := Prod.mk.inj (Option.some.inj ticked)
              exact .freezes known something built

/-- A tick that finds something to freeze freezes it, when the model can be built again. -/
theorem tick_freezes {d : MjData V P} (known : s.f.nbody = s.model.nbody)
    (something : s.frozen cfg keepPrefix d ≠ []) {model : SceneModel S P}
    (built : build (s.promoted weigh cfg keepPrefix d) = some model) :
    s.tick weigh build cfg keepPrefix d =
      some ({ f := s.recounted cfg keepPrefix d model
              scene := s.promoted weigh cfg keepPrefix d, model },
        (s.frozen cfg keepPrefix d).length) := by
  have same : ¬ s.f.nbody ≠ s.model.nbody := not_not.mpr known
  have selected : s.selected cfg keepPrefix d =
      ripeBodies s.f s.model.toMjModel d cfg keepPrefix := if_neg same
  have somebody : ¬ (s.selected cfg keepPrefix d).isEmpty = true := by
    intro nobody
    apply something
    rw [Bench.frozen, List.isEmpty_iff.mp nobody]
    rfl
  have busy : ¬ (s.frozen cfg keepPrefix d).length = 0 :=
    fun none => something (List.length_eq_zero_iff.mp none)
  have scene : s.scene.promote weigh s.model.toMjModel d (s.selected cfg keepPrefix d) =
      (s.promoted weigh cfg keepPrefix d, (s.frozen cfg keepPrefix d).length) := promote_found ..
  unfold Bench.tick
  rw [if_neg same, ← selected]
  dsimp only
  rw [if_neg somebody, scene]
  dsimp only
  rw [if_neg busy, built]
  rfl

/-- A tick leaves the freeze state and the scene that `weftFreezeTick` leaves. -/
theorem tick_is_weftFreezeTick {d : MjData V P}
    (ticked : s.tick weigh build cfg keepPrefix d = some (s', n)) :
    weftFreezeTick (fun _ => some s'.model.nbody) s.f s.scene.spec s.model.toMjModel d cfg
      keepPrefix = (s'.f, s'.scene.spec, n) := by
  have promoted : promote s.model.toMjModel d (s.selected cfg keepPrefix d) s.scene.spec =
      ((s.promoted weigh cfg keepPrefix d).spec, (s.frozen cfg keepPrefix d).length) := by
    rw [← spec_promote weigh, promote_found]
    rfl
  have selected (known : s.f.nbody = s.model.nbody) :
      ripeBodies s.f s.model.toMjModel d cfg keepPrefix = s.selected cfg keepPrefix d :=
    (if_neg (not_not.mpr known)).symm
  unfold weftFreezeTick
  cases tick_cases ticked with
  | skips other =>
      rw [if_pos other]
      rfl
  | counts known nothing =>
      have same : s.promoted weigh cfg keepPrefix d = s.scene := by
        have all : staying s.model.toMjModel [] s.scene.bodies = s.scene.bodies :=
          List.filter_true _
        rw [Bench.promoted, nothing, all, List.flatMap_nil, List.append_nil]
      rw [if_neg (not_not.mpr known), selected known]
      dsimp only
      rw [promoted, same, nothing]
      split
      · rfl
      · rfl
  | freezes known something built =>
      have some : ¬ (s.selected cfg keepPrefix d).isEmpty = true := by
        intro nobody
        apply something
        rw [Bench.frozen, List.isEmpty_iff.mp nobody]
        rfl
      have busy : ¬ (s.frozen cfg keepPrefix d).length = 0 :=
        fun none => something (List.length_eq_zero_iff.mp none)
      rw [if_neg (not_not.mpr known), selected known]
      dsimp only
      rw [promoted, if_neg some]
      dsimp only
      rw [if_neg busy]
      rfl

end Tick

/-! ### Thaws -/

section Thaw

variable [Mul P] [Inv P]
variable {thawMass : M} {build : Scene S M P → Option (SceneModel S P)} {s s' : Bench S M P} {n : Nat}

omit [Mul P] [Inv P] in
/-- A thaw takes back the first 32 of the geoms whose names begin with the name and the separator. -/
theorem pieces_eq (m : SceneModel S P) (name : Text) :
    pieces m name = ((List.range m.ngeom).filter fun g => isPieceName name (m.geomName g)).take 32 := by
  rw [pieces, ← List.foldl_filter, foldl_push (Nat.zero_le _), List.nil_append]

/-- A geom that none of these copies is. -/
def survives (m : SceneModel S P) (ids : List Nat) (g : SpecGeom S M P) : Bool :=
  ids.all fun i => (m.geomName i).isNone || decide (g.name ≠ m.geomName i)

omit [Mul P] [Inv P] in
/-- The scene without the copies: nothing else changes. -/
theorem deletePieces_eq (m : SceneModel S P) (ids : List Nat) (scene : Scene S M P) :
    scene.deletePieces m ids =
      { world := scene.world.filter (survives m ids)
        bodies := scene.bodies.map fun c =>
          { c with geoms := c.geoms.filter (survives m ids) } } := by
  unfold Scene.deletePieces
  induction ids generalizing scene with
  | nil =>
      have all : survives m [] = fun _ : SpecGeom S M P => true := rfl
      simp only [List.foldl_nil, all, List.filter_true, List.map_id']
  | cons i rest ih =>
      rw [List.foldl_cons]
      cases named : m.geomName i with
      | none =>
          have same : survives m (i :: rest) = survives m (M := M) rest := by
            funext g
            simp [survives, named]
          rw [ih, same]
      | some gn =>
          have split (geoms : List (SpecGeom S M P)) :
              (geoms.filter fun g => decide (g.name ≠ some gn)).filter (survives m rest) =
                geoms.filter (survives m (i :: rest)) := by
            rw [List.filter_filter]
            apply List.filter_congr
            intro g _
            simp [survives, named, Bool.and_comm]
          have deleted := ih (scene.deleteGeom gn)
          simp only [Scene.deleteGeom, split, List.map_map, Function.comp_def] at deleted
          exact deleted

/-- The scene a thaw leaves. -/
def Bench.returned (thawMass : M) (s : Bench S M P) (name : Text) (first : Nat) : Scene S M P where
  world := (s.scene.deletePieces s.model (pieces s.model name)).world
  bodies := (s.scene.deletePieces s.model (pieces s.model name)).bodies ++
    [thawedBody thawMass s.model.toMjModel name (s.model.geom first).pose (pieces s.model name)]

/-- The freeze state a thaw leaves. -/
def Bench.uncounted (s : Bench S M P) (name : Text) : Freeze :=
  { s.f with
    recompiles := s.f.recompiles + 1
    frozenTotal := s.f.frozenTotal - ((pieces s.model name).length : Int) }

/-- All a thaw can do. -/
inductive Thawed (thawMass : M) (build : Scene S M P → Option (SceneModel S P)) (s : Bench S M P)
    (name : Text) : Bench S M P → Nat → Prop where
  | nothing (none : name = [] ∨ pieces s.model name = []) : Thawed thawMass build s name s 0
  | back {first : Nat} (named : name ≠ []) (some : (pieces s.model name).head? = .some first)
      {model : SceneModel S P} (built : build (s.returned thawMass name first) = .some model) :
      Thawed thawMass build s name
        { f := s.uncounted name, scene := s.returned thawMass name first, model }
        (pieces s.model name).length

theorem thaw_cases {name : Text} (thawed : s.thaw thawMass build name = some (s', n)) :
    Thawed thawMass build s name s' n := by
  unfold Bench.thaw at thawed
  by_cases empty : name.isEmpty = true
  · rw [if_pos empty] at thawed
    obtain ⟨rfl, rfl⟩ := Prod.mk.inj (Option.some.inj thawed)
    exact .nothing (.inl (List.isEmpty_iff.mp empty))
  · rw [if_neg empty] at thawed
    have named : name ≠ [] := fun none => empty (List.isEmpty_iff.mpr none)
    cases taken : pieces s.model name with
    | nil =>
        rw [taken] at thawed
        obtain ⟨rfl, rfl⟩ := Prod.mk.inj (Option.some.inj thawed)
        exact .nothing (.inr taken)
    | cons first rest =>
        have head : (pieces s.model name).head? = some first := by
          rw [taken]
          rfl
        rw [taken] at thawed
        dsimp only at thawed
        rw [← taken] at thawed
        split at thawed
        · cases thawed
        · next model built =>
            obtain ⟨rfl, rfl⟩ := Prod.mk.inj (Option.some.inj thawed)
            exact .back named head built

/-- A thaw that finds something brings it back, when the model can be built again. -/
theorem thaw_back {name : Text} {first : Nat} (named : name ≠ [])
    (some : (pieces s.model name).head? = .some first) {model : SceneModel S P}
    (built : build (s.returned thawMass name first) = .some model) :
    s.thaw thawMass build name =
      .some ({ f := s.uncounted name, scene := s.returned thawMass name first, model },
        (pieces s.model name).length) := by
  have given : ¬ name.isEmpty = true := fun empty => named (List.isEmpty_iff.mp empty)
  unfold Bench.thaw
  rw [if_neg given]
  cases taken : pieces s.model name with
  | nil =>
      rw [taken] at some
      cases some
  | cons head rest =>
      rw [taken] at some
      obtain rfl := Option.some.inj some
      rw [Bench.returned, taken] at built
      dsimp only
      rw [built, Bench.uncounted, Bench.returned, taken]

omit [Mul P] [Inv P] in
/-- The geoms a thaw takes back, in the order they stand in the scene. -/
theorem pieces_geoms {scene : Scene S M P} {m : SceneModel S P} (built : Built scene m) (name : Text) :
    (pieces m name).map m.geom =
      ((scene.geoms.filter fun g => isPieceName name g.name).map SpecGeom.plain).take 32 := by
  have entries := congrArg (List.filter fun entry => isPieceName name entry.1) built.geoms
  rw [List.filter_map, List.filter_map] at entries
  have geoms := congrArg (List.map Prod.snd) entries
  rw [List.map_map, List.map_map] at geoms
  rw [pieces_eq, List.map_take]
  exact congrArg (List.take 32) geoms

end Thaw

end Benches

/-! ### A builder -/

/-- The part of a list behind what stands before it. -/
theorem range_slice {α : Type} (before here after : List α) (missing : α) :
    (List.range here.length).map (fun k => (before ++ here ++ after).getD (before.length + k) missing) =
      here := by
  apply List.ext_getElem
  · rw [List.length_map, List.length_range]
  · intro i _ inside
    have there : (before ++ (here ++ after))[before.length + i]? = some here[i] := by
      rw [List.getElem?_append_right (Nat.le_add_right _ _), Nat.add_sub_cancel_left,
        List.getElem?_append_left inside, List.getElem?_eq_getElem inside]
    simp [there]

section Builder

variable {S M P : Type} [Inhabited S] [Inhabited P]

/-- How many dofs a joint has. -/
def JointType.dofs : JointType → Nat
  | .free => 6
  | .ball => 3
  | .slide => 1
  | .hinge => 1

/-- A value for each body, the world being the first. -/
def Scene.ofBody {α : Type} (scene : Scene S M P) (world : α) (f : SceneBody S M P → α) (missing : α)
    (b : Nat) : α :=
  if b = 0 then world else ((scene.bodies[b - 1]?).map f).getD missing

/-- Where the things of a body start, when each body has so many. -/
def Scene.start (scene : Scene S M P) (world : Nat) (count : SceneBody S M P → Nat) (b : Nat) : Nat :=
  if b = 0 then 0 else world + ((scene.bodies.take (b - 1)).map count).sum

/-- The arrays of a scene, as MuJoCo lays them out. -/
def Scene.layOut (scene : Scene S M P) : SceneModel S P where
  nbody := scene.bodies.length + 1
  bodyName := scene.ofBody (text "world") (·.name) []
  bodyJntnum := scene.ofBody 0 (·.joints.length) 0
  bodyJntadr := scene.start 0 (·.joints.length)
  jntType := fun j => (scene.bodies.flatMap (·.joints)).getD j .hinge
  bodyDofnum := scene.ofBody 0 (fun c => (c.joints.map JointType.dofs).sum) 0
  bodyDofadr := scene.start 0 fun c => (c.joints.map JointType.dofs).sum
  bodyGeomnum := scene.ofBody scene.world.length (·.geoms.length) 0
  bodyGeomadr := scene.start scene.world.length (·.geoms.length)
  geom := fun g => (scene.geoms.map SpecGeom.plain).getD g { look := default, pose := default }
  ngeom := scene.geoms.length
  geomName := fun g => (scene.geoms[g]?).bind (·.name)

/-- A scene with a name for each body, each geom at most once, and bodies that hang under one another as
they should. -/
def Scene.WellNamed (scene : Scene S M P) : Prop :=
  (scene.bodies.map (·.name)).Nodup ∧ (scene.geoms.filterMap (·.name)).Nodup ∧
    (∀ c ∈ scene.bodies, c.name ∉ c.ancestors) ∧
    ∀ b ∈ scene.bodies, ∀ c ∈ scene.bodies, b.name ∈ c.ancestors → b.ancestors ⊆ c.ancestors

instance (scene : Scene S M P) : Decidable scene.WellNamed := inferInstanceAs (Decidable (_ ∧ _))

/-- A builder that refuses what MuJoCo refuses of names. -/
def Scene.build (scene : Scene S M P) : Option (SceneModel S P) :=
  if scene.WellNamed then some scene.layOut else none

/-- The geoms that MuJoCo finds at the places of a body. -/
theorem layOut_geoms (scene : Scene S M P) {i : Nat} (body : i < scene.bodies.length) :
    scene.layOut.geoms (i + 1) = (scene.bodies[i]).geoms.map SpecGeom.plain := by
  have split : scene.geoms.map SpecGeom.plain =
      (scene.world ++ (scene.bodies.take i).flatMap (·.geoms)).map SpecGeom.plain ++
        (scene.bodies[i]).geoms.map SpecGeom.plain ++
          ((scene.bodies.drop (i + 1)).flatMap (·.geoms)).map SpecGeom.plain := by
    have parts : scene.bodies = scene.bodies.take i ++ scene.bodies[i] :: scene.bodies.drop (i + 1) := by
      rw [← List.drop_eq_getElem_cons body, List.take_append_drop]
    rw [← List.map_append, ← List.map_append]
    congr 1
    rw [Scene.geoms, List.append_assoc, List.append_assoc, ← List.flatMap_cons, ← List.flatMap_append,
      ← parts]
  have count : scene.layOut.bodyGeomnum (i + 1) = ((scene.bodies[i]).geoms.map SpecGeom.plain).length := by
    simp [Scene.layOut, Scene.ofBody, body]
  have place : scene.layOut.bodyGeomadr (i + 1) =
      ((scene.world ++ (scene.bodies.take i).flatMap (·.geoms)).map SpecGeom.plain).length := by
    simp [Scene.layOut, Scene.start, List.length_flatMap]
  have geom : scene.layOut.geom =
      fun g => (scene.geoms.map SpecGeom.plain).getD g { look := default, pose := default } := rfl
  rw [MjModel.geoms, count, place, geom, split]
  exact range_slice _ _ _ _

theorem layOut_bodies (scene : Scene S M P) :
    scene.spec.bodies.map (fun c => (c.name, c.geoms)) =
      scene.layOut.bodies.map fun b => (scene.layOut.bodyName b, scene.layOut.geoms b) := by
  have many : scene.layOut.nbody - 1 = scene.bodies.length := rfl
  apply List.ext_getElem
  · simp [Scene.spec, MjModel.bodies, many]
  · intro i inside _
    have body : i < scene.bodies.length := by simpa [Scene.spec] using inside
    have name : scene.layOut.bodyName (1 + i) = (scene.bodies[i]).name := by
      simp [Scene.layOut, Scene.ofBody, body]
    simp only [List.getElem_map, MjModel.bodies, List.getElem_range', Nat.one_mul, name]
    rw [Nat.add_comm 1 i, layOut_geoms scene body]
    simp [Scene.spec, SceneBody.plain]

/-- The builder builds what it is known to build. -/
theorem build_faithful {scene : Scene S M P} {m : SceneModel S P} (built : scene.build = some m) :
    Built scene m := by
  unfold Scene.build at built
  split at built
  · next ok =>
      obtain rfl := Option.some.inj built
      obtain ⟨unique, -, loose, tree⟩ := ok
      have names : scene.layOut.bodies.map scene.layOut.bodyName = scene.bodies.map (·.name) := by
        have first := congrArg (List.map Prod.fst) (layOut_bodies scene)
        simpa [Scene.spec, SceneBody.plain, Function.comp_def] using first.symm
      constructor
      · constructor
        · exact layOut_bodies scene
        · rw [names]
          exact unique
        · intro c mem
          obtain ⟨b, there, rfl⟩ := List.mem_map.mp mem
          exact loose b there
        · intro b mem c mem'
          obtain ⟨b', there, rfl⟩ := List.mem_map.mp mem
          obtain ⟨c', there', rfl⟩ := List.mem_map.mp mem'
          exact tree b' there c' there'
      · apply List.ext_getElem
        · simp [Scene.layOut]
        · intro g inside inside'
          have there : g < scene.geoms.length := by simpa using inside'
          simp [Scene.layOut, there]
  · cases built

end Builder

end GyreWard
