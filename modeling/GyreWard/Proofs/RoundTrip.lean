/-
Module: GyreWard.Proofs.RoundTrip
Purpose: A body that freezes and is thawed again, against what it was: when it comes back as it went.
Trusted boundary: human-reviewed spec (`PlainName`, `RoundTrip`)
Main exports: PlainName, RoundTrip, Rebuilds, pieces_of_frozen, a_thaw_undoes_a_freeze_iff
-/
import GyreWard.Proofs.Pieces

namespace GyreWard

open Lib

section RoundTrip

variable {V S M P : Type}

/-- A plain short name: there is room for the separator behind it, and nothing else in the scene has a
name that begins with the two. -/
structure PlainName (scene : Scene S M P) (name : Text) : Prop where
  named : name ≠ []
  short : name.length ≤ 126
  geoms : ∀ g ∈ scene.geoms, ∀ gn, g.name = some gn → ¬ name ++ text "#" <+: gn
  bodies : ∀ o ∈ scene.bodies, ¬ name ++ text "#" <+: o.name

/-! ### Frozen -/

section Frozen

variable {m : SceneModel S P} {d : MjData V P} {scene : Scene S M P} {b : Nat} {ripe : List Nat}

/-- A body at the top whose turn comes is found: only its own freezing takes it away. -/
theorem found_of_ripe {bodies : List (SceneBody S M P)} {c : SceneBody S M P} (there : c ∈ bodies)
    (top : c.ancestors = []) (numbered : m.bodyName b = c.name)
    (alone : ∀ a ∈ ripe, m.bodyName a = m.bodyName b → a = b) (turn : b ∈ ripe) :
    b ∈ foundAmong m.toMjModel ripe bodies := by
  induction ripe generalizing bodies with
  | nil => cases turn
  | cons a rest ih =>
      have later (bodies : List (SceneBody S M P)) (still : c ∈ bodies) (other : b ≠ a) :
          b ∈ foundAmong m.toMjModel rest bodies := by
        apply ih still (fun a mem => alone a (List.mem_cons_of_mem _ mem))
        rcases List.mem_cons.mp turn with same | behind
        · exact absurd same other
        · exact behind
      unfold foundAmong
      by_cases same : b = a
      · have search : (bodies.find? fun o => o.name == m.bodyName a).isSome = true := by
          rw [List.find?_isSome, ← same, numbered]
          exact ⟨c, there, beq_self_eq_true _⟩
        rw [if_pos search, same]
        exact List.mem_cons_self
      · split
        · apply List.mem_cons_of_mem
          apply later _ _ same
          have name : c.name ≠ m.bodyName a := by
            intro equal
            exact same (alone a List.mem_cons_self (by rw [← equal, numbered])).symm
          apply List.mem_filter.mpr
          refine ⟨there, ?_⟩
          rw [top, Bool.and_eq_true, bne_iff_ne]
          exact ⟨name, rfl⟩
        · exact later _ there same

variable [Mul P]

/-- Of what freezes with it, only the pieces of a body with a plain name are taken for its pieces. -/
theorem pieces_of_frozen {name : Text} (weigh : S → M) (plain : PlainName scene name)
    (numbered : m.bodyName b = name) {frozen : List Nat} (nodup : frozen.Nodup)
    (alone : ∀ a ∈ frozen, m.bodyName a = m.bodyName b → a = b) (here : b ∈ frozen)
    (known : ∀ a ∈ frozen, ∃ o ∈ scene.bodies, o.name = m.bodyName a)
    (stay : List (SceneBody S M P)) (same : stay ⊆ scene.bodies) :
    ({ world := scene.world ++ frozen.flatMap (promotedPieces weigh m.toMjModel d), bodies := stay } :
        Scene S M P).geoms.filter (fun g => isPieceName name g.name) =
      promotedPieces weigh m.toMjModel d b := by
  have scenery (geoms : List (SpecGeom S M P)) (old : geoms ⊆ scene.geoms) :
      geoms.filter (fun g => isPieceName name g.name) = [] := by
    apply List.filter_eq_nil_iff.mpr
    intro g mem piece
    obtain ⟨gn, named, begins⟩ := isPieceName_iff.mp piece
    exact plain.geoms g (old mem) gn named begins
  have world : scene.world ⊆ scene.geoms := fun g mem => List.mem_append_left _ mem
  have bodies : stay.flatMap (·.geoms) ⊆ scene.geoms := by
    intro g mem
    obtain ⟨o, there, within⟩ := List.mem_flatMap.mp mem
    exact List.mem_append_right _ (List.mem_flatMap.mpr ⟨o, same there, within⟩)
  have own : (promotedPieces weigh m.toMjModel d b).filter (fun g => isPieceName name g.name) =
      promotedPieces weigh m.toMjModel d b := by
    apply List.filter_eq_self.mpr
    intro g mem
    obtain ⟨x, promoted, rfl⟩ := List.mem_map.mp mem
    obtain ⟨k, -, rfl⟩ := List.mem_map.mp promoted
    rw [isPieceName_iff]
    exact ⟨_, rfl, begins_frozenName.mpr ⟨.inl numbered, plain.short⟩⟩
  have others (a : Nat) (mem : a ∈ frozen) (other : a ≠ b) :
      (promotedPieces weigh m.toMjModel d a).filter (fun g => isPieceName name g.name) = [] := by
    apply List.filter_eq_nil_iff.mpr
    intro g mem' piece
    obtain ⟨x, promoted, rfl⟩ := List.mem_map.mp mem'
    obtain ⟨k, -, rfl⟩ := List.mem_map.mp promoted
    obtain ⟨gn, named, begins⟩ := isPieceName_iff.mp piece
    obtain rfl := Option.some.inj named
    rcases (begins_frozenName.mp begins).1 with equal | begun
    · exact other (alone a mem (equal.trans numbered.symm))
    · obtain ⟨o, there, name⟩ := known a mem
      rw [← name] at begun
      exact plain.bodies o there begun
  have among : (frozen.flatMap (promotedPieces weigh m.toMjModel d)).filter
      (fun g => isPieceName name g.name) = promotedPieces weigh m.toMjModel d b := by
    obtain ⟨before, after, split⟩ := List.append_of_mem here
    rw [split] at nodup
    obtain ⟨-, rest, apart⟩ := List.nodup_append.mp nodup
    have outside (l : List Nat) (inside : l ⊆ frozen) (absent : b ∉ l) :
        (l.flatMap (promotedPieces weigh m.toMjModel d)).filter
          (fun g => isPieceName name g.name) = [] := by
      rw [List.filter_flatMap]
      apply List.flatMap_eq_nil_iff.mpr
      intro a mem
      exact others a (inside mem) (fun equal => absent (equal ▸ mem))
    have front := outside before (fun a mem => split ▸ List.mem_append_left _ mem)
      (fun mem => apart b mem b List.mem_cons_self rfl)
    have back := outside after
      (fun a mem => split ▸ List.mem_append_right _ (List.mem_cons_of_mem _ mem))
      (List.nodup_cons.mp rest).1
    rw [split, List.flatMap_append, List.flatMap_cons, List.filter_append, List.filter_append, front,
      back, own, List.append_nil, List.nil_append]
  rw [Scene.geoms, List.filter_append, List.filter_append, scenery _ world, scenery _ bodies, among,
    List.append_nil, List.nil_append]

end Frozen

/-! ### There and back -/

section Back

variable [LT V] [DecidableLT V]
variable {cfg : FreezeCfg V} {keepPrefix : Option Text} {s : Bench S M P} {d : MjData V P} {b : Nat}

/-- A bench whose bodies are counted, and a body of its model. -/
theorem mem_selected (selected : b ∈ s.selected cfg keepPrefix d) :
    s.f.nbody = s.model.nbody ∧ b ∈ s.model.bodies := by
  unfold Bench.selected at selected
  split at selected
  · cases selected
  · next known => exact ⟨not_not.mp known, (mem_ripeBodies selected).1⟩

theorem selected_nodup : (s.selected cfg keepPrefix d).Nodup := by
  unfold Bench.selected
  split
  · exact List.nodup_nil
  · rw [ripeBodies_turns]
    exact companies_nodup.sublist (List.take_sublist ..)

variable [Mul P] [Inv P]

/-- The bench after a tick that freezes something, when this is the model that is built. -/
def Bench.after (weigh : S → M) (cfg : FreezeCfg V) (keepPrefix : Option Text) (s : Bench S M P)
    (d : MjData V P) (model : SceneModel S P) : Bench S M P :=
  { f := s.recounted cfg keepPrefix d model, scene := s.promoted weigh cfg keepPrefix d, model }

/-- MuJoCo builds the scene with the body frozen, and the one with it back. -/
def Rebuilds (weigh : S → M) (thawMass : M) (build : Scene S M P → Option (SceneModel S P))
    (cfg : FreezeCfg V) (keepPrefix : Option Text) (s : Bench S M P) (d : MjData V P) (name : Text) :
    Prop :=
  ∃ model first model', build (s.promoted weigh cfg keepPrefix d) = some model ∧
    (pieces model name).head? = some first ∧
    build ((s.after weigh cfg keepPrefix d model).returned thawMass name first) = some model'

/-- A tick freezes the body, and a thaw of its name leaves one body of that name: free, and geom for geom
what it was. -/
def RoundTrip (weigh : S → M) (thawMass : M) (build : Scene S M P → Option (SceneModel S P))
    (cfg : FreezeCfg V) (keepPrefix : Option Text) (s : Bench S M P) (d : MjData V P)
    (c : SceneBody S M P) : Prop :=
  ∃ s₁ n s₂ k, s.tick weigh build cfg keepPrefix d = some (s₁, n) ∧
    (∀ o ∈ s₁.scene.bodies, o.name ≠ c.name) ∧
    s₁.thaw thawMass build c.name = some (s₂, k) ∧
    ∃ c', (s₂.scene.bodies.filter fun o => o.name == c.name) = [c'] ∧ c'.joints = [.free] ∧
      c'.geoms.map (fun g => (g.look, g.mass)) = c.geoms.map fun g => (g.look, g.mass)

variable {weigh : S → M} {thawMass : M} {build : Scene S M P → Option (SceneModel S P)}
  {c : SceneBody S M P}

omit [LT V] [DecidableLT V] [Inv P] in
/-- What a tick puts on the world for a body are its geoms, moved as the body is. -/
theorem geoms_promoted {scene : Scene S M P} {m : SceneModel S P} (built : Built scene m)
    (there : c ∈ scene.bodies) (body : b ∈ m.bodies) (numbered : m.bodyName b = c.name) :
    (promotedPieces weigh m.toMjModel d b).map SpecGeom.plain =
      c.geoms.map fun g => { look := g.look, pose := d.xpose b * g.pose } := by
  obtain ⟨a, body', named, geoms⟩ := built.compiled.number (List.mem_map_of_mem there)
  obtain rfl : a = b := built.compiled.name_inj body' body (named.trans numbered.symm)
  have moved := congrArg
    (List.map fun g : Geom S P => ({ look := g.look, pose := d.xpose a * g.pose } : Geom S P)) geoms
  rw [SceneBody.plain, List.map_map, MjModel.geoms, List.map_map] at moved
  rw [promotedPieces, promotedGeoms, List.map_map, List.map_map]
  exact moved

omit [Inv P] in
/-- When the scene with the body frozen is built, a thaw finds the geoms of the body where they came to
rest, and no others. -/
theorem pieces_promoted (built : Built s.scene s.model) (there : c ∈ s.scene.bodies)
    (top : c.ancestors = []) (selected : b ∈ s.selected cfg keepPrefix d)
    (numbered : s.model.bodyName b = c.name) (few : c.geoms.length ≤ 32)
    (plain : PlainName s.scene c.name) {m : SceneModel S P}
    (frozen : Built (s.promoted weigh cfg keepPrefix d) m) :
    b ∈ s.frozen cfg keepPrefix d ∧
      (pieces m c.name).map m.geom =
        c.geoms.map fun g => { look := g.look, pose := d.xpose b * g.pose } := by
  obtain ⟨-, body⟩ := mem_selected selected
  have alone : ∀ a ∈ s.selected cfg keepPrefix d, s.model.bodyName a = s.model.bodyName b → a = b :=
    fun a mem same => built.compiled.name_inj (mem_selected mem).2 body same
  have inside := foundAmong_sublist (m := s.model.toMjModel) (s.selected cfg keepPrefix d)
    s.scene.bodies
  have here : b ∈ s.frozen cfg keepPrefix d := found_of_ripe there top numbered alone selected
  have own : (s.promoted weigh cfg keepPrefix d).geoms.filter (fun g => isPieceName c.name g.name) =
      promotedPieces weigh s.model.toMjModel d b :=
    pieces_of_frozen weigh plain numbered (selected_nodup.sublist inside)
      (fun a mem => alone a (inside.subset mem)) here (fun a mem => named_of_found mem)
      (staying s.model.toMjModel (s.frozen cfg keepPrefix d) s.scene.bodies)
      (fun o mem => List.mem_of_mem_filter mem)
  have geoms : (promotedPieces weigh s.model.toMjModel d b).map SpecGeom.plain =
      c.geoms.map fun g => { look := g.look, pose := d.xpose b * g.pose } :=
    geoms_promoted built there body numbered
  have many : ((promotedPieces weigh s.model.toMjModel d b).map SpecGeom.plain).length ≤ 32 := by
    rw [geoms, List.length_map]
    exact few
  refine ⟨here, ?_⟩
  rw [pieces_geoms frozen, own, List.take_of_length_le many, geoms]

omit [Inv P] in
/-- They look as they looked. -/
theorem pieces_after (built : Built s.scene s.model) (there : c ∈ s.scene.bodies)
    (top : c.ancestors = []) (selected : b ∈ s.selected cfg keepPrefix d)
    (numbered : s.model.bodyName b = c.name) (few : c.geoms.length ≤ 32)
    (plain : PlainName s.scene c.name) {m : SceneModel S P}
    (frozen : Built (s.promoted weigh cfg keepPrefix d) m) :
    b ∈ s.frozen cfg keepPrefix d ∧
      ((pieces m c.name).map m.geom).map (·.look) = c.geoms.map (·.look) := by
  obtain ⟨here, geoms⟩ := pieces_promoted built there top selected numbered few plain frozen
  refine ⟨here, ?_⟩
  rw [geoms, List.map_map]
  rfl

/-- The body that comes back looks as the one that went, and weighs what a thaw writes. -/
theorem thawed_geoms {m : SceneModel S P} {ids : List Nat} {base : P} {name : Text}
    (looks : (ids.map m.geom).map (·.look) = c.geoms.map (·.look)) :
    ((thawedBody thawMass m.toMjModel name base ids).geoms.map fun g => (g.look, g.mass)) =
      c.geoms.map fun g => (g.look, thawMass) := by
  have paired := congrArg (List.map fun look => (look, thawMass)) looks
  rw [List.map_map, List.map_map, List.map_map] at paired
  rw [thawedBody, List.map_map]
  exact paired

/-- A thaw leaves one body of a name that no body has. -/
theorem one_back (thawMass : M) {name : Text} (gone : ∀ o ∈ s.scene.bodies, o.name ≠ name) (first : Nat) :
    ((s.returned thawMass name first).bodies.filter fun o => o.name == name) =
      [thawedBody thawMass s.model.toMjModel name (s.model.geom first).pose (pieces s.model name)] := by
  have none : ((s.scene.deletePieces s.model (pieces s.model name)).bodies.filter
      fun o => o.name == name) = [] := by
    apply List.filter_eq_nil_iff.mpr
    intro o mem same
    rw [deletePieces_eq] at mem
    obtain ⟨o, there, rfl⟩ := List.mem_map.mp mem
    exact gone o there (eq_of_beq same)
  rw [Bench.returned, List.filter_append, none, List.nil_append]
  exact List.filter_cons_of_pos (beq_self_eq_true name)

/-- A body that a tick selects comes back from a thaw of its name as it went exactly when MuJoCo builds the
two scenes, and every geom weighs what a thaw writes. -/
theorem a_thaw_undoes_a_freeze_iff (weigh : S → M) (thawMass : M)
    (build : Scene S M P → Option (SceneModel S P))
    (faithful : ∀ scene m, build scene = some m → Built scene m) (cfg : FreezeCfg V)
    (keepPrefix : Option Text) (s : Bench S M P) (built : Built s.scene s.model) (d : MjData V P)
    (c : SceneBody S M P) (there : c ∈ s.scene.bodies) (top : c.ancestors = [])
    (some : c.geoms ≠ []) (few : c.geoms.length ≤ 32) (plain : PlainName s.scene c.name) (b : Nat)
    (numbered : s.model.bodyName b = c.name) (selected : b ∈ s.selected cfg keepPrefix d) :
    RoundTrip weigh thawMass build cfg keepPrefix s d c ↔
      Rebuilds weigh thawMass build cfg keepPrefix s d c.name ∧ ∀ g ∈ c.geoms, g.mass = thawMass := by
  have known := (mem_selected selected).1
  have after {m : SceneModel S P} (frozen : Built (s.promoted weigh cfg keepPrefix d) m) :=
    pieces_after built there top selected numbered few plain frozen
  have gone : ∀ o ∈ (s.promoted weigh cfg keepPrefix d).bodies, b ∈ s.frozen cfg keepPrefix d →
      o.name ≠ c.name := by
    intro o mem here
    rw [← numbered]
    exact (clearOf_iff.mp (List.mem_filter.mp mem).2 b here).1
  constructor
  · rintro ⟨s₁, n, s₂, k, ticked, absent, thawed, c', back, -, same⟩
    cases tick_cases ticked with
    | skips other => exact absurd known other
    | counts _ _ => exact absurd rfl (absent c there)
    | @freezes _ something m made =>
        obtain ⟨here, looks⟩ := after (faithful _ _ made)
        cases thaw_cases thawed with
        | nothing none =>
            exfalso
            rcases none with empty | nothing
            · exact plain.named empty
            · rw [nothing] at looks
              exact some (List.map_eq_nil_iff.mp looks.symm)
        | @back first named head m' made' =>
            refine ⟨⟨m, first, m', made, head, made'⟩, ?_⟩
            have one := one_back (s := s.after weigh cfg keepPrefix d m) thawMass
              (fun o mem => gone o mem here) first
            obtain rfl : thawedBody thawMass _ _ _ _ = c' := (List.cons.inj (one.symm.trans back)).1
            have masses := (thawed_geoms looks).symm.trans same
            intro g mem
            have pair := List.map_inj_left.mp masses g mem
            exact (Prod.mk.inj pair).2.symm
  · rintro ⟨⟨m, first, m', made, head, made'⟩, weighs⟩
    obtain ⟨here, looks⟩ := after (faithful _ _ made)
    have absent : ∀ o ∈ (s.after weigh cfg keepPrefix d m).scene.bodies, o.name ≠ c.name :=
      fun o mem => gone o mem here
    have ticked := tick_freezes known (List.ne_nil_of_mem here) made
    have thawed := thaw_back (s := s.after weigh cfg keepPrefix d m) plain.named head made'
    have same : (c.geoms.map fun g => (g.look, thawMass)) = c.geoms.map fun g => (g.look, g.mass) := by
      apply List.map_congr_left
      intro g mem
      rw [weighs g mem]
    exact ⟨_, _, _, _, ticked, absent, thawed, _, one_back thawMass absent first, rfl,
      (thawed_geoms looks).trans same⟩

end Back

end RoundTrip

/-! ### A crate that comes back -/

/-- A scene with a crate of some mass on a floor. -/
def crate (mass : Nat) : SceneBody Nat Nat Line :=
  { name := text "crate", ancestors := [], joints := [.free], pose := home
    geoms := [{ name := none, look := 1, mass, pose := home }] }

def crateScene (mass : Nat) : Scene Nat Nat Line := { loneScene with bodies := [crate mass] }

/-- A crate of the mass that a thaw writes comes back as it went. -/
theorem a_crate_comes_back :
    RoundTrip (fun _ => 0) 2 Scene.build atOnce avatars (crateScene 2).bench stillData (crate 2) := by
  have made : (crateScene 2).build = some (crateScene 2).layOut := if_pos (by decide)
  have plain : PlainName (crateScene 2) (text "crate") := by
    constructor
    · decide
    · decide
    · decide
    · decide
  apply (a_thaw_undoes_a_freeze_iff (fun _ => 0) 2 Scene.build (fun _ _ built => build_faithful built)
    atOnce avatars (crateScene 2).bench (build_faithful made) stillData (crate 2) List.mem_cons_self rfl
    (by decide) (by decide) plain 1 rfl (by decide)).mpr
  constructor
  · exact ⟨(crateScene 2).settled.model, 1, _, if_pos (by decide), rfl, if_pos (by decide)⟩
  · decide

/-- A heavier one does not. -/
theorem a_heavy_crate_comes_back_lighter :
    ¬ RoundTrip (fun _ => 0) 2 Scene.build atOnce avatars (crateScene 5).bench stillData (crate 5) := by
  rintro ⟨s₁, n, s₂, k, ticked, -, thawed, c', back, -, same⟩
  have first : (crateScene 5).bench.tick (fun _ => 0) Scene.build atOnce avatars stillData =
      some ((crateScene 5).settled, 1) := rfl
  obtain ⟨rfl, -⟩ := Prod.mk.inj (Option.some.inj (first.symm.trans ticked))
  have after : (crateScene 5).settled.returned 2 (text "crate") 1 = crateScene 2 := by decide
  have second : (crateScene 5).settled.thaw 2 Scene.build (text "crate") =
      some ({ f := (crateScene 5).settled.uncounted (text "crate"), scene := crateScene 2
              model := (crateScene 2).layOut }, 1) := by
    rw [← after]
    rfl
  obtain ⟨rfl, -⟩ := Prod.mk.inj (Option.some.inj (second.symm.trans thawed))
  obtain rfl := (List.cons.inj back).1
  exact absurd same (by decide)

end GyreWard
