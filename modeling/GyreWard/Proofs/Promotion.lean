/-
Module: GyreWard.Proofs.Promotion
Purpose: What a tick makes of the scene when it freezes: which pieces it carries into the world, and
  when it carries all of them.
Trusted boundary: none
Main exports: Compiled, Carried, turns, Carries, pieces_carried_iff
-/
import GyreWard.Proofs.Islands

namespace GyreWard

open Lib

section Promotion

variable {V S P : Type}

/-! ### What is carried -/

/-- The geoms of a body of the model. -/
def MjModel.geoms (m : MjModel S P) (b : Nat) : List (Geom S P) :=
  (List.range (m.bodyGeomnum b)).map fun g => m.geom (m.bodyGeomadr b + g)

/-- The model is the compiled spec.  Bodies have names of their own, no body hangs under itself, and
what hangs under a body hangs under all that body hangs under. -/
structure Compiled (spec : MjSpec S P) (m : MjModel S P) : Prop where
  bodies : spec.bodies.map (fun c => (c.name, c.geoms)) =
    m.bodies.map fun b => (m.bodyName b, m.geoms b)
  unique : (m.bodies.map m.bodyName).Nodup
  loose : ∀ c ∈ spec.bodies, c.name ∉ c.ancestors
  tree : ∀ b ∈ spec.bodies, ∀ c ∈ spec.bodies, b.name ∈ c.ancestors → b.ancestors ⊆ c.ancestors

/-- A geom as it stands in the world. -/
def WorldGeom.placed (g : WorldGeom S P) : S × P := (g.look, g.pose)

/-- The geoms of a body as they stand in the world. -/
def worldGeoms [Mul P] (m : MjModel S P) (d : MjData V P) (b : Nat) : List (S × P) :=
  (m.geoms b).map fun g => (g.look, d.xpose b * g.pose)

/-- The scene is carried over: every body that was not selected is still there as it was, and what
was on the world and on the bodies that are gone stands in the world where it stood, piece by
piece. -/
structure Carried [Mul P] (m : MjModel S P) (d : MjData V P) (selected : List Nat)
    (before after : MjSpec S P) : Prop where
  bodies : ∀ c ∈ before.bodies, c.name ∉ selected.map m.bodyName → c ∈ after.bodies
  same : ∀ c ∈ after.bodies, c ∈ before.bodies
  geoms : (before.world.map WorldGeom.placed ++
      (m.bodies.filter fun b => (mjsFindBody after (m.bodyName b)).isNone).flatMap
        (worldGeoms m d)).Subperm
    (after.world.map WorldGeom.placed)

/-! ### Deleting, body after body -/

/-- The body is none of `gone`, and hangs under none of them. -/
def clearOf (m : MjModel S P) (gone : List Nat) (c : SpecBody S P) : Bool :=
  gone.all fun b => c.name != m.bodyName b && !c.ancestors.contains (m.bodyName b)

/-- The scene without some bodies and whatever hangs under them. -/
def MjSpec.without (spec : MjSpec S P) (m : MjModel S P) (gone : List Nat) : MjSpec S P :=
  { spec with bodies := spec.bodies.filter (clearOf m gone) }

/-- The same, with other geoms on the world. -/
def scene (spec : MjSpec S P) (world : List (WorldGeom S P)) (m : MjModel S P)
    (gone : List Nat) : MjSpec S P :=
  { spec.without m gone with world := world }

/-- The body is not there any more when its turn comes. -/
def late (spec : MjSpec S P) (m : MjModel S P) (gone : List Nat) (b : Nat) : Bool :=
  (mjsFindBody (spec.without m gone) (m.bodyName b)).isNone

variable {spec : MjSpec S P} {m : MjModel S P} {d : MjData V P} {gone order : List Nat} {b : Nat}

theorem clearOf_iff {c : SpecBody S P} :
    clearOf m gone c = true ↔
      ∀ b ∈ gone, c.name ≠ m.bodyName b ∧ m.bodyName b ∉ c.ancestors := by
  simp [clearOf]

theorem clearOf_append {c : SpecBody S P} :
    clearOf m (gone ++ [b]) c =
      (clearOf m gone c && (c.name != m.bodyName b && !c.ancestors.contains (m.bodyName b))) := by
  simp [clearOf]

theorem mem_without {c : SpecBody S P} :
    c ∈ (spec.without m gone).bodies ↔ c ∈ spec.bodies ∧ clearOf m gone c = true := List.mem_filter

theorem findBody_isNone {name : Text} :
    (mjsFindBody spec name).isNone = true ↔ ∀ c ∈ spec.bodies, c.name ≠ name := by
  rw [mjsFindBody, Option.isNone_iff_eq_none, List.find?_eq_none]
  simp

/-- A body that is there for its turn takes all that hangs under it along. -/
theorem delete_scene (world : List (WorldGeom S P)) (b : Nat) :
    mjsDelete (scene spec world m gone) (m.bodyName b) = scene spec world m (gone ++ [b]) := by
  simp only [mjsDelete, scene, MjSpec.without, List.filter_filter]
  congr 2
  funext c
  rw [clearOf_append, Bool.and_comm]

namespace Compiled

/-- The body of the spec that a number stands for. -/
theorem body (compiled : Compiled spec m) (mem : b ∈ m.bodies) :
    ∃ c ∈ spec.bodies, c.name = m.bodyName b ∧ c.geoms = m.geoms b := by
  have listed : (m.bodyName b, m.geoms b) ∈ spec.bodies.map fun c => (c.name, c.geoms) := by
    rw [compiled.bodies]
    exact List.mem_map_of_mem mem
  have ⟨c, there, same⟩ := List.mem_map.mp listed
  exact ⟨c, there, (Prod.mk.inj same).1, (Prod.mk.inj same).2⟩

/-- The number of a body of the spec. -/
theorem number (compiled : Compiled spec m) {c : SpecBody S P} (mem : c ∈ spec.bodies) :
    ∃ b ∈ m.bodies, m.bodyName b = c.name ∧ m.geoms b = c.geoms := by
  have listed : (c.name, c.geoms) ∈ m.bodies.map fun b => (m.bodyName b, m.geoms b) := by
    rw [← compiled.bodies]
    exact List.mem_map_of_mem mem
  have ⟨b, there, same⟩ := List.mem_map.mp listed
  exact ⟨b, there, (Prod.mk.inj same).1, (Prod.mk.inj same).2⟩

theorem name_inj (compiled : Compiled spec m) {a : Nat} (here : a ∈ m.bodies)
    (there : b ∈ m.bodies) (same : m.bodyName a = m.bodyName b) : a = b :=
  List.inj_on_of_nodup_map compiled.unique here there same

theorem same_body (compiled : Compiled spec m) {c c' : SpecBody S P} (here : c ∈ spec.bodies)
    (there : c' ∈ spec.bodies) (same : c.name = c'.name) : c = c' := by
  have names : (spec.bodies.map SpecBody.name).Nodup := by
    have first := congrArg (List.map Prod.fst) compiled.bodies
    simp only [List.map_map] at first
    have names : spec.bodies.map SpecBody.name = m.bodies.map m.bodyName := first
    rw [names]
    exact compiled.unique
  exact List.inj_on_of_nodup_map names here there same

/-- When a body is not there any more, neither is anything that hung under it. -/
theorem without_late (compiled : Compiled spec m) (mem : b ∈ m.bodies)
    (tooLate : late spec m gone b = true) : spec.without m (gone ++ [b]) = spec.without m gone := by
  have absent := findBody_isNone.mp tooLate
  have ⟨top, there, named, _⟩ := compiled.body mem
  have hidden : ¬ clearOf m gone top = true :=
    fun clear => absent top (mem_without.mpr ⟨there, clear⟩) named
  simp only [MjSpec.without]
  congr 1
  apply List.filter_congr
  intro c inSpec
  rw [clearOf_append]
  cases clear : clearOf m gone c with
  | false => rfl
  | true =>
      have other : c.name ≠ m.bodyName b := absent c (mem_without.mpr ⟨inSpec, clear⟩)
      have free : m.bodyName b ∉ c.ancestors := by
        intro under
        -- what hides the body hides what hangs under it
        apply hidden
        rw [clearOf_iff]
        intro a earlier
        have apart := clearOf_iff.mp clear a earlier
        constructor
        · intro same
          rw [← same, named] at apart
          exact apart.2 under
        · intro above
          rw [← named] at under
          exact apart.2 (compiled.tree top there c inSpec under above)
      simp [other, free]

end Compiled

/-- Is a body of the spec there in the end? -/
theorem scene_isNone (compiled : Compiled spec m) {c : SpecBody S P} (mem : c ∈ spec.bodies)
    (world : List (WorldGeom S P)) :
    (mjsFindBody (scene spec world m gone) c.name).isNone = true ↔ ¬ clearOf m gone c = true := by
  rw [findBody_isNone]
  constructor
  · intro absent clear
    exact absent c (mem_without.mpr ⟨mem, clear⟩) rfl
  · intro hidden c' there same
    have ⟨there, clear⟩ := mem_without.mp there
    rw [compiled.same_body there mem same] at clear
    exact hidden clear

/-- A body has no second turn. -/
theorem name_fresh (compiled : Compiled spec m) {order before after : List Nat}
    (nodup : order.Nodup) (bodies : ∀ b ∈ order, b ∈ m.bodies)
    (split : order = before ++ b :: after) : m.bodyName b ∉ before.map m.bodyName := by
  intro again
  have ⟨a, earlier, same⟩ := List.mem_map.mp again
  have mem_a : a ∈ order := by
    rw [split]
    exact List.mem_append_left _ earlier
  have mem_b : b ∈ order := by
    rw [split]
    exact List.mem_append_right _ (List.mem_cons_self ..)
  have equal : a = b := compiled.name_inj (bodies a mem_a) (bodies b mem_b) same
  rw [split] at nodup
  exact (List.nodup_append.mp nodup).2.2 a earlier b (List.mem_cons_self ..) equal

/-- When whatever hangs under the selected bodies is selected too, it is the selected ones that are
gone. -/
theorem gone_perm (compiled : Compiled spec m) {order : List Nat} (nodup : order.Nodup)
    (bodies : ∀ b ∈ order, b ∈ m.bodies) (world : List (WorldGeom S P))
    (only : ∀ c ∈ spec.bodies, c.name ∉ order.map m.bodyName → clearOf m order c = true) :
    (m.bodies.filter fun b =>
      (mjsFindBody (scene spec world m order) (m.bodyName b)).isNone).Perm order := by
  apply (List.perm_ext_iff_of_nodup (bodies_nodup.filter _) nodup).mpr
  intro b
  rw [List.mem_filter]
  constructor
  · rintro ⟨mem, absent⟩
    have ⟨c, there, named, _⟩ := compiled.body mem
    rw [← named, scene_isNone compiled there] at absent
    by_contra other
    apply absent
    apply only c there
    intro selected
    have ⟨a, picked, same⟩ := List.mem_map.mp selected
    have equal : a = b := compiled.name_inj (bodies a picked) mem (same.trans named)
    exact other (equal ▸ picked)
  · intro picked
    have ⟨c, there, named, _⟩ := compiled.body (bodies b picked)
    constructor
    · exact bodies b picked
    · rw [← named, scene_isNone compiled there, clearOf_iff]
      intro clear
      exact (clear b picked).1 named

/-- What comes too late hangs under a body whose turn was earlier. -/
theorem late_iff (compiled : Compiled spec m) {c : SpecBody S P} (there : c ∈ spec.bodies)
    (named : c.name = m.bodyName b) (fresh : c.name ∉ gone.map m.bodyName) :
    late spec m gone b = true ↔ ∃ a ∈ gone, m.bodyName a ∈ c.ancestors := by
  have at_turn : late spec m gone b = true ↔ ¬ clearOf m gone c = true := by
    rw [late, ← named]
    exact scene_isNone compiled there spec.world
  rw [at_turn, clearOf_iff]
  constructor
  · intro hidden
    simp only [not_forall, not_and, not_not] at hidden
    have ⟨a, earlier, above⟩ := hidden
    have other : c.name ≠ m.bodyName a :=
      fun same => fresh (List.mem_map.mpr ⟨a, earlier, same.symm⟩)
    exact ⟨a, earlier, above other⟩
  · rintro ⟨a, earlier, above⟩ clear
    exact (clear a earlier).2 above

section Turns

variable [LT V] [DecidableLT V]

/-- The bodies whose turn it is, in the order of their turns: the lone ones that are ready and the
ready islands, in the order of their first bodies, as far as the cap goes. -/
def turns (f : Freeze) (m : MjModel S P) (d : MjData V P) (cfg : FreezeCfg V)
    (keepPrefix : Option Text) : List Nat :=
  (m.bodies.map (company m d cfg keepPrefix (countStill f m d cfg keepPrefix))).flatten.take
    cfg.maxPerTick

theorem ripeBodies_turns {f : Freeze} {cfg : FreezeCfg V} {keepPrefix : Option Text} :
    ripeBodies f m d cfg keepPrefix = turns f m d cfg keepPrefix := collect_eq

end Turns

section World

variable [Mul P]

theorem placed_promoted (b : Nat) :
    (promotedGeoms m d b).map WorldGeom.placed = worldGeoms m d b := by
  simp [promotedGeoms, worldGeoms, MjModel.geoms, WorldGeom.placed]

/-- One turn of the loop. -/
def promoteOne (m : MjModel S P) (d : MjData V P) (so_far : MjSpec S P × Nat) (b : Nat) :
    MjSpec S P × Nat :=
  match mjsFindBody so_far.1 (m.bodyName b) with
  | none => so_far
  | some src =>
      (mjsDelete { so_far.1 with world := so_far.1.world ++ promotedGeoms m d b } src.name,
        so_far.2 + 1)

theorem promote_fold (ripe : List Nat) :
    promote m d ripe spec = ripe.foldl (promoteOne m d) (spec, 0) := rfl

theorem promoteOne_scene (compiled : Compiled spec m) (mem : b ∈ m.bodies)
    (world : List (WorldGeom S P)) (frozen : Nat) :
    promoteOne m d (scene spec world m gone, frozen) b =
      if late spec m gone b then (scene spec world m (gone ++ [b]), frozen)
      else (scene spec (world ++ promotedGeoms m d b) m (gone ++ [b]), frozen + 1) := by
  have found : mjsFindBody (scene spec world m gone) (m.bodyName b) =
      mjsFindBody (spec.without m gone) (m.bodyName b) := rfl
  unfold promoteOne
  rw [found]
  cases search : mjsFindBody (spec.without m gone) (m.bodyName b) with
  | none =>
      have tooLate : late spec m gone b = true := by rw [late, search]; rfl
      rw [if_pos tooLate, scene, scene, compiled.without_late mem tooLate]
  | some src =>
      have named : src.name = m.bodyName b := by
        have := List.find?_some search
        simpa using this
      have inTime : ¬ late spec m gone b = true := by rw [late, search]; simp
      have added : { scene spec world m gone with
          world := (scene spec world m gone).world ++ promotedGeoms m d b } =
        scene spec (world ++ promotedGeoms m d b) m gone := rfl
      rw [if_neg inTime]
      simp only [named]
      rw [added, delete_scene]

/-- What promotion makes of the scene: the bodies that are there for their turn go into the world,
and all selected bodies go, with what hangs under them. -/
theorem promote_eq (compiled : Compiled spec m) {ripe : List Nat}
    (bodies : ∀ b ∈ ripe, b ∈ m.bodies) :
    (promote m d ripe spec).1 =
      scene spec (spec.world ++ (sieve (late spec m) [] ripe).flatMap (promotedGeoms m d)) m
        ripe := by
  have loop : ∀ (rest gone : List Nat) (world : List (WorldGeom S P)) (frozen : Nat),
      (∀ b ∈ rest, b ∈ m.bodies) →
      (rest.foldl (promoteOne m d) (scene spec world m gone, frozen)).1 =
        scene spec (world ++ (sieve (late spec m) gone rest).flatMap (promotedGeoms m d)) m
          (gone ++ rest) := by
    intro rest
    induction rest with
    | nil =>
        intro gone world frozen _
        simp [sieve]
    | cons b rest ih =>
        intro gone world frozen bodies
        have later : ∀ b ∈ rest, b ∈ m.bodies := fun c mem => bodies c (List.mem_cons_of_mem _ mem)
        rw [List.foldl_cons, promoteOne_scene compiled (bodies b (List.mem_cons_self ..))]
        unfold sieve
        split
        · rw [ih _ _ _ later, List.append_assoc]
          rfl
        · rw [ih _ _ _ later, List.flatMap_cons, List.append_assoc, List.append_assoc]
          rfl
  have start : scene spec spec.world m [] = spec := by
    have all : clearOf m [] = fun _ => true := rfl
    simp [scene, MjSpec.without, all]
  have whole := loop ripe [] spec.world 0 bodies
  rw [start] at whole
  rw [promote_fold]
  exact whole

/-! ### When everything is carried -/

/-- Whatever hangs under a selected body is selected too, and if it has geoms, its turn is earlier. -/
def Carries (spec : MjSpec S P) (m : MjModel S P) (order : List Nat) : Prop :=
  ∀ earlier b later, order = earlier ++ b :: later →
    ∀ c ∈ spec.bodies, m.bodyName b ∈ c.ancestors →
      c.name ∈ order.map m.bodyName ∧ (c.geoms = [] ∨ c.name ∈ earlier.map m.bodyName)

theorem worldGeoms_nil : worldGeoms m d b = [] ↔ m.geoms b = [] := by
  rw [worldGeoms, List.map_eq_nil_iff]

/-- Nothing with geoms comes too late. -/
theorem Carries.late_bare (carries : Carries spec m order) (compiled : Compiled spec m)
    (nodup : order.Nodup) (bodies : ∀ b ∈ order, b ∈ m.bodies) :
    ∀ before b after, order = before ++ b :: after → late spec m ([] ++ before) b = true →
      worldGeoms m d b = [] := by
  intro before b after split tooLate
  have mem : b ∈ order := by
    rw [split]
    exact List.mem_append_right _ (List.mem_cons_self ..)
  have ⟨c, there, named, pieces⟩ := compiled.body (bodies b mem)
  have fresh : c.name ∉ before.map m.bodyName := named ▸ name_fresh compiled nodup bodies split
  have ⟨a, earlier, above⟩ := (late_iff compiled there named fresh).mp tooLate
  have ⟨first, second, parts⟩ := List.append_of_mem earlier
  have around : order = first ++ a :: (second ++ b :: after) := by
    rw [split, parts, List.append_assoc]
    rfl
  rw [worldGeoms_nil, ← pieces]
  apply (carries first a _ around c there above).2.resolve_right
  intro before_a
  apply fresh
  rw [parts, List.map_append]
  exact List.mem_append_left _ before_a

/-- The scene that promotion makes carries everything over exactly when no piece hangs under a body
that goes before it. -/
theorem carried_scene_iff (compiled : Compiled spec m) (nodup : order.Nodup)
    (bodies : ∀ b ∈ order, b ∈ m.bodies) :
    Carried m d order spec
      (scene spec (spec.world ++ (sieve (late spec m) [] order).flatMap (promotedGeoms m d)) m
        order) ↔
    Carries spec m order := by
  have in_world : (spec.world ++ (sieve (late spec m) [] order).flatMap (promotedGeoms m d)).map
      WorldGeom.placed =
      spec.world.map WorldGeom.placed ++
        (sieve (late spec m) [] order).flatMap (worldGeoms m d) := by
    rw [List.map_append, List.map_flatMap]
    simp only [placed_promoted]
  constructor
  · rintro ⟨others, -, pieces⟩
    have only : ∀ c ∈ spec.bodies, c.name ∉ order.map m.bodyName → clearOf m order c = true :=
      fun c there other => (mem_without.mp (others c there other)).2
    have gone := (gone_perm compiled nodup bodies
      (spec.world ++ (sieve (late spec m) [] order).flatMap (promotedGeoms m d)) only).flatMap_right
      (worldGeoms m d)
    have enough := pieces.length_le
    simp only [scene, in_world, List.length_append] at enough
    have all : (order.flatMap (worldGeoms m d)).length ≤
        ((sieve (late spec m) [] order).flatMap (worldGeoms m d)).length := by
      rw [← gone.length_eq]
      simp only [scene]
      omega
    have bare := nothing_late (worldGeoms m d) all
    intro earlier b later split c there above
    have picked : b ∈ order := by
      rw [split]
      exact List.mem_append_right _ (List.mem_cons_self ..)
    have selected : c.name ∈ order.map m.bodyName := by
      by_contra other
      exact (clearOf_iff.mp (only c there other) b picked).2 above
    constructor
    · exact selected
    · by_cases ahead : c.name ∈ earlier.map m.bodyName
      · exact .inr ahead
      · -- its turn is behind that of the body it hangs under, which is too late
        have ⟨o, mem, named⟩ := List.mem_map.mp selected
        have behind : o ∈ later := by
          rw [split] at mem
          rcases List.mem_append.mp mem with before | rest
          · exact absurd (List.mem_map.mpr ⟨o, before, named⟩) ahead
          · rcases List.mem_cons.mp rest with same | after
            · rw [← same, named] at above
              exact absurd above (compiled.loose c there)
            · exact after
        have ⟨first, second, parts⟩ := List.append_of_mem behind
        have around : order = (earlier ++ b :: first) ++ o :: second := by
          rw [split, parts, List.append_assoc]
          rfl
        have fresh := name_fresh compiled nodup bodies around
        rw [named] at fresh
        have above_o : b ∈ earlier ++ b :: first :=
          List.mem_append_right _ (List.mem_cons_self ..)
        have tooLate := (late_iff compiled there named.symm fresh).mpr ⟨b, above_o, above⟩
        have none := worldGeoms_nil.mp (bare _ o second around tooLate)
        have ⟨c', there', named', geoms⟩ := compiled.body (bodies o mem)
        have same : c' = c := compiled.same_body there' there (named'.trans named)
        rw [← same, geoms]
        exact .inl none
  · intro carries
    have only : ∀ c ∈ spec.bodies, c.name ∉ order.map m.bodyName → clearOf m order c = true := by
      intro c there other
      rw [clearOf_iff]
      intro b picked
      constructor
      · intro same
        exact other (List.mem_map.mpr ⟨b, picked, same.symm⟩)
      · intro above
        have ⟨first, second, parts⟩ := List.append_of_mem picked
        exact other (carries first b second parts c there above).1
    constructor
    · intro c there other
      exact mem_without.mpr ⟨there, only c there other⟩
    · intro c there
      exact (mem_without.mp there).1
    · have gone := (gone_perm compiled nodup bodies
        (spec.world ++ (sieve (late spec m) [] order).flatMap (promotedGeoms m d)) only).flatMap_right
        (worldGeoms m d)
      have all := flatMap_sieve (worldGeoms m d) (carries.late_bare compiled nodup bodies)
      simp only [scene, in_world, all]
      exact (gone.append_left _).subperm

section Tick

variable [LT V] [DecidableLT V] {f : Freeze} {cfg : FreezeCfg V} {keepPrefix : Option Text}

/-- A tick that freezes something leaves the scene that promotion makes. -/
theorem tick_scene {recompile : MjSpec S P → Option Nat}
    (froze : (weftFreezeTick recompile f spec m d cfg keepPrefix).2.2 ≠ 0) :
    (weftFreezeTick recompile f spec m d cfg keepPrefix).2.1 =
      (promote m d (ripeBodies f m d cfg keepPrefix) spec).1 := by
  unfold weftFreezeTick at froze ⊢
  by_cases resized : f.nbody ≠ m.nbody
  · rw [if_pos resized] at froze
    exact absurd rfl froze
  · rw [if_neg resized] at froze ⊢
    dsimp only at froze ⊢
    by_cases nobody : (ripeBodies f m d cfg keepPrefix).isEmpty = true
    · rw [if_pos nobody] at froze
      exact absurd rfl froze
    · rw [if_neg nobody] at froze ⊢
      cases made : promote m d (ripeBodies f m d cfg keepPrefix) spec with
      | mk after frozen =>
          simp only [made] at froze ⊢
          by_cases idle : frozen = 0
          · rw [if_pos idle] at froze
            exact absurd rfl froze
          · rw [if_neg idle] at froze ⊢
            cases answer : recompile after with
            | none =>
                simp only [answer] at froze
                exact absurd rfl froze
            | some nbody => rfl

/-- A tick that freezes something carries every piece over exactly when, whatever hangs under a body
whose turn it is, its own turn is earlier, if it has geoms, and it is to go at all. -/
theorem pieces_carried_iff (recompile : MjSpec S P → Option Nat) (f : Freeze) (spec : MjSpec S P)
    (m : MjModel S P) (d : MjData V P) (cfg : FreezeCfg V) (keepPrefix : Option Text)
    (compiled : Compiled spec m)
    (froze : (weftFreezeTick recompile f spec m d cfg keepPrefix).2.2 ≠ 0) :
    Carried m d (ripeBodies f m d cfg keepPrefix) spec
      (weftFreezeTick recompile f spec m d cfg keepPrefix).2.1 ↔
    Carries spec m (turns f m d cfg keepPrefix) := by
  have nodup : (turns f m d cfg keepPrefix).Nodup := companies_nodup.sublist (List.take_sublist ..)
  have bodies : ∀ b ∈ turns f m d cfg keepPrefix, b ∈ m.bodies := by
    intro b mem
    have ⟨block, listed, inBlock⟩ := List.mem_flatten.mp (List.mem_of_mem_take mem)
    have ⟨c, body, brought⟩ := List.mem_map.mp listed
    rw [← brought] at inBlock
    exact (brings_company c).bodies body b inBlock
  rw [tick_scene froze, ripeBodies_turns, promote_eq compiled bodies]
  exact carried_scene_iff compiled nodup bodies

end Tick

end World

/-! ### A crate and its lid -/

/-- A free crate, and when there is a lid it is welded to the crate. -/
def crateSpec (lid : Bool) : MjSpec Nat Int where
  world := [⟨decimal 0, 0, 1⟩]
  bodies := ⟨decimal 1, [], [⟨1, 1⟩]⟩ :: if lid then [⟨decimal 2, [decimal 1], [⟨2, 3⟩]⟩] else []

def crateModel (lid : Bool) : MjModel Nat Int where
  nbody := if lid then 3 else 2
  bodyName := fun b => decimal b
  bodyJntnum := fun b => if b = 1 then 1 else 0
  bodyJntadr := fun b => b - 1
  jntType := fun _ => .free
  bodyDofnum := fun b => if b = 1 then 6 else 0
  bodyDofadr := fun b => 6 * (b - 1)
  bodyGeomnum := fun _ => 1
  bodyGeomadr := fun b => b - 1
  geom := fun g => if g = 0 then ⟨1, 1⟩ else ⟨2, 3⟩

/-- The crate lies still and touches nothing. -/
def crateData : MjData Nat Int where
  bodySpeed := fun _ => 0
  dofIsland := none
  xpose := fun b => if b = 1 then 5 else 10

def crateFreeze (lid : Bool) : Freeze where
  stillFor := fun _ => 30
  nbody := if lid then 3 else 2
  frozenTotal := 0
  recompiles := 0

/-- `mj_recompile`, which always succeeds. -/
def recompiled (spec : MjSpec Nat Int) : Option Nat := some (spec.bodies.length + 1)

theorem crate_compiled (lid : Bool) : Compiled (crateSpec lid) (crateModel lid) := by
  cases lid <;> constructor <;> first | rfl | decide

/-- A crate without a lid is carried. -/
theorem bare_crate_is_carried :
    Compiled (crateSpec false) (crateModel false) ∧
      (weftFreezeTick recompiled (crateFreeze false) (crateSpec false) (crateModel false) crateData
        ⟨1, 30, 8⟩ none).2.2 ≠ 0 ∧
      Carried (crateModel false) crateData
        (ripeBodies (crateFreeze false) (crateModel false) crateData ⟨1, 30, 8⟩ none)
        (crateSpec false)
        (weftFreezeTick recompiled (crateFreeze false) (crateSpec false) (crateModel false)
          crateData ⟨1, 30, 8⟩ none).2.1 := by
  have froze : (weftFreezeTick recompiled (crateFreeze false) (crateSpec false) (crateModel false)
      crateData ⟨1, 30, 8⟩ none).2.2 ≠ 0 := by decide
  constructor
  · exact crate_compiled false
  · constructor
    · exact froze
    · apply (pieces_carried_iff recompiled (crateFreeze false) (crateSpec false) (crateModel false)
        crateData ⟨1, 30, 8⟩ none (crate_compiled false) froze).mpr
      intro earlier b later _ c there above
      cases List.mem_singleton.mp there
      cases above

/-- The lid goes with the crate, and comes to nothing. -/
theorem lid_is_lost :
    Compiled (crateSpec true) (crateModel true) ∧
      (weftFreezeTick recompiled (crateFreeze true) (crateSpec true) (crateModel true) crateData
        ⟨1, 30, 8⟩ none).2.2 = 1 ∧
      ¬ Carried (crateModel true) crateData
        (ripeBodies (crateFreeze true) (crateModel true) crateData ⟨1, 30, 8⟩ none)
        (crateSpec true)
        (weftFreezeTick recompiled (crateFreeze true) (crateSpec true) (crateModel true)
          crateData ⟨1, 30, 8⟩ none).2.1 := by
  constructor
  · exact crate_compiled true
  · constructor
    · decide
    · intro carried
      have there := carried.bodies ⟨decimal 2, [decimal 1], [⟨2, 3⟩]⟩
        (List.mem_cons_of_mem _ (List.mem_singleton.mpr rfl)) (by decide)
      cases there

end Promotion

end GyreWard
