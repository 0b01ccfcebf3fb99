/-
Module: GyreWard.Proofs.Islands
Purpose: A tick collects the ready bodies in the order of their islands, as far as its cap goes; and
  so when it freezes half of an island.
Trusted boundary: none
Main exports: islanders, company, collect_eq, OneIsland, InIsland, islands_whole_iff
-/
import Mathlib.Data.List.Induction
import GyreWard.Lib.Capped
import GyreWard.Model.Freeze

namespace GyreWard

open Lib

section Islands

variable {V S P : Type}
variable (m : MjModel S P) (d : MjData V P) (cfg : FreezeCfg V) (keepPrefix : Option Text)
variable (still : Nat → Nat)

/-- The bodies of an island, in order. -/
def islanders (isl : Int) : List Nat := m.bodies.filter fun o => islandOf m d o = isl

/-- What a body brings along when it is its turn: itself when it touches nothing, its whole island
when that is ready and the body is the first of it, and nothing otherwise. -/
def company (b : Nat) : List Nat :=
  if still b < cfg.stillTicks then []
  else if islandOf m d b < 0 then [b]
  else if !wholeIslandReady m d cfg keepPrefix still (islandOf m d b) then []
  else if (islanders m d (islandOf m d b)).head? = some b then islanders m d (islandOf m d b)
  else []

/-- A body with its company: alone, or with the island it leads. -/
inductive Brings (b : Nat) : List Nat → Prop where
  | nobody : Brings b []
  | itself (alone : islandOf m d b < 0) : Brings b [b]
  | island (real : 0 ≤ islandOf m d b)
      (ready : wholeIslandReady m d cfg keepPrefix still (islandOf m d b) = true)
      (leads : (islanders m d (islandOf m d b)).head? = some b) :
      Brings b (islanders m d (islandOf m d b))

variable {m d cfg keepPrefix still}

theorem mem_islanders {isl : Int} {o : Nat} :
    o ∈ islanders m d isl ↔ o ∈ m.bodies ∧ islandOf m d o = isl := by
  simp [islanders]

theorem bodies_nodup : m.bodies.Nodup := List.nodup_range'

theorem islanders_nodup (isl : Int) : (islanders m d isl).Nodup := bodies_nodup.filter _

theorem brings_company (b : Nat) :
    Brings m d cfg keepPrefix still b (company m d cfg keepPrefix still b) := by
  unfold company
  split
  · exact .nobody
  · split
    · exact .itself ‹_›
    · rename_i real
      split
      · exact .nobody
      · rename_i ready
        split
        · exact .island (Int.not_lt.mp real) (by simpa using ready) ‹_›
        · exact .nobody

namespace Brings

variable {b c : Nat} {bs cs : List Nat}

/-- A body comes along in one company only. -/
theorem unique {a : Nat} (first : Brings m d cfg keepPrefix still b bs)
    (second : Brings m d cfg keepPrefix still c cs) (here : a ∈ bs) (there : a ∈ cs) : b = c := by
  cases first with
  | nobody => cases here
  | itself alone =>
      obtain rfl := List.mem_singleton.mp here
      cases second with
      | nobody => cases there
      | itself _ => exact List.mem_singleton.mp there
      | island real =>
          have same := (mem_islanders.mp there).2
          exact absurd real (Int.not_le.mpr (same ▸ alone))
  | island real ready leads =>
      have mine := (mem_islanders.mp here).2
      cases second with
      | nobody => cases there
      | itself alone =>
          obtain rfl := List.mem_singleton.mp there
          exact absurd real (Int.not_le.mpr (mine ▸ alone))
      | island real' ready' leads' =>
          have same := (mem_islanders.mp there).2
          rw [← mine, same, leads'] at leads
          exact (Option.some.inj leads).symm

theorem nodup (brings : Brings m d cfg keepPrefix still b bs) : bs.Nodup := by
  cases brings with
  | nobody => exact List.nodup_nil
  | itself => exact List.nodup_singleton _
  | island => exact islanders_nodup _

theorem bodies (brings : Brings m d cfg keepPrefix still b bs) (body : b ∈ m.bodies) :
    ∀ a ∈ bs, a ∈ m.bodies := by
  intro a mem
  cases brings with
  | nobody => cases mem
  | itself => exact List.mem_singleton.mp mem ▸ body
  | island => exact (mem_islanders.mp mem).1

end Brings

/-- Nobody is collected twice. -/
theorem companies_nodup :
    (m.bodies.map (company m d cfg keepPrefix still)).flatten.Nodup := by
  rw [List.nodup_flatten]
  constructor
  · intro bs mem
    obtain ⟨b, -, rfl⟩ := List.mem_map.mp mem
    exact (brings_company b).nodup
  · apply List.pairwise_map.mpr
    apply bodies_nodup.pairwise_of_forall_ne
    intro b _ c _ other a here there
    exact other ((brings_company b).unique (brings_company c) here there)

/-! ### The loops -/

/-- The inner loop fills up what is collected with the bodies of the island. -/
theorem collectIsland_eq (isl : Int) (ripe : List Nat) :
    collectIsland m d cfg isl ripe = fill cfg.maxPerTick (islanders m d isl) ripe := by
  unfold collectIsland fill islanders
  rw [List.foldl_filter]
  congr 1
  funext ripe o
  by_cases full : cfg.maxPerTick ≤ ripe.length
  · simp [full]
  · by_cases mine : islandOf m d o = isl <;> simp [full, mine]

/-- The body of the loop. -/
def turn (m : MjModel S P) (d : MjData V P) (cfg : FreezeCfg V) (keepPrefix : Option Text)
    (still : Nat → Nat) (ripe : List Nat) (b : Nat) : List Nat :=
  if cfg.maxPerTick ≤ ripe.length then ripe
  else if still b < cfg.stillTicks then ripe
  else if islandOf m d b < 0 then ripe ++ [b]
  else if !wholeIslandReady m d cfg keepPrefix still (islandOf m d b) then ripe
  else collectIsland m d cfg (islandOf m d b) ripe

theorem collect_fold :
    collect m d cfg keepPrefix still = m.bodies.foldl (turn m d cfg keepPrefix still) [] := rfl

/-- The first of an island is not behind any of it. -/
theorem leader_before {before after : List Nat} {b : Nat} (split : m.bodies = before ++ b :: after)
    (follows : (islanders m d (islandOf m d b)).head? ≠ some b) :
    ∃ first ∈ before, (islanders m d (islandOf m d b)).head? = some first ∧
      islandOf m d first = islandOf m d b := by
  have cut : islanders m d (islandOf m d b) =
      (before.filter fun o => islandOf m d o = islandOf m d b) ++
        b :: after.filter fun o => islandOf m d o = islandOf m d b := by
    rw [islanders, split, List.filter_append, List.filter_cons_of_pos (by simp)]
  cases ahead : before.filter fun o => islandOf m d o = islandOf m d b with
  | nil =>
      rw [cut, ahead] at follows
      exact absurd rfl follows
  | cons first rest =>
      have mem : first ∈ before.filter fun o => islandOf m d o = islandOf m d b := by
        rw [ahead]
        exact List.mem_cons_self ..
      have ⟨earlier, same⟩ := List.mem_filter.mp mem
      have heads : (islanders m d (islandOf m d b)).head? = some first := by
        rw [cut, ahead]
        rfl
      exact ⟨first, earlier, heads, by simpa using same⟩

/-- The company of a body that leads a ready island, and of one that follows in it. -/
theorem company_ready {b : Nat} (long : ¬ still b < cfg.stillTicks) (real : ¬ islandOf m d b < 0)
    (ready : wholeIslandReady m d cfg keepPrefix still (islandOf m d b) = true) :
    company m d cfg keepPrefix still b =
      if (islanders m d (islandOf m d b)).head? = some b then islanders m d (islandOf m d b)
      else [] := by
  rw [company, if_neg long, if_neg real, if_neg (by simp [ready])]

/-- All of a ready island has been still for long enough. -/
theorem still_of_ready {isl : Int} (ready : wholeIslandReady m d cfg keepPrefix still isl = true)
    {o : Nat} (mem : o ∈ islanders m d isl) : ¬ still o < cfg.stillTicks := by
  have ⟨body, mine⟩ := mem_islanders.mp mem
  have each := List.all_eq_true.mp ready o body
  simp only [mine, ne_eq, not_true_eq_false, decide_false, Bool.false_or, Bool.and_eq_true,
    decide_eq_true_eq] at each
  exact Nat.not_lt.mpr each.2

/-- One turn of the loop: the company of the body is appended as far as the cap goes. -/
theorem turn_company {before after : List Nat} {b : Nat} (split : m.bodies = before ++ b :: after)
    {old : List Nat} (sofar : old = (before.map (company m d cfg keepPrefix still)).flatten) :
    turn m d cfg keepPrefix still (old.take cfg.maxPerTick) b =
      (old ++ company m d cfg keepPrefix still b).take cfg.maxPerTick := by
  unfold turn
  split_ifs with full short alone unready
  · have enough : cfg.maxPerTick ≤ old.length := by
      rw [List.length_take] at full
      exact le_trans full (Nat.min_le_right ..)
    rw [List.take_append_of_le_length enough]
  · rw [company, if_pos short, List.append_nil]
  all_goals
    have room : old.length < cfg.maxPerTick := by
      rw [List.length_take] at full
      omega
    rw [List.take_of_length_le (Nat.le_of_lt room)]
  · rw [company, if_neg short, if_pos alone, List.take_of_length_le]
    rw [List.length_append]
    exact room
  · rw [company, if_neg short, if_neg alone, if_pos unready, List.append_nil,
      List.take_of_length_le (Nat.le_of_lt room)]
  · have ready : wholeIslandReady m d cfg keepPrefix still (islandOf m d b) = true := by
      simpa using unready
    have real : 0 ≤ islandOf m d b := Int.not_lt.mp alone
    rw [collectIsland_eq, company_ready short alone ready]
    split_ifs with leads
    · -- nothing of the island can have come along with an earlier body
      apply fill_fresh (islanders_nodup _) _ (Nat.le_of_lt room)
      intro a mine earlier
      rw [sofar] at earlier
      have ⟨bs, mem, inside⟩ := List.mem_flatten.mp earlier
      have ⟨c, before', brings⟩ := List.mem_map.mp mem
      rw [← brings] at inside
      have same : c = b := (brings_company c).unique (.island real ready leads) inside mine
      have nodup : (before ++ b :: after).Nodup := split ▸ bodies_nodup
      exact (List.nodup_append.mp nodup).2.2 c before' b (List.mem_cons_self ..) same
    · -- all of the island came along with its first body
      have ⟨first, before', heads, together⟩ := leader_before split leads
      have member : first ∈ islanders m d (islandOf m d b) := List.mem_of_mem_head? heads
      have long : ¬ still first < cfg.stillTicks := still_of_ready ready member
      have brought : company m d cfg keepPrefix still first = islanders m d (islandOf m d b) := by
        rw [company_ready long (together ▸ alone) (together ▸ ready), together, if_pos heads]
      rw [List.append_nil, List.take_of_length_le (Nat.le_of_lt room)]
      apply fill_known
      intro a mine
      rw [sofar]
      exact List.mem_flatten.mpr ⟨_, List.mem_map.mpr ⟨first, before', brought⟩, mine⟩

/-- What a tick collects: the companies of the bodies, one after another, as far as the cap
goes. -/
theorem collect_eq :
    collect m d cfg keepPrefix still =
      ((m.bodies.map (company m d cfg keepPrefix still)).flatten).take cfg.maxPerTick := by
  have turns : ∀ before after : List Nat, m.bodies = before ++ after →
      before.foldl (turn m d cfg keepPrefix still) [] =
        ((before.map (company m d cfg keepPrefix still)).flatten).take cfg.maxPerTick := by
    intro before
    induction before using List.reverseRecOn with
    | nil =>
        intro after _
        exact List.take_nil.symm
    | append_singleton before b ih =>
        intro after split
        have split' : m.bodies = before ++ b :: after := by
          rw [split, List.append_assoc]
          rfl
        rw [List.foldl_append, ih _ split', List.map_append, List.flatten_append, List.foldl_cons,
          List.foldl_nil, turn_company split' rfl]
        simp
  rw [collect_fold]
  exact turns m.bodies [] (List.append_nil _).symm

/-! ### Whole islands -/

/-- Every dof of a body is in the island of its first: MuJoCo assigns islands to kinematic trees,
and the dofs of a body are in one tree. -/
def OneIsland (m : MjModel S P) (d : MjData V P) : Prop :=
  ∀ island, d.dofIsland = some island → ∀ b ∈ m.bodies, ∀ k, k < m.bodyDofnum b →
    island (m.bodyDofadr b + k) = island (m.bodyDofadr b)

/-- A body has a dof in the island. -/
def InIsland (m : MjModel S P) (d : MjData V P) (b : Nat) (isl : Int) : Prop :=
  ∃ island, d.dofIsland = some island ∧ ∃ k, k < m.bodyDofnum b ∧
    island (m.bodyDofadr b + k) = isl

theorem inIsland_iff (one : OneIsland m d) {b : Nat} (body : b ∈ m.bodies) {isl : Int}
    (real : 0 ≤ isl) : InIsland m d b isl ↔ islandOf m d b = isl := by
  constructor
  · rintro ⟨island, assigned, k, dof, mine⟩
    have dofs : 0 < m.bodyDofnum b := by omega
    simp only [islandOf, assigned, if_pos dofs]
    rw [← one island assigned b body k dof, mine]
  · intro mine
    unfold islandOf at mine
    cases assigned : d.dofIsland with
    | none =>
        simp only [assigned] at mine
        omega
    | some island =>
        simp only [assigned] at mine
        split_ifs at mine with dofs
        · exact ⟨island, assigned, 0, dofs, mine⟩
        · omega

/-- A company is whole in what is collected exactly when its island is. -/
theorem islands_companies (one : OneIsland m d) {ripe : List Nat}
    (from_companies : ∀ b ∈ ripe, b ∈ (m.bodies.map (company m d cfg keepPrefix still)).flatten) :
    (∀ b ∈ ripe, ∀ isl : Int, 0 ≤ isl → InIsland m d b isl →
      ∀ o ∈ m.bodies, InIsland m d o isl → o ∈ ripe) ↔
    ∀ block ∈ m.bodies.map (company m d cfg keepPrefix still), Whole ripe block := by
  constructor
  · rintro islands block mem ⟨a, inBlock, taken⟩ o inBlock'
    have ⟨b, _, brought⟩ := List.mem_map.mp mem
    have brings : Brings m d cfg keepPrefix still b block := brought ▸ brings_company b
    cases brings with
    | nobody => cases inBlock
    | itself =>
        rw [List.mem_singleton] at inBlock inBlock'
        rw [inBlock', ← inBlock]
        exact taken
    | island real =>
        have ⟨body, mine⟩ := mem_islanders.mp inBlock
        have ⟨body', mine'⟩ := mem_islanders.mp inBlock'
        exact islands a taken _ real ((inIsland_iff one body real).mpr mine) o body'
          ((inIsland_iff one body' real).mpr mine')
  · intro blocks b taken isl real mine o body with_b
    have ⟨block, mem, inBlock⟩ := List.mem_flatten.mp (from_companies b taken)
    have ⟨c, bodyC, brought⟩ := List.mem_map.mp mem
    have brings : Brings m d cfg keepPrefix still c block := brought ▸ brings_company c
    have member : o ∈ islanders m d isl :=
      mem_islanders.mpr ⟨body, (inIsland_iff one body real).mp with_b⟩
    cases brings with
    | nobody => cases inBlock
    | itself alone =>
        rw [List.mem_singleton.mp inBlock] at mine
        have touching : islandOf m d c = isl := (inIsland_iff one bodyC real).mp mine
        exact absurd real (Int.not_le.mpr (touching ▸ alone))
    | island =>
        have ⟨body', together⟩ := mem_islanders.mp inBlock
        have same : islandOf m d c = isl :=
          together.symm.trans ((inIsland_iff one body' real).mp mine)
        apply blocks _ mem ⟨b, inBlock, taken⟩ o
        rw [same]
        exact member

section Cap

variable [LT V] [DecidableLT V]

/-- A tick collects every island whole exactly when its cap does not end in the middle of one: where
the lone bodies that are ready, and the ready islands, stand in the order of their first bodies. -/
theorem islands_whole_iff (f : Freeze) (m : MjModel S P) (d : MjData V P) (cfg : FreezeCfg V)
    (keepPrefix : Option Text) (one : OneIsland m d) :
    (∀ b ∈ ripeBodies f m d cfg keepPrefix, ∀ isl : Int, 0 ≤ isl → InIsland m d b isl →
      ∀ o ∈ m.bodies, InIsland m d o isl → o ∈ ripeBodies f m d cfg keepPrefix) ↔
    Uncut cfg.maxPerTick
      (m.bodies.map (company m d cfg keepPrefix (countStill f m d cfg keepPrefix))) := by
  rw [ripeBodies, collect_eq]
  have from_companies : ∀ b ∈ ((m.bodies.map (company m d cfg keepPrefix
      (countStill f m d cfg keepPrefix))).flatten).take cfg.maxPerTick,
      b ∈ (m.bodies.map (company m d cfg keepPrefix
        (countStill f m d cfg keepPrefix))).flatten :=
    fun b taken => List.mem_of_mem_take taken
  rw [islands_companies one from_companies]
  exact whole_take_iff companies_nodup

/-- Two boxes that lean on each other, both still for long enough. -/
def twoBoxes : MjModel Unit Unit where
  nbody := 3
  bodyName := fun b => decimal b
  bodyJntnum := fun _ => 1
  bodyJntadr := fun b => b - 1
  jntType := fun _ => .free
  bodyDofnum := fun _ => 6
  bodyDofadr := fun b => 6 * (b - 1)
  bodyGeomnum := fun _ => 1
  bodyGeomadr := fun b => b - 1
  geom := fun _ => ⟨(), ()⟩

/-- One island holds all twelve dofs. -/
def leaning : MjData Nat Unit where
  bodySpeed := fun _ => 0
  dofIsland := some fun _ => 0
  xpose := fun _ => ()

def settled : Freeze where
  stillFor := fun _ => 30
  nbody := 3
  frozenTotal := 0
  recompiles := 0

theorem leaning_oneIsland : OneIsland twoBoxes leaning := by
  intro island assigned b _ k _
  cases assigned
  rfl

/-- With room for both, the boxes go together. -/
theorem leaning_boxes_freeze_together :
    OneIsland twoBoxes leaning ∧
      ∀ b ∈ ripeBodies settled twoBoxes leaning ⟨1, 30, 8⟩ none, ∀ isl : Int, 0 ≤ isl →
        InIsland twoBoxes leaning b isl → ∀ o ∈ twoBoxes.bodies, InIsland twoBoxes leaning o isl →
        o ∈ ripeBodies settled twoBoxes leaning ⟨1, 30, 8⟩ none := by
  constructor
  · exact leaning_oneIsland
  · apply (islands_whole_iff settled twoBoxes leaning ⟨1, 30, 8⟩ none leaning_oneIsland).mpr
    apply uncut_of_length
    decide

/-- With room for one, half of the island is frozen. -/
theorem half_an_island_freezes :
    OneIsland twoBoxes leaning ∧
      ripeBodies settled twoBoxes leaning ⟨1, 30, 1⟩ none = [1] ∧
      ¬ ∀ b ∈ ripeBodies settled twoBoxes leaning ⟨1, 30, 1⟩ none, ∀ isl : Int, 0 ≤ isl →
        InIsland twoBoxes leaning b isl → ∀ o ∈ twoBoxes.bodies, InIsland twoBoxes leaning o isl →
        o ∈ ripeBodies settled twoBoxes leaning ⟨1, 30, 1⟩ none := by
  have first : InIsland twoBoxes leaning 1 0 := ⟨_, rfl, 0, by decide, rfl⟩
  have second : InIsland twoBoxes leaning 2 0 := ⟨_, rfl, 0, by decide, rfl⟩
  constructor
  · exact leaning_oneIsland
  · constructor
    · decide
    · intro whole
      have both := whole 1 (by decide) 0 (Int.le_refl 0) first 2 (by decide) second
      exact absurd both (by decide)

end Cap

end Islands

end GyreWard
