/-
Module: GyreWard.Proofs.Names
Purpose: What a ward calls its Queen, its venues, its contracts and its Sparks, and that no call calls
  them anything else.
Trusted boundary: none
Main exports: Plates, Plates.Proper, SparkTables.Proper, Gyre.Named, wp_stir_named
-/
import GyreWard.Proofs.Wards

namespace GyreWard

open Lib
open Lib.Action (MadeOf Keeps Leaves wp)

/-! ### Plates -/

/-- The ids and wire names in a ward's tables. -/
structure Plates where
  queen : List Nat
  venue : List (Int × Nat)
  board : List (Nat × Option Nat)

def WardTables.plates (t : WardTables) : Plates :=
  { queen := t.ward.map (·.wire), venue := t.venue.map fun v => (v.id, v.wire)
    board := t.board.map fun r => (r.id, r.wire) }

/-- The names on the wire that `ward` gives to its Queen, its venues and its contracts. -/
structure Plates.Proper (ward : Int) (p : Plates) : Prop where
  oneQueen : p.queen.length ≤ 1
  queen : ∀ wire ∈ p.queen, wireId ward wireQueen = some wire
  venue : ∀ v ∈ p.venue, ∃ i : Nat, i < nVenues ∧ v.1 = i ∧
    wireId ward (wireVenueBase + i) = some v.2
  venues : (p.venue.map Prod.fst).Nodup
  contract : ∀ r ∈ p.board, ∀ wire, r.2 = some wire →
    wireId ward (wireContractBase + r.1) = some wire
  contracts : (p.board.map Prod.fst).Nodup

/-- The name on the wire that `ward` gives to a Spark. -/
def SparkTables.Proper (ward id : Int) (t : SparkTables) : Prop :=
  ∀ r ∈ t.spark, wireId ward (sparkLocal id) = some r.wire

/-- Everything is called by its ward's names, now and after a rollback. -/
structure Gyre.Named (ward : Int) (g : Gyre) : Prop where
  number : g.wardNo = ward
  tables : g.ward.Holds fun t => t.plates.Proper ward
  spark : ∀ (k : Nat) (s : Spark), g.sparks[k]? = some s →
    s.db.Holds (SparkTables.Proper ward s.id)

abbrev Named (ward : Int) (w : World) : Prop := w.g.Named ward

/-! ### Statements -/

theorem plates_updateContract (id : Nat) {f : BoardRow → BoardRow} (t : WardTables)
    (same : ∀ r, (f r).id = r.id ∧ (f r).wire = r.wire) :
    WardTables.plates { t with board := updateContract id f t.board } = t.plates := by
  simp only [WardTables.plates, updateContract, List.map_map]
  congr 1
  apply List.map_congr_left
  intro r _
  rw [Function.comp_apply]
  split
  · rw [(same r).1, (same r).2]
  · rfl

/-- No statement of a cycle or a payment calls anything by another name. -/
theorem WardStatement.proper {stmt : WardTables → Option WardTables} (runs : WardStatement stmt)
    {ward : Int} {t t' : WardTables} (run : stmt t = some t') (proper : t.plates.Proper ward) :
    t'.plates.Proper ward := by
  cases runs with
  | built venue cycle =>
      have same : t'.plates = t.plates := by
        rw [existing_some run]
        simp only [WardTables.plates, List.map_map]
        congr 1
        apply List.map_congr_left
        intro v _
        rw [Function.comp_apply]
        split <;> rfl
      rw [same]
      exact proper
  | ledger row =>
      rw [existing_some run]
      exact proper
  | clear =>
      rw [existing_some run]
      exact { proper with contract := nofun, contracts := List.nodup_nil }
  | taken id spark =>
      rw [existing_some run, plates_updateContract]
      · exact proper
      · exact fun _ => ⟨rfl, rfl⟩
  | outcome id outcome =>
      rw [existing_some run, plates_updateContract]
      · exact proper
      · exact fun _ => ⟨rfl, rfl⟩
  | books cycle treasury debt issued retired =>
      have same : t'.plates = t.plates := by
        rw [existing_some run]
        simp only [WardTables.plates, List.map_map]
        rfl
      rw [same]
      exact proper

theorem SparkTables.Proper.update {ward id who : Int} {f : SparkRow → SparkRow} {t t' : SparkTables}
    (proper : t.Proper ward id) (run : updateSparkRow who f t = some t')
    (same : ∀ r, (f r).wire = r.wire) : t'.Proper ward id := by
  unfold updateSparkRow SparkTables.existing at run
  split at run
  · cases run
    intro r mem
    have ⟨r', there, made⟩ := List.mem_map.mp mem
    rw [← made]
    split
    · rw [same]
      exact proper r' there
    · exact proper r' there
  · cases run

theorem SparkStatement.proper {stmt : SparkTables → Option SparkTables}
    (runs : SparkStatement stmt) {ward id : Int} {t t' : SparkTables} (run : stmt t = some t')
    (proper : t.Proper ward id) : t'.Proper ward id := by
  cases runs with
  | purse who amount => exact proper.update run fun _ => rfl
  | work who wear cycles place => exact proper.update run fun _ => rfl
  | held row =>
      unfold insertHeld SparkTables.existing at run
      split at run
      · dsimp only at run
        split at run
        · cases run
        · cases run
          exact proper
      · cases run

/-! ### What a call calls things -/

section Keeping

variable {ward : Int} {w : World}

theorem Named.of_same (named : Named ward w) {w' : World} (number : w'.g.wardNo = w.g.wardNo)
    (tables : w'.g.ward = w.g.ward) (sparks : w'.g.sparks = w.g.sparks) : Named ward w' where
  number := number.trans named.number
  tables := tables.symm ▸ named.tables
  spark := sparks.symm ▸ named.spark

theorem Named.setSpark (named : Named ward w) {i : Nat} {f : Spark → Spark}
    (each : ∀ s, w.g.sparks[i]? = some s → s.db.Holds (SparkTables.Proper ward s.id) →
      (f s).db.Holds (SparkTables.Proper ward (f s).id)) :
    Named ward (w.setGyre (Gyre.setSpark i f)) where
  number := named.number
  tables := named.tables
  spark := by
    intro k s here
    change (w.g.setSpark i f).sparks[k]? = some s at here
    rw [setSpark_at] at here
    split at here
    · rename_i same
      cases there : w.g.sparks[k]? with
      | none => simp [there] at here
      | some s' =>
          rw [there] at here
          cases here
          exact each s' (same ▸ there) (named.spark k s' there)
    · exact named.spark k s here

theorem keeps_named_fallible : Keeps (Named ward) fallible := by
  intro w named
  rw [fallible_eq]
  split
  · exact named.of_same rfl rfl rfl
  · exact named.of_same rfl rfl rfl

theorem keeps_named_onWard {f : Conn WardTables → Option (Conn WardTables)}
    (each : ∀ c c', f c = some c' → c.Holds (fun t => t.plates.Proper ward) →
      c'.Holds fun t => t.plates.Proper ward) :
    Keeps (Named ward) (update (Gyre.onWard f)) := by
  intro w named
  unfold update
  cases run : Gyre.onWard f w.g with
  | none => exact named
  | some g =>
      have ⟨c, effect, made⟩ := onWard_eq_some.mp run
      rw [made]
      exact ⟨named.number, each _ _ effect named.tables, named.spark⟩

theorem keeps_named_onSpark (i : Nat) {f : Conn SparkTables → Option (Conn SparkTables)}
    (each : ∀ id c c', f c = some c' → c.Holds (SparkTables.Proper ward id) →
      c'.Holds (SparkTables.Proper ward id)) :
    Keeps (Named ward) (update (Gyre.onSpark i f)) := by
  intro w named
  unfold update
  cases run : Gyre.onSpark i f w.g with
  | none => exact named
  | some g =>
      have ⟨s, c, here, effect, made⟩ := onSpark_eq_some.mp run
      rw [made]
      apply named.setSpark
      intro s' here' holds
      have alike : s = s' := Option.some.inj (here.symm.trans here')
      exact each _ _ _ (alike ▸ effect) holds

theorem Bookkeeping.named {f : Gyre → Gyre} (keeps : Bookkeeping f) (named : Named ward w) :
    Named ward (w.setGyre f) := by
  cases keeps with
  | spend cost => exact named.of_same rfl rfl rfl
  | draw r => exact named.of_same rfl rfl rfl
  | earn amount => exact named.of_same rfl rfl rfl
  | paid i amount =>
      have spent : Named ward (w.setGyre fun g => { g with treasury := g.treasury - amount }) :=
        named.of_same rfl rfl rfl
      exact spent.setSpark fun _ _ holds => holds
  | setWear i f => exact named.setSpark fun _ _ holds => holds
  | movePlace i f => exact named.setSpark fun _ _ holds => holds
  | compound => exact named.of_same rfl rfl rfl
  | retire amount => exact named.of_same rfl rfl rfl

/-- A new row is behind all the rows there are. -/
theorem lt_nextRowid (rows : List BoardRow) : ∀ r ∈ rows, r.id < nextRowid rows := by
  have top : ∀ (rows : List BoardRow) (least : Nat),
      least ≤ rows.foldl (fun top r => max top r.id) least ∧
        ∀ r ∈ rows, r.id ≤ rows.foldl (fun top r => max top r.id) least := by
    intro rows
    induction rows with
    | nil => exact fun least => ⟨Nat.le_refl _, nofun⟩
    | cons r rest ih =>
        intro least
        have ⟨above, all⟩ := ih (max least r.id)
        rw [List.foldl_cons]
        constructor
        · exact le_trans (Nat.le_max_left ..) above
        · intro r' mem
          rcases List.mem_cons.mp mem with same | later
          · rw [same]
            exact le_trans (Nat.le_max_right ..) above
          · exact all r' later
  intro r mem
  exact Nat.lt_succ_of_le ((top rows 0).2 r mem)

/-- A row without a name on the wire, behind all others. -/
theorem proper_insertBoard {cycle payout risk : Int} {kind : Text} {place : Place}
    {t t' : WardTables} (run : insertBoard cycle kind payout risk place t = some t')
    (proper : t.plates.Proper ward) : t'.plates.Proper ward := by
  rw [existing_some run]
  have board : ∀ row : BoardRow, row.id = nextRowid t.board → row.wire = none →
      WardTables.plates { t with board := t.board ++ [row] } =
        { t.plates with board := t.plates.board ++ [(nextRowid t.board, none)] } := by
    intro row numbered bare
    simp [WardTables.plates, numbered, bare]
  rw [board _ rfl rfl]
  constructor
  · exact proper.oneQueen
  · exact proper.queen
  · exact proper.venue
  · exact proper.venues
  · intro r mem wire named
    rcases List.mem_append.mp mem with old | new
    · exact proper.contract r old wire named
    · rw [List.mem_singleton.mp new] at named
      cases named
  · rw [List.map_append, List.nodup_append]
    constructor
    · exact proper.contracts
    · constructor
      · exact List.nodup_singleton _
      · intro id old id' new same
        have ⟨p, there, made⟩ := List.mem_map.mp old
        have ⟨r, listed, plate⟩ := List.mem_map.mp there
        have before := lt_nextRowid t.board r listed
        rw [← plate] at made
        simp only [List.map_cons, List.map_nil, List.mem_singleton] at new
        simp only at made
        omega

/-- A contract is named by its row. -/
theorem proper_updateContractWire {id wire owner : Nat}
    (named : wireId ward (wireContractBase + id) = some wire) {t t' : WardTables}
    (run : updateContractWire id wire owner t = some t') (proper : t.plates.Proper ward) :
    t'.plates.Proper ward := by
  unfold updateContractWire WardTables.existing at run
  split at run
  · dsimp only at run
    split at run
    · cases run
    · cases run
      have ids : (updateContract id (fun r => { r with wire := some wire, owner := some owner })
          t.board).map (·.id) = t.board.map (·.id) := by
        rw [updateContract, List.map_map]
        apply List.map_congr_left
        intro r _
        rw [Function.comp_apply]
        split <;> rfl
      constructor
      · exact proper.oneQueen
      · exact proper.queen
      · exact proper.venue
      · exact proper.venues
      · intro p mem other told
        have ⟨r', there', plate⟩ := List.mem_map.mp mem
        have ⟨r, there, made⟩ := List.mem_map.mp there'
        rw [← plate, ← made] at told ⊢
        split at told
        · rename_i same
          cases told
          rw [if_pos same, same]
          exact named
        · rename_i apart
          rw [if_neg apart]
          exact proper.contract _ (List.mem_map.mpr ⟨r, there, rfl⟩) other told
      · have same := proper.contracts
        simp only [WardTables.plates, List.map_map] at same ⊢
        exact ids ▸ same
  · cases run

theorem wp_draw_named (n : UInt32) (named : Named ward w) :
    wp (draw n) (fun _ => Named ward) (Named ward) w := by
  unfold draw
  rw [Action.wp_bind, Action.wp_read]
  cases rngBelow w.g.rng n with
  | some drawn => exact named.of_same rfl rfl rfl
  | none => trivial

theorem wp_built_named (venue : Int) (named : Named ward w) :
    wp (built venue) (fun _ => Named ward) (Named ward) w := by
  have asked : Leaves World.g (built venue) := (asks_built venue).leaves _ fun _ _ => rfl
  apply Action.wp_mono (asked.wp w)
  · intro _ w' same
    exact named.of_same (by rw [same]) (by rw [same]) (by rw [same])
  · intro w' same
    exact named.of_same (by rw [same]) (by rw [same]) (by rw [same])

theorem wp_runWard_named {stmt : WardTables → Option WardTables} (named : Named ward w)
    (each : ∀ t t', stmt t = some t' → t.plates.Proper ward → t'.plates.Proper ward) :
    wp (runWard stmt) (fun _ => Named ward) (Named ward) w := by
  apply wp_runWard
  · exact named.of_same rfl rfl rfl
  · intro _ t effect
    constructor
    · exact named.number
    · exact ⟨each _ _ effect named.tables.now, named.tables.saved⟩
    · exact named.spark

/-- A contract is posted under a name of its own. -/
theorem wp_postContract_named (i : Nat) (named : Named ward w) :
    wp (postContract i) (fun _ => Named ward) (Named ward) w := by
  unfold postContract
  rw [Action.wp_bind]
  apply Action.wp_mono (wp_draw_named 9 named) _ fun _ h => h
  intro kind w₁ named₁
  rw [Action.wp_bind]
  apply Action.wp_mono (wp_draw_named 55 named₁) _ fun _ h => h
  intro risk w₂ named₂
  rw [Action.wp_bind]
  apply Action.wp_mono (wp_draw_named 20 named₂) _ fun _ h => h
  intro extra w₃ named₃
  dsimp only
  rw [Action.wp_bind]
  apply Action.wp_mono (wp_built_named 3 named₃) _ fun _ h => h
  intro plaza w₄ named₄
  rw [Action.wp_bind, Action.wp_read, Action.wp_bind]
  apply Action.wp_mono (wp_runWard_named named₄ fun _ _ => proper_insertBoard) _ fun _ h => h
  intro _ w₅ named₅
  rw [Action.wp_bind]
  apply wp_wireIdOrExit
  intro wire given
  rw [named₄.number] at given ⊢
  exact wp_runWard_named named₅ fun _ _ => proper_updateContractWire given

/-- Every move of a game calls things by their names. -/
theorem Stir.wp_named {α : Type} {x : Action World α} (stir : Stir α x) (named : Named ward w) :
    wp x (fun _ => Named ward) (Named ward) w := by
  cases stir with
  | write writes =>
      cases writes with
      | fallible => exact keeps_named_fallible.wp named
      | onWard runs =>
          apply Keeps.wp _ named
          apply keeps_named_onWard
          intro c c' run holds
          have ⟨_, t, effect, made⟩ := Conn.execute_eq_some.mp run
          rw [made]
          exact ⟨runs.proper effect holds.now, holds.saved⟩
      | onSpark i runs =>
          apply Keeps.wp _ named
          apply keeps_named_onSpark
          intro id c c' run holds
          have ⟨_, t, effect, made⟩ := Conn.execute_eq_some.mp run
          rw [made]
          exact ⟨runs.proper effect holds.now, holds.saved⟩
      | remember keeps => exact keeps.named named
      | contract i => exact wp_postContract_named i named
  | count => exact named.of_same rfl rfl rfl
  | plane f => exact named.of_same rfl rfl rfl
  | group f => exact named.of_same rfl rfl rfl
  | beginWard =>
      apply Keeps.wp _ named
      apply keeps_named_onWard
      intro c c' run holds
      rw [(Conn.begin_eq_some.mp run).2.2]
      exact holds.begin
  | beginSpark i =>
      apply Keeps.wp _ named
      apply keeps_named_onSpark
      intro id c c' run holds
      rw [(Conn.begin_eq_some.mp run).2.2]
      exact holds.begin
  | commitWard =>
      apply Keeps.wp _ named
      apply keeps_named_onWard
      intro c c' run holds
      rw [(Conn.commit_eq_some.mp run).2]
      exact holds.commit
  | commitSpark i =>
      apply Keeps.wp _ named
      apply keeps_named_onSpark
      intro id c c' run holds
      rw [(Conn.commit_eq_some.mp run).2]
      exact holds.commit
  | rollbackWard => exact ⟨named.number, named.tables.rollback, named.spark⟩
  | rollbackSpark i => exact named.setSpark fun _ _ holds => holds.rollback

theorem wp_stir_named {α : Type} {x : Action World α} (made : MadeOf Stir α x)
    (named : Named ward w) : wp x (fun _ => Named ward) (Named ward) w :=
  made.wp (fun _ _ stir _ named => stir.wp_named named) w named

end Keeping

end GyreWard
