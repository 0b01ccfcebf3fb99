/-
Module: GyreWard.Proofs.FdbCommit
Purpose: A commit is the whole buffer or nothing of it, in one transaction or in many, and whatever stops it.
Trusted boundary: none
Main exports: Owns, Aside, Landed, LandedBut, ends_stage, ends_sendCommit, ends_flush
-/
import GyreWard.Proofs.FdbImage

namespace GyreWard.Fdb

open Lib
open Lib.Action (Ends)

variable {P α : Type}

/-! ### Doing it again -/

theorem find?_pair_congr {rows : List (Nat × α)} (p : Nat) :
    ((rows.find? fun r => r.1 = p).map (·.2)) = rowOf rows p := rfl

/-- The pages of a commit are put once, however often it is tried. -/
theorem putDeltaPages_twice {f : FdbFile P} (sorted : Sorted f.dirty) (txid lo hi : Nat) (db : Db P) :
    putDeltaPages f txid lo hi (putDeltaPages f txid lo hi db) = putDeltaPages f txid lo hi db := by
  have slice : Sorted ((f.dirty.drop lo).take (hi - lo)) :=
    List.Pairwise.sublist ((List.take_sublist _ _).trans (List.drop_sublist _ _)) sorted
  unfold putDeltaPages
  congr 1
  funext t
  by_cases here : t = txid
  · simp only [here, if_true]
    exact Table.setAll_setAll slice.apart _
  · simp only [here, if_false]

/-- So is the head. -/
theorem putHead_twice {f : FdbFile P} (sorted : Sorted f.dirty) (txid : Nat) (db : Db P) :
    putHead f txid (putHead f txid db) = putHead f txid db := by
  have index : (putHead f txid (putHead f txid db)).pidx = (putHead f txid db).pidx := by
    apply Table.ext_get
    intro p
    rw [pidx_putHead sorted, pidx_putHead sorted]
    split
    · rfl
    · cases rowOf f.dirty p with
      | some page => rfl
      | none => rfl
  have shape : putHead f txid (putHead f txid db) =
      { putHead f txid db with pidx := (putHead f txid (putHead f txid db)).pidx } := rfl
  rw [shape, index]

/-- What a commit that fits one transaction does to the rows. -/
def commitRows (f : FdbFile P) (txid : Nat) (db : Db P) : Db P :=
  putHead f txid (putDeltaPages f txid 0 f.dirty.length db)

theorem commitRows_twice {f : FdbFile P} (sorted : Sorted f.dirty) (txid : Nat) (db : Db P) :
    commitRows f txid (commitRows f txid db) = commitRows f txid db := by
  have order : putDeltaPages f txid 0 f.dirty.length (putHead f txid
      (putDeltaPages f txid 0 f.dirty.length db)) = putHead f txid (putDeltaPages f txid 0 f.dirty.length
      (putDeltaPages f txid 0 f.dirty.length db)) := rfl
  unfold commitRows
  rw [order, putDeltaPages_twice sorted, putHead_twice sorted]

/-! ### Pages on their way -/

/-- The database with other pages of one commit. -/
def withPages (txid : Nat) (pages : Table Nat P) (db : Db P) : Db P :=
  { db with delta := fun t => if t = txid then pages else db.delta t }

theorem putDeltaPages_withPages (f : FdbFile P) (txid lo hi : Nat) (pages : Table Nat P) (db : Db P) :
    putDeltaPages f txid lo hi (withPages txid pages db) =
      withPages txid (pages.setAll ((f.dirty.drop lo).take (hi - lo))) db := by
  unfold putDeltaPages withPages
  congr 1
  funext t
  by_cases here : t = txid
  · simp [here]
  · simp [here]

theorem putDeltaPages_eq (f : FdbFile P) (txid lo hi : Nat) (db : Db P) :
    putDeltaPages f txid lo hi db =
      withPages txid ((db.delta txid).setAll ((f.dirty.drop lo).take (hi - lo))) db := by
  unfold putDeltaPages withPages
  congr 1
  funext t
  by_cases here : t = txid
  · simp [here]
  · simp [here]

variable {db : Db P} {f : FdbFile P} {txid : Nat} {pages : Table Nat P}

theorem image_withPages (sane : Sane db) (fresh : headOf db < txid) (p : Nat) :
    image (withPages txid pages db) p = image db p := by
  apply image_delta sane
  intro t below
  exact if_neg (by omega)

theorem Sane.withPages (sane : Sane db) (fresh : headOf db < txid) : Sane (withPages txid pages db) := by
  apply sane.delta
  intro t below
  exact if_neg (by omega)

theorem Synced.withPages (synced : Synced f db) (sane : Sane db) (fresh : headOf db < txid) :
    Synced f (withPages txid pages db) where
  fence := synced.fence
  head := synced.head
  size := synced.size
  newest := synced.newest
  logn := synced.logn
  window := by
    intro p page hit
    have same : Fdb.stored (Fdb.withPages txid pages db) f p = Fdb.stored db f p := by
      unfold Fdb.stored
      cases owner : db.pidx.get p with
      | none =>
          have none : (Fdb.withPages txid pages db).pidx.get p = none := owner
          rw [none]
          rfl
      | some t =>
          have below := (sane.owner owner).2.1
          have there : (Fdb.withPages txid pages db).pidx.get p = some t := owner
          have other : t ≠ txid := by omega
          rw [there]
          simp [Fdb.withPages, other]
    rw [same]
    exact synced.window p page hit
  sorted := synced.sorted

/-- All of the buffer is among these pages. -/
def Landed (f : FdbFile P) (pages : Table Nat P) : Prop :=
  ∀ {p page}, rowOf f.dirty p = some page → pages.get p = some page

theorem landed_whole (sorted : Sorted f.dirty) (old : Table Nat P) :
    Landed f (old.setAll ((f.dirty.drop 0).take (f.dirty.length - 0))) := by
  intro p page row
  rw [List.drop_zero, Nat.sub_zero, List.take_length, Table.get_setAll sorted.apart, find?_pair_congr, row]
  rfl

/-- What the head makes of pages that have landed. -/
theorem image_putHead_withPages (sane : Sane db) (sorted : Sorted f.dirty) (fresh : headOf db < txid)
    (landed : Landed f pages) (p : Nat) :
    image (putHead f txid (withPages txid pages db)) p = merged f db p := by
  have there : ∀ {p page}, rowOf f.dirty p = some page →
      ((withPages txid pages db).delta txid).get p = some page := by
    intro p page row
    simpa [withPages] using landed row
  have grown : headOf (withPages txid pages db) < txid := fresh
  rw [image_putHead (sane.withPages fresh) sorted grown there]
  unfold merged view
  rw [image_withPages sane fresh]
  have same : base (withPages txid pages db) p = base db p := rfl
  rw [same]

theorem Sane.putHead_withPages (sane : Sane db) (sorted : Sorted f.dirty) (fresh : headOf db < txid)
    (landed : Landed f pages) : Sane (Fdb.putHead f txid (Fdb.withPages txid pages db)) := by
  have there : ∀ {p page}, rowOf f.dirty p = some page →
      ((Fdb.withPages txid pages db).delta txid).get p = some page := by
    intro p page row
    simpa [Fdb.withPages] using landed row
  have grown : headOf (Fdb.withPages txid pages db) < txid := fresh
  exact (sane.withPages fresh).putHead sorted grown there

/-- The handle after a commit knows where its database stands. -/
theorem Synced.committed (synced : Synced f db) (sane : Sane db) (fresh : headOf db < txid) :
    Synced (Fdb.committed txid f) (putHead f txid (Fdb.withPages txid pages db)) where
  fence := synced.fence
  head := rfl
  size := rfl
  newest := by
    have newest : newestShard (putHead f txid (Fdb.withPages txid pages db)) = newestShard db :=
      newestShard_congr rfl sane.marker (Nat.le_of_lt fresh)
    rw [newest]
    exact synced.newest
  logn := rfl
  window := window_empty _ rfl
  sorted := List.Pairwise.nil

/-- That a fold is owed is not something that a read looks at. -/
theorem Synced.noticed (synced : Synced f db) :
    Synced (if shouldCompact f then { f with compactDue := true } else f) db := by
  split
  · exact ⟨synced.fence, synced.head, synced.size, synced.newest, synced.logn, synced.window, synced.sorted⟩
  · exact synced

theorem merged_clean (clean : f.dirty = []) (uncut : f.truncPages = none) (p : Nat) :
    merged f db p = image db p := by
  have kept : ¬ Dropped f p := by simp [Dropped, uncut]
  rw [merged, if_neg kept, view, clean]
  rfl

/-! ### The owner of a database -/

/-- The handle owns its database, and nothing that is still to come hides what it has done. -/
structure Owns (v : Vfs P) (h : Nat) : Prop where
  synced : Synced (v.files h) (v.store.dbs (v.files h).name)
  sane : Sane (v.store.dbs (v.files h).name)
  decided : Decided v.attempts
  shards : ShardsRead v.reads

/-- Nothing has changed but the rows of one database. -/
structure Elsewhere (name : DbName) (s s' : Store P) : Prop where
  dbs : ∀ n, n ≠ name → s'.dbs n = s.dbs n
  next : s'.next = s.next
  records : s'.records = s.records

theorem Elsewhere.refl (name : DbName) (s : Store P) : Elsewhere name s s := ⟨fun _ _ => rfl, rfl, rfl⟩

theorem Elsewhere.onDb (name : DbName) (s : Store P) (change : Db P → Db P) :
    Elsewhere name s (s.onDb name change) :=
  ⟨fun _ other => onDb_other other, rfl, rfl⟩

theorem Elsewhere.trans {name : DbName} {s s' s'' : Store P} (first : Elsewhere name s s')
    (second : Elsewhere name s' s'') : Elsewhere name s s'' where
  dbs := fun n other => (second.dbs n other).trans (first.dbs n other)
  next := second.next.trans first.next
  records := second.records.trans first.records

/-- What a handle's calls leave alone. -/
structure Aside (h : Nat) (v v' : Vfs P) : Prop where
  name : (v'.files h).name = (v.files h).name
  files : ∀ i, i ≠ h → v'.files i = v.files i
  group : v'.group = v.group
  store : Elsewhere (v.files h).name v.store v'.store

theorem Aside.trans {h : Nat} {v v' v'' : Vfs P} (first : Aside h v v') (second : Aside h v' v'') :
    Aside h v v'' where
  name := second.name.trans first.name
  files := fun i other => (second.files i other).trans (first.files i other)
  group := second.group.trans first.group
  store := first.store.trans (first.name ▸ second.store)

theorem Beside.aside {h : Nat} {v v' : Vfs P} (beside : Beside v v')
    (store : Elsewhere (v.files h).name v.store v'.store) : Aside h v v' where
  name := by rw [beside.files]
  files := fun i _ => by rw [beside.files]
  group := beside.group
  store := store

@[simp] theorem onFile_self (h : Nat) (change : FdbFile P → FdbFile P) (v : Vfs P) :
    (v.onFile h change).files h = change (v.files h) := if_pos rfl

theorem onFile_other {h i : Nat} (other : i ≠ h) (change : FdbFile P → FdbFile P) (v : Vfs P) :
    (v.onFile h change).files i = v.files i := if_neg other

/-- A change of the handle alone. -/
theorem aside_onFile {h : Nat} {change : FdbFile P → FdbFile P} {v : Vfs P}
    (name : (change (v.files h)).name = (v.files h).name) : Aside h v (v.onFile h change) where
  name := by rw [onFile_self, name]
  files := fun _ other => onFile_other other change v
  group := rfl
  store := Elsewhere.refl _ _

/-! ### Many transactions -/

theorem store_ext {s s' : Store P} (dbs : s.dbs = s'.dbs) (next : s.next = s'.next)
    (records : s.records = s'.records) : s = s' := by
  cases s
  cases s'
  cases dbs
  cases next
  cases records
  rfl

/-- A change is what it does to the rows that are there. -/
theorem onDb_congr {s : Store P} {name : DbName} {first second : Db P → Db P}
    (same : first (s.dbs name) = second (s.dbs name)) : s.onDb name first = s.onDb name second := by
  refine store_ext ?_ rfl rfl
  funext n
  by_cases here : n = name
  · rw [here, onDb_same, onDb_same, same]
  · rw [onDb_other here, onDb_other here]

/-- One change and then another are one. -/
theorem onDb_onDb_eq {s : Store P} {name : DbName} {first second both : Db P → Db P}
    (same : second (first (s.dbs name)) = both (s.dbs name)) :
    (s.onDb name first).onDb name second = s.onDb name both := by
  refine store_ext ?_ rfl rfl
  funext n
  by_cases here : n = name
  · rw [here, onDb_same, onDb_same, onDb_same, same]
  · rw [onDb_other here, onDb_other here, onDb_other here]

theorem onDb_none {s : Store P} {name : DbName} {change : Db P → Db P}
    (same : change (s.dbs name) = s.dbs name) : s.onDb name change = s := by
  refine store_ext ?_ rfl rfl
  funext n
  by_cases here : n = name
  · rw [here, onDb_same, same]
  · rw [onDb_other here]

theorem withPages_same (txid : Nat) (db : Db P) : withPages txid (db.delta txid) db = db := by
  have delta : (fun t => if t = txid then db.delta txid else db.delta t) = db.delta := by
    funext t
    split
    · rename_i here
      rw [here]
    · rfl
  unfold withPages
  rw [delta]

/-- Every index is in the stretch of one of the steps. -/
theorem mem_steps {step n i : Nat} (positive : 0 < step) (below : i < n) :
    ∃ lo ∈ steps step n, lo ≤ i ∧ i < lo + step := by
  refine ⟨i / step * step, ?_, Nat.div_mul_le_self i step, ?_⟩
  · apply List.mem_map.mpr
    refine ⟨i / step, List.mem_range.mpr ?_, rfl⟩
    rw [Nat.div_lt_iff_lt_mul positive]
    have most : n ≤ (n + step - 1) / step * step := by
      have split := Nat.div_add_mod (n + step - 1) step
      have small := Nat.mod_lt (n + step - 1) positive
      rw [Nat.mul_comm] at split
      omega
    omega
  · have split := Nat.div_add_mod i step
    have small := Nat.mod_lt i positive
    rw [Nat.mul_comm] at split
    omega

/-- The pages from one place in the buffer on. -/
def stretch (f : FdbFile P) (lo : Nat) : List (Nat × P) :=
  (f.dirty.drop lo).take (min (lo + stageTxnPages) f.dirty.length - lo)

theorem mem_stretch {f : FdbFile P} {lo i : Nat} {r : Nat × P} (there : f.dirty[i]? = some r)
    (above : lo ≤ i) (below : i < lo + stageTxnPages) : r ∈ stretch f lo := by
  obtain ⟨short, -⟩ := List.getElem?_eq_some_iff.mp there
  apply List.mem_of_getElem? (i := i - lo)
  unfold stretch
  rw [List.getElem?_take_of_lt (by omega), List.getElem?_drop]
  rwa [Nat.add_sub_cancel' above]

theorem stretch_sublist (f : FdbFile P) (lo : Nat) : (stretch f lo).Sublist f.dirty :=
  (List.take_sublist _ _).trans (List.drop_sublist _ _)

/-- What has landed of the buffer while the steps `rest` are still to come. -/
def LandedBut (f : FdbFile P) (rest : List Nat) (pages : Table Nat P) : Prop :=
  ∀ {i r}, f.dirty[i]? = some r →
    pages.get r.1 = some r.2 ∨ ∃ lo ∈ rest, lo ≤ i ∧ i < lo + stageTxnPages

theorem landedBut_start (f : FdbFile P) (pages : Table Nat P) :
    LandedBut f (steps stageTxnPages f.dirty.length) pages := by
  intro i r there
  obtain ⟨short, -⟩ := List.getElem?_eq_some_iff.mp there
  exact Or.inr (mem_steps (by decide) short)

theorem LandedBut.step {f : FdbFile P} {lo : Nat} {rest : List Nat} {pages : Table Nat P}
    (sorted : Sorted f.dirty) (landed : LandedBut f (lo :: rest) pages) :
    LandedBut f rest (pages.setAll (stretch f lo)) := by
  have slice : Sorted (stretch f lo) := List.Pairwise.sublist (stretch_sublist f lo) sorted
  have value : ∀ p, (pages.setAll (stretch f lo)).get p = (rowOf (stretch f lo) p).or (pages.get p) := by
    intro p
    rw [Table.get_setAll slice.apart, find?_pair_congr]
  have newer : ∀ {r}, r ∈ stretch f lo → (pages.setAll (stretch f lo)).get r.1 = some r.2 := by
    intro r mem
    rw [value, slice.rowOf_eq_some.mpr mem]
    rfl
  intro i r there
  rcases landed there with early | ⟨lo', mem, above, below⟩
  · left
    cases row : rowOf (stretch f lo) r.1 with
    | none =>
        rw [value, row]
        exact early
    | some page =>
        have here : (r.1, page) ∈ f.dirty := (stretch_sublist f lo).subset (slice.rowOf_eq_some.mp row)
        have mine : (r.1, r.2) ∈ f.dirty := List.mem_of_getElem? there
        have same := (sorted.rowOf_eq_some.mpr here).symm.trans (sorted.rowOf_eq_some.mpr mine)
        rw [value, row]
        exact same
  · rcases List.mem_cons.mp mem with rfl | later
    · exact Or.inl (newer (mem_stretch there above below))
    · exact Or.inr ⟨lo', later, above, below⟩

theorem LandedBut.landed {f : FdbFile P} {pages : Table Nat P} (sorted : Sorted f.dirty)
    (all : LandedBut f [] pages) : Landed f pages := by
  intro p page row
  obtain ⟨i, there⟩ := List.getElem?_of_mem (sorted.rowOf_eq_some.mp row)
  rcases all there with done | ⟨_, mem, _⟩
  · exact done
  · cases mem

/-- The pages of a commit that is too large for one transaction. -/
theorem ends_stage {v : Vfs P} {f : FdbFile P} {txid : Nat} (decided : Decided v.attempts)
    (own : (v.store.dbs f.name).fence = some f.fence) (sorted : Sorted f.dirty) :
    Ends (Action.forEach (steps stageTxnPages f.dirty.length) fun lo =>
        runTxn .ioerrWrite (deltaBody f txid lo (min (lo + stageTxnPages) f.dirty.length)))
      (fun _ v' => Beside v v' ∧ ∃ pages, Landed f pages ∧
        v'.store = v.store.onDb f.name (withPages txid pages))
      (fun v' => Beside v v' ∧ ∃ pages, v'.store = v.store.onDb f.name (withPages txid pages))
      (fun v' => Beside v v' ∧ ∃ pages, v'.store = v.store.onDb f.name (withPages txid pages)) v := by
  let I : List Nat → Vfs P → Prop := fun rest v' => Beside v v' ∧ ∃ pages, LandedBut f rest pages ∧
    v'.store = v.store.onDb f.name (withPages txid pages)
  have start : I (steps stageTxnPages f.dirty.length) v := by
    refine ⟨⟨rfl, rfl, rfl, decided⟩, (v.store.dbs f.name).delta txid, landedBut_start f _, ?_⟩
    exact (onDb_none (withPages_same txid _)).symm
  have step : ∀ lo rest v', I (lo :: rest) v' →
      Ends (runTxn .ioerrWrite (deltaBody f txid lo (min (lo + stageTxnPages) f.dirty.length)))
        (fun _ => I rest)
        (fun v' => Beside v v' ∧ ∃ pages, v'.store = v.store.onDb f.name (withPages txid pages))
        (fun v' => Beside v v' ∧ ∃ pages, v'.store = v.store.onDb f.name (withPages txid pages)) v' := by
    rintro lo rest v' ⟨beside, pages, landed, store⟩
    have mine : (v'.store.dbs f.name).fence = some f.fence := by
      rw [store, onDb_same]
      exact own
    have next : v'.store.onDb f.name (putDeltaPages f txid lo (min (lo + stageTxnPages) f.dirty.length)) =
        v.store.onDb f.name (withPages txid (pages.setAll (stretch f lo))) := by
      rw [store]
      apply onDb_onDb_eq
      exact putDeltaPages_withPages f txid lo _ pages _
    apply (ends_fenced beside.decided mine rfl (putDeltaPages_twice sorted txid lo _ _)).mono
    · rintro _ v'' ⟨beside', store'⟩
      refine ⟨beside.trans beside', _, landed.step sorted, ?_⟩
      rw [store', next]
    · rintro v'' ⟨beside', store'⟩
      refine ⟨beside.trans beside', pages, ?_⟩
      rw [store', store]
    · rintro v'' ⟨beside', same | landed'⟩
      · exact ⟨beside.trans beside', pages, same.trans store⟩
      · exact ⟨beside.trans beside', _, landed'.trans next⟩
  apply (Ends.forEach start step).mono _ (fun _ h => h) fun _ h => h
  rintro _ v' ⟨beside, pages, landed, store⟩
  exact ⟨beside, pages, landed.landed sorted, store⟩

/-! ### The commit -/

/-- What a commit leaves of a handle: the file with nothing in its buffer. -/
structure Flushed (f g : FdbFile P) : Prop where
  name : g.name = f.name
  fence : g.fence = f.fence
  size : g.size = f.size
  sent : g.sentSize = f.size
  clean : g.dirty = []
  uncut : g.truncPages = none
  alone : g.groupTxnid = f.groupTxnid

/-- The file that the rows hold, with its size. -/
structure Holds (db : Db P) (pages : Nat → Option P) (size : Nat) : Prop where
  pages : ∀ p, image db p = pages p
  size : db.size.getD 0 = size

theorem Owns.kept {v v' : Vfs P} {h : Nat} {db' : Db P} (owns : Owns v h) (beside : Beside v v')
    (rows : v'.store.dbs (v.files h).name = db') (synced : Synced (v.files h) db') (sane : Sane db') :
    Owns v' h where
  synced := by
    rw [beside.files, rows]
    exact synced
  sane := by
    rw [beside.files, rows]
    exact sane
  decided := beside.decided
  shards := by
    rw [beside.reads]
    exact owns.shards

section Flush

variable {v : Vfs P} {h : Nat} (owns : Owns v h)

/-- The rows before a commit, and those after it. -/
def Before (v v' : Vfs P) (h : Nat) : Prop :=
  Holds (v'.store.dbs (v.files h).name) (image (v.store.dbs (v.files h).name)) (v.files h).sentSize

def After (v v' : Vfs P) (h : Nat) : Prop :=
  Holds (v'.store.dbs (v.files h).name) (merged (v.files h) (v.store.dbs (v.files h).name)) (v.files h).size

include owns in
/-- The transactions of a commit. -/
theorem ends_sendCommit (txid : Nat) :
    Ends (sendCommit (v.files h) txid)
      (fun _ v' => Beside v v' ∧ ∃ pages, Landed (v.files h) pages ∧
        v'.store = v.store.onDb (v.files h).name fun db => putHead (v.files h) txid (withPages txid pages db))
      (fun v' => Beside v v' ∧ ∃ pages, v'.store = v.store.onDb (v.files h).name (withPages txid pages))
      (fun v' => Beside v v' ∧
        ((∃ pages, v'.store = v.store.onDb (v.files h).name (withPages txid pages)) ∨
          ∃ pages, Landed (v.files h) pages ∧
            v'.store = v.store.onDb (v.files h).name fun db =>
              putHead (v.files h) txid (withPages txid pages db))) v := by
  have own := owns.synced.fence
  have sorted := owns.synced.sorted
  have unchanged : v.store = v.store.onDb (v.files h).name
      (withPages txid ((v.store.dbs (v.files h).name).delta txid)) :=
    (onDb_none (withPages_same txid _)).symm
  apply Ends.ite
  · intro _
    have whole : v.store.onDb (v.files h).name (commitRows (v.files h) txid) =
        v.store.onDb (v.files h).name fun db => putHead (v.files h) txid (withPages txid
          (((v.store.dbs (v.files h).name).delta txid).setAll
            (((v.files h).dirty.drop 0).take ((v.files h).dirty.length - 0))) db) := by
      apply onDb_congr
      unfold commitRows
      rw [putDeltaPages_eq]
    apply (ends_fenced owns.decided own rfl (commitRows_twice sorted txid _)).mono
    · rintro _ v' ⟨beside, store⟩
      exact ⟨beside, _, landed_whole sorted _, store.trans whole⟩
    · rintro v' ⟨beside, store⟩
      exact ⟨beside, _, store.trans unchanged⟩
    · rintro v' ⟨beside, same | landed⟩
      · exact ⟨beside, Or.inl ⟨_, same.trans unchanged⟩⟩
      · exact ⟨beside, Or.inr ⟨_, landed_whole sorted _, landed.trans whole⟩⟩
  · intro _
    apply (ends_stage owns.decided own sorted).andThen _ (fun _ h => h) fun _ h => ⟨h.1, Or.inl h.2⟩
    rintro _ v₁ ⟨beside, pages, landed, store⟩
    have mine : (v₁.store.dbs (v.files h).name).fence = some (v.files h).fence := by
      rw [store, onDb_same]
      exact own
    have both : v₁.store.onDb (v.files h).name (putHead (v.files h) txid) =
        v.store.onDb (v.files h).name fun db => putHead (v.files h) txid (withPages txid pages db) := by
      rw [store]
      exact onDb_onDb_eq rfl
    apply (ends_fenced beside.decided mine rfl (putHead_twice sorted txid _)).mono
    · rintro _ v' ⟨beside', store'⟩
      exact ⟨beside.trans beside', pages, landed, store'.trans both⟩
    · rintro v' ⟨beside', store'⟩
      exact ⟨beside.trans beside', pages, store'.trans store⟩
    · rintro v' ⟨beside', same | landed'⟩
      · exact ⟨beside.trans beside', Or.inl ⟨pages, same.trans store⟩⟩
      · exact ⟨beside.trans beside', Or.inr ⟨pages, landed, landed'.trans both⟩⟩

/-- What a process that stops in a commit leaves: the rows before it or after it, and nothing else touched. -/
structure Torn (v v' : Vfs P) (h : Nat) : Prop where
  aside : Aside h v v'
  decided : Decided v'.attempts
  shards : ShardsRead v'.reads
  sane : Sane (v'.store.dbs (v.files h).name)
  fence : (v'.store.dbs (v.files h).name).fence = (v.store.dbs (v.files h).name).fence
  either : Before v v' h ∨ After v v' h

include owns in
/-- A sync of a file that is in no group sends its buffer, or fails with the file as it was, or stops with one of
the two in the store. -/
theorem ends_flush (alone : (v.files h).groupTxnid = 0) :
    Ends (flush h)
      (fun _ v' => Aside h v v' ∧ Owns v' h ∧ Flushed (v.files h) (v'.files h) ∧ After v v' h)
      (fun v' => Aside h v v' ∧ Owns v' h ∧ v'.files h = v.files h ∧ Before v v' h)
      (fun v' => Torn v v' h) v := by
  have fresh : headOf (v.store.dbs (v.files h).name) < (v.files h).head + 1 := by
    rw [owns.synced.head]
    exact Nat.lt_succ_self _
  have sorted := owns.synced.sorted
  have before : ∀ {v' : Vfs P} {pages}, v'.store = v.store.onDb (v.files h).name
      (withPages ((v.files h).head + 1) pages) → Before v v' h := by
    intro v' pages store
    unfold Before
    rw [store, onDb_same]
    exact ⟨image_withPages owns.sane fresh, owns.synced.size⟩
  have after : ∀ {v' : Vfs P} {pages}, Landed (v.files h) pages → v'.store = v.store.onDb (v.files h).name
      (fun db => putHead (v.files h) ((v.files h).head + 1) (withPages ((v.files h).head + 1) pages db)) →
      After v v' h := by
    intro v' pages landed store
    unfold After
    rw [store, onDb_same]
    exact ⟨image_putHead_withPages owns.sane sorted fresh landed, rfl⟩
  unfold flush
  apply Ends.bind
  apply Ends.ite
  · rintro ⟨empty, uncut, sent⟩
    have clean : (v.files h).dirty = [] := List.length_eq_zero_iff.mp empty
    refine ⟨⟨rfl, fun _ _ => rfl, rfl, Elsewhere.refl _ _⟩, owns, ⟨rfl, rfl, rfl, sent.symm, clean, uncut, rfl⟩,
      ?_, ?_⟩
    · exact fun p => (merged_clean clean uncut p).symm
    · rw [sent]
      exact owns.synced.size
  · intro _
    apply Ends.ite
    · exact fun group => absurd alone group
    · intro _
      apply (ends_sendCommit owns _).andThen
      · rintro _ v₁ ⟨beside, pages, landed, store⟩
        have rows : v₁.store.dbs (v.files h).name = putHead (v.files h) ((v.files h).head + 1)
            (withPages ((v.files h).head + 1) pages (v.store.dbs (v.files h).name)) := by
          rw [store, onDb_same]
        let notice : FdbFile P → FdbFile P := fun f =>
          let f := committed ((v.files h).head + 1) f
          if shouldCompact f then { f with compactDue := true } else f
        have file : (v₁.onFile h notice).files h = notice (v.files h) := by rw [onFile_self, beside.files]
        have flushed : Flushed (v.files h) (notice (v.files h)) := by
          change Flushed _ (if _ then _ else _)
          split <;> exact ⟨rfl, rfl, rfl, rfl, rfl, rfl, rfl⟩
        have synced : Synced (notice (v.files h)) (v₁.store.dbs (v.files h).name) := by
          rw [rows]
          exact (owns.synced.committed owns.sane fresh).noticed
        have sane : Sane (v₁.store.dbs (v.files h).name) := by
          rw [rows]
          exact owns.sane.putHead_withPages sorted fresh landed
        have outside : Aside h v v₁ := by
          apply beside.aside
          rw [store]
          exact Elsewhere.onDb _ _ _
        have name : (notice (v₁.files h)).name = (v₁.files h).name := by
          rw [beside.files]
          exact flushed.name
        change Aside h v (v₁.onFile h notice) ∧ Owns (v₁.onFile h notice) h ∧
          Flushed (v.files h) ((v₁.onFile h notice).files h) ∧ After v (v₁.onFile h notice) h
        rw [file]
        refine ⟨outside.trans (aside_onFile name), ?_, flushed, after landed store⟩
        constructor
        · rw [file, flushed.name]
          exact synced
        · rw [file, flushed.name]
          exact sane
        · exact beside.decided
        · change ShardsRead v₁.reads
          rw [beside.reads]
          exact owns.shards
      · rintro v₁ ⟨beside, pages, store⟩
        have rows : v₁.store.dbs (v.files h).name =
            withPages ((v.files h).head + 1) pages (v.store.dbs (v.files h).name) := by
          rw [store, onDb_same]
        refine ⟨beside.aside (h := h) ?_, ?_, ?_, before store⟩
        · rw [store]
          exact Elsewhere.onDb _ _ _
        · exact owns.kept beside rows (owns.synced.withPages owns.sane fresh) (owns.sane.withPages fresh)
        · rw [beside.files]
      · rintro v₁ ⟨beside, ⟨pages, store⟩ | ⟨pages, landed, store⟩⟩
        · refine ⟨beside.aside ?_, beside.decided, by rw [beside.reads]; exact owns.shards, ?_, ?_,
            Or.inl (before store)⟩
          · rw [store]
            exact Elsewhere.onDb _ _ _
          · rw [store, onDb_same]
            exact owns.sane.withPages fresh
          · rw [store, onDb_same]
            rfl
        · refine ⟨beside.aside ?_, beside.decided, by rw [beside.reads]; exact owns.shards, ?_, ?_,
            Or.inr (after landed store)⟩
          · rw [store]
            exact Elsewhere.onDb _ _ _
          · rw [store, onDb_same]
            exact owns.sane.putHead_withPages sorted fresh landed
          · rw [store, onDb_same]
            rfl

end Flush

end GyreWard.Fdb
