/-
Module: GyreWard.Proofs.FdbImage
Purpose: The file that the rows of a database hold, and what each write transaction of its owner makes of it.
Trusted boundary: none
Main exports: headOf, base, image, Sane, Synced, view, merged, image_delta, image_putHead, image_draft,
  image_finish, Sane.delta, Sane.putHead, Sane.draft_rows, Sane.finish, sane_new
-/
import GyreWard.Proofs.FdbReadAhead
import GyreWard.Proofs.FdbTxns

namespace GyreWard.Fdb

open Lib

variable {P α : Type}

/-- The newest commit. -/
def headOf (db : Db P) : Nat := db.head.getD 0

/-- What the newest shard holds of a page. -/
def base (db : Db P) (pgno : Nat) : Option P :=
  match newestShard db with
  | some newest => (db.shard newest.1).get pgno
  | none => none

/-- What a file that is opened now reads of a page. -/
def image (db : Db P) (pgno : Nat) : Option P :=
  match db.pidx.get pgno with
  | some owner => (db.delta owner).get pgno
  | none => base db pgno

/-- What holds of the rows of a database between any two transactions: an index row points at a page of a commit
that has landed, after every shard; there is nothing of a shard above the head, and what is there of a shard at
the head is what the file holds. -/
structure Sane (db : Db P) : Prop where
  owner : ∀ {p t}, db.pidx.get p = some t → 0 < t ∧ t ≤ headOf db ∧ ∃ page, (db.delta t).get p = some page
  marker : ∀ {v n}, db.shardn.get v = some n → v ≤ headOf db
  newer : ∀ {p t v n}, db.pidx.get p = some t → db.shardn.get v = some n → v < t
  above : ∀ {v p}, headOf db < v → (db.shard v).get p = none
  draft : ∀ {p page}, (db.shard (headOf db)).get p = some page → image db p = some page

/-- An open file that knows where its database stands. -/
structure Synced (f : FdbFile P) (db : Db P) : Prop where
  fence : db.fence = some f.fence
  head : headOf db = f.head
  size : db.size.getD 0 = f.sentSize
  newest : newestShard db = if f.hasShard then some (f.shardAsOf, f.basePages) else none
  logn : db.logn.getD 0 = f.logPages
  window : Window db f
  sorted : Sorted f.dirty

/-- What the open file reads of a page. -/
def view (f : FdbFile P) (db : Db P) (pgno : Nat) : Option P := (rowOf f.dirty pgno).or (image db pgno)

/-- Is the page past the truncate that has not been sent? -/
def Dropped (f : FdbFile P) (pgno : Nat) : Prop := ∃ n, f.truncPages = some n ∧ n ≤ pgno

instance (f : FdbFile P) (pgno : Nat) : Decidable (Dropped f pgno) :=
  decidable_of_iff (f.truncPages.any fun n => n ≤ pgno) (by
    cases trunc : f.truncPages <;> simp [Dropped, trunc])

/-- What a commit makes of the file: below a truncate what the open file reads, and past it what the newest shard
holds, whatever was written there. -/
def merged (f : FdbFile P) (db : Db P) (pgno : Nat) : Option P :=
  if Dropped f pgno then base db pgno else view f db pgno

variable {db : Db P} {f : FdbFile P}

/-- A handle that knows the newest shard reads the file. -/
theorem stored_eq_image (newest : newestShard db = if f.hasShard then some (f.shardAsOf, f.basePages) else none)
    (pgno : Nat) : stored db f pgno = image db pgno := by
  unfold stored image base
  rw [newest]
  cases db.pidx.get pgno with
  | some owner => rfl
  | none => cases f.hasShard <;> rfl

theorem Synced.stored (synced : Synced f db) (pgno : Nat) : stored db f pgno = image db pgno :=
  stored_eq_image synced.newest pgno

theorem Sane.owned (sane : Sane db) : Owned db := fun _ zero => Nat.lt_irrefl 0 (sane.owner zero).1

/-! ### The newest shard -/

/-- A marker is the newest one as soon as none is above it. -/
theorem newestShard_eq {v n : Nat} (there : db.shardn.get v = some n) (below : v ≤ headOf db)
    (largest : ∀ {j m}, db.shardn.get j = some m → j ≤ v) : newestShard db = some (v, n) := by
  apply Table.getLast?_range_eq there
  · exact decide_eq_true (Nat.lt_succ_of_le below)
  · exact fun j m found _ => largest found

/-- While every marker is below the head, the newest shard depends on the markers alone. -/
theorem newestShard_congr {db' : Db P} (same : db'.shardn = db.shardn)
    (marker : ∀ {v n}, db.shardn.get v = some n → v ≤ headOf db) (grown : headOf db ≤ headOf db') :
    newestShard db' = newestShard db := by
  unfold newestShard Table.range
  rw [same]
  congr 1
  apply List.filter_congr
  intro r mem
  have low := marker (Table.get_of_mem (k := r.1) (a := r.2) mem)
  have first : r.1 < db'.head.getD 0 + 1 := Nat.lt_succ_of_le (Nat.le_trans low grown)
  have second : r.1 < db.head.getD 0 + 1 := Nat.lt_succ_of_le low
  simp [first, second]

theorem newestShard_some {newest : Nat × Nat} (found : newestShard db = some newest) :
    db.shardn.get newest.1 = some newest.2 ∧ newest.1 ≤ headOf db := by
  obtain ⟨there, below, -⟩ := Table.getLast?_range (k := newest.1) (a := newest.2) found
  exact ⟨there, Nat.le_of_lt_succ (of_decide_eq_true below)⟩

/-! ### Pages above the head -/

/-- Nothing reads the pages of a commit above the head. -/
theorem image_delta {delta : Nat → Table Nat P} (sane : Sane db)
    (same : ∀ t, t ≤ headOf db → delta t = db.delta t) (pgno : Nat) :
    image { db with delta } pgno = image db pgno := by
  unfold image
  cases owner : db.pidx.get pgno with
  | some t => simp only [same t (sane.owner owner).2.1]
  | none => rfl

theorem Sane.delta {delta : Nat → Table Nat P} (sane : Sane db)
    (same : ∀ t, t ≤ headOf db → delta t = db.delta t) : Sane { db with delta } where
  owner := by
    intro p t found
    obtain ⟨positive, below, there⟩ := sane.owner found
    refine ⟨positive, below, ?_⟩
    simp only [same t below]
    exact there
  marker := sane.marker
  newer := sane.newer
  above := sane.above
  draft := by
    intro p page found
    rw [image_delta sane same]
    exact sane.draft found

/-! ### The head -/

/-- The index after a commit. -/
theorem pidx_putHead (sorted : Sorted f.dirty) (txid pgno : Nat) :
    (putHead f txid db).pidx.get pgno =
      if Dropped f pgno then none
      else ((rowOf f.dirty pgno).map fun _ => txid).or (db.pidx.get pgno) := by
  have apart : (f.dirty.map fun page => (page.1, txid)).Pairwise fun a b => a.1 ≠ b.1 :=
    List.pairwise_map.mpr sorted.apart
  have rows : (db.pidx.setAll (f.dirty.map fun page => (page.1, txid))).get pgno =
      ((rowOf f.dirty pgno).map fun _ => txid).or (db.pidx.get pgno) := by
    rw [Table.get_setAll apart, List.find?_map, rowOf, Option.map_map, Option.map_map]
    rfl
  unfold putHead
  cases trunc : f.truncPages with
  | none =>
      have kept : ¬ Dropped f pgno := by simp [Dropped, trunc]
      rw [if_neg kept]
      exact rows
  | some n =>
      have past : Dropped f pgno ↔ n ≤ pgno := by simp [Dropped, trunc]
      simp only [Table.get_clear, rows, past, decide_eq_true_eq]

theorem headOf_putHead (txid : Nat) : headOf (putHead f txid db) = txid := rfl

section Head

variable {txid : Nat} (sane : Sane db) (sorted : Sorted f.dirty) (fresh : headOf db < txid)
  (landed : ∀ {p page}, rowOf f.dirty p = some page → (db.delta txid).get p = some page)

include sane fresh in
theorem base_putHead (pgno : Nat) : base (putHead f txid db) pgno = base db pgno := by
  unfold base
  have newest : newestShard (putHead f txid db) = newestShard db :=
    newestShard_congr rfl sane.marker (Nat.le_of_lt fresh)
  rw [newest]
  rfl

include sane sorted fresh landed in
/-- A commit whose pages are all there shows them, below a truncate. -/
theorem image_putHead (pgno : Nat) : image (putHead f txid db) pgno = merged f db pgno := by
  unfold image
  rw [pidx_putHead sorted, base_putHead sane fresh]
  unfold merged view
  by_cases dropped : Dropped f pgno
  · rw [if_pos dropped, if_pos dropped]
  · rw [if_neg dropped, if_neg dropped]
    cases row : rowOf f.dirty pgno with
    | some page => exact landed row
    | none => rfl

include sane sorted fresh landed in
theorem Sane.putHead : Sane (putHead f txid db) where
  owner := by
    intro p t found
    rw [pidx_putHead sorted] at found
    split at found
    · cases found
    · cases row : rowOf f.dirty p with
      | some page =>
          rw [row] at found
          cases found
          exact ⟨Nat.zero_lt_of_lt fresh, Nat.le_refl _, page, landed row⟩
      | none =>
          rw [row] at found
          obtain ⟨positive, below, there⟩ := sane.owner found
          exact ⟨positive, Nat.le_of_lt (Nat.lt_of_le_of_lt below fresh), there⟩
  marker := fun found => Nat.le_of_lt (Nat.lt_of_le_of_lt (sane.marker found) fresh)
  newer := by
    intro p t v n found marked
    rw [pidx_putHead sorted] at found
    split at found
    · cases found
    · cases row : rowOf f.dirty p with
      | some page =>
          rw [row] at found
          cases found
          exact Nat.lt_of_le_of_lt (sane.marker marked) fresh
      | none =>
          rw [row] at found
          exact sane.newer found marked
  above := fun later => sane.above (Nat.lt_trans fresh later)
  draft := by
    intro p page found
    have none := sane.above (p := p) fresh
    rw [headOf_putHead] at found
    rw [show (Fdb.putHead f txid db).shard txid = db.shard txid from rfl, none] at found
    cases found

end Head

/-! ### The fold -/

/-- The rows of a shard that is being written. -/
def withShard (asOf : Nat) (pages : List (Nat × P)) (db : Db P) : Db P :=
  { db with shard := fun v => if v = asOf then (db.shard v).setAll pages else db.shard v }

section Fold

variable {pages : List (Nat × P)} (sane : Sane db) (apart : pages.Pairwise fun a b => a.1 ≠ b.1)
  (drawn : ∀ r ∈ pages, image db r.1 = some r.2)

include apart in
theorem shard_withShard (asOf v p : Nat) :
    ((withShard asOf pages db).shard v).get p =
      if v = asOf then (rowOf pages p).or ((db.shard v).get p) else (db.shard v).get p := by
  unfold withShard
  dsimp only
  split
  · rw [Table.get_setAll apart]
    rfl
  · rfl

theorem mem_of_rowOf {rows : List (Nat × α)} {p : Nat} {a : α} (found : rowOf rows p = some a) :
    (p, a) ∈ rows := by
  obtain ⟨r, here, value⟩ := Option.map_eq_some_iff.mp found
  have key := List.find?_some here
  rw [← of_decide_eq_true key, ← value]
  exact List.mem_of_find?_eq_some here

include apart drawn in
/-- Writing what the file holds to the shard at the head changes nothing that is read. -/
theorem image_draft (p : Nat) : image (withShard (headOf db) pages db) p = image db p := by
  unfold image
  cases owner : db.pidx.get p with
  | some t =>
      have same : (withShard (headOf db) pages db).pidx.get p = some t := owner
      rw [same]
      rfl
  | none =>
      have same : (withShard (headOf db) pages db).pidx.get p = none := owner
      rw [same]
      dsimp only
      unfold base
      have newest : newestShard (withShard (headOf db) pages db) = newestShard db := rfl
      rw [newest]
      cases found : newestShard db with
      | none => rfl
      | some newest =>
          dsimp only
          rw [shard_withShard apart]
          split
          · cases row : rowOf pages p with
            | none => rfl
            | some page =>
                have held := drawn _ (mem_of_rowOf row)
                unfold image base at held
                rw [owner, found] at held
                exact held.symm
          · rfl

include sane apart drawn in
theorem Sane.draft_rows : Sane (withShard (headOf db) pages db) where
  owner := sane.owner
  marker := sane.marker
  newer := sane.newer
  above := by
    intro v p later
    have head : headOf (withShard (headOf db) pages db) = headOf db := rfl
    rw [head] at later
    rw [shard_withShard apart, if_neg (Nat.ne_of_gt later)]
    exact sane.above later
  draft := by
    intro p page found
    have head : headOf (withShard (headOf db) pages db) = headOf db := rfl
    rw [head, shard_withShard apart, if_pos rfl] at found
    rw [image_draft apart drawn]
    cases row : rowOf pages p with
    | none =>
        rw [row] at found
        exact sane.draft found
    | some page' =>
        rw [row] at found
        cases found
        exact drawn _ (mem_of_rowOf row)

end Fold

section Finish

variable {kept : Nat} (sane : Sane db)

include sane in
theorem newestShard_finish : newestShard (finish (headOf db) kept db) = some (headOf db, kept) := by
  have head : headOf (finish (headOf db) kept db) = headOf db := rfl
  have markers : ∀ j, (finish (headOf db) kept db).shardn.get j =
      if j < headOf db then none else if j = headOf db then some kept else db.shardn.get j := by
    intro j
    unfold finish
    simp only [Table.get_clear, Table.get_set, decide_eq_true_eq]
  apply newestShard_eq
  · rw [markers, if_neg (Nat.lt_irrefl _), if_pos rfl]
  · rw [head]
  · intro j m found
    rw [markers] at found
    split at found
    · cases found
    · split at found
      · exact Nat.le_of_eq ‹_›
      · exact sane.marker found

include sane in
/-- After the fold every page comes from the shard at the head. -/
theorem image_finish (p : Nat) : image (finish (headOf db) kept db) p = (db.shard (headOf db)).get p := by
  unfold image base
  rw [newestShard_finish sane]
  simp [finish]

include sane in
theorem Sane.finish : Sane (finish (headOf db) kept db) where
  owner := by
    intro p t found
    simp [Fdb.finish] at found
  marker := by
    intro v n found
    simp only [Fdb.finish, Table.get_clear, Table.get_set, decide_eq_true_eq] at found
    split at found
    · cases found
    · split at found
      · exact Nat.le_of_eq ‹_›
      · exact sane.marker found
  newer := by
    intro p t v n found
    simp [Fdb.finish] at found
  above := by
    intro v p later
    have head : headOf (Fdb.finish (headOf db) kept db) = headOf db := rfl
    rw [head] at later
    have kept : ¬ v < headOf db := by omega
    simp only [Fdb.finish, if_neg kept]
    exact sane.above later
  draft := by
    intro p page found
    rw [image_finish sane]
    simpa [Fdb.finish, headOf] using found

end Finish

/-! ### Opening -/

theorem image_dropUnfinishedCommit (sane : Sane db) (fence : Option Nat) (p : Nat) :
    image { dropUnfinishedCommit db with fence } p = image db p := by
  apply image_delta sane
  intro t below
  unfold headOf at below
  exact if_neg (by omega)

theorem Sane.opened (sane : Sane db) (fence : Option Nat) : Sane { dropUnfinishedCommit db with fence } := by
  have dropped : Sane (dropUnfinishedCommit db) := by
    apply sane.delta
    intro t below
    unfold headOf at below
    exact if_neg (by omega)
  exact ⟨dropped.owner, dropped.marker, dropped.newer, dropped.above, dropped.draft⟩

/-- A database that nobody has written to. -/
theorem sane_new : Sane ({} : Db P) := by
  constructor <;> intros <;> simp_all

/-- The file that opening gives knows where its database stands. -/
theorem synced_open {name : DbName} {s s' : Store P} {g : FdbFile P}
    (opened : openBody name s = .ok (g, s')) : Synced g (s'.dbs name) ∧ g.name = name := by
  unfold openBody at opened
  simp only [Except.ok.injEq, Prod.mk.injEq] at opened
  obtain ⟨rfl, rfl⟩ := opened
  refine ⟨?_, rfl⟩
  rw [onDb_same]
  constructor
  · rfl
  · rfl
  · rfl
  · have newest : newestShard { dropUnfinishedCommit (s.dbs name) with
        fence := some (raisedFence (s.dbs name)) } = newestShard (s.dbs name) := rfl
    rw [newest]
    cases found : newestShard (s.dbs name) with
    | none => rfl
    | some marker =>
        have there := (newestShard_some found).1
        simp [there]
  · rfl
  · exact window_empty _ rfl
  · exact List.Pairwise.nil

end GyreWard.Fdb
