/-
Module: GyreWard.Proofs.FdbFold
Purpose: Folding the log into a new shard changes no page that the file has, wherever it stops.
Trusted boundary: none
Main exports: Unfolded, ends_foldWindows, ends_compact, ends_weftCompactDue, ends_fdbClose
-/
import GyreWard.Proofs.FdbCommit

namespace GyreWard.Fdb

open Lib
open Lib.Action (Ends)

variable {P α : Type}

/-! ### A file whose window has moved -/

section Still

variable {f g : FdbFile P} {db : Db P}

/-- What read-ahead does not keep has not moved. -/
theorem field_of_still {β : Type} (field : FdbFile P → β) (kept : ∀ f, field f.still = field f)
    (still : g.still = f.still) : field g = field f := by
  rw [← kept g, still, kept]

theorem Synced.of_still (synced : Synced f db) (still : g.still = f.still) (window : Window db g) :
    Synced g db where
  fence := by rw [field_of_still FdbFile.fence (fun _ => rfl) still, synced.fence]
  head := by rw [field_of_still FdbFile.head (fun _ => rfl) still, synced.head]
  size := by rw [field_of_still FdbFile.sentSize (fun _ => rfl) still, synced.size]
  newest := by
    rw [field_of_still FdbFile.hasShard (fun _ => rfl) still,
      field_of_still FdbFile.shardAsOf (fun _ => rfl) still,
      field_of_still FdbFile.basePages (fun _ => rfl) still, synced.newest]
  logn := by rw [field_of_still FdbFile.logPages (fun _ => rfl) still, synced.logn]
  window := window
  sorted := by
    rw [field_of_still FdbFile.dirty (fun _ => rfl) still]
    exact synced.sorted

end Still

/-! ### Reading a stretch of pages -/

/-- The owner reads pages: nothing moves but the window. -/
theorem ends_runRead {v : Vfs P} {h : Nat} {code : Code} {body : Store P → Action (Reading P) α} {Q : α → Prop}
    (owns : Owns v h)
    (spec : ∀ r, Reads (v.store.dbs (v.files h).name) (v.files h) r →
      Ends (body v.store) (fun a r' => Q a ∧ Reads (v.store.dbs (v.files h).name) (v.files h) r')
        (Reads (v.store.dbs (v.files h).name) (v.files h)) (fun _ => False) r) :
    Ends (runRead h code body)
      (fun a v' => Q a ∧ Aside h v v' ∧ Owns v' h ∧ (v'.files h).still = (v.files h).still ∧
        v'.store = v.store)
      (fun v' => Aside h v v' ∧ Owns v' h ∧ (v'.files h).still = (v.files h).still ∧ v'.store = v.store)
      (fun _ => False) v := by
  have after : ∀ {g : FdbFile P} {rest : List ReadAttempt}, g.still = (v.files h).still →
      Window (v.store.dbs (v.files h).name) g → ShardsRead rest →
      Aside h v { v with reads := rest, files := fun i => if i = h then g else v.files i, rc := code } ∧
        Owns { v with reads := rest, files := fun i => if i = h then g else v.files i, rc := code } h ∧
        ((if h = h then g else v.files h).still = (v.files h).still) ∧ v.store = v.store := by
    intro g rest still window shards
    have name : g.name = (v.files h).name := field_of_still FdbFile.name (fun _ => rfl) still
    refine ⟨⟨?_, fun i other => if_neg other, rfl, Elsewhere.refl _ _⟩, ?_, ?_, rfl⟩
    · dsimp only
      rw [if_pos rfl, name]
    · constructor
      · dsimp only
        rw [if_pos rfl, name]
        exact owns.synced.of_still still window
      · dsimp only
        rw [if_pos rfl, name]
        exact owns.sane
      · exact owns.decided
      · exact shards
    · rw [if_pos rfl, still]
  apply (runRead_reads owns.synced.window owns.shards spec).mono
  · rintro a _ ⟨holds, g, rest, rfl, still, window, shards⟩
    exact ⟨holds, after still window shards⟩
  · rintro _ ⟨g, rest, rfl, still, window, shards⟩
    exact after still window shards
  · exact fun _ h => h

/-- The pages of a stretch that are there. -/
theorem rowOf_pagesAt {f : FdbFile P} {db : Db P} (synced : Synced f db) {pgnos : List Nat} (p : Nat) :
    rowOf (pagesAt db f pgnos) p = if p ∈ pgnos then image db p else none := by
  induction pgnos with
  | nil => rfl
  | cons q rest ih =>
      have cons : pagesAt db f (q :: rest) = ((image db q).map fun page => (q, page)).toList ++
          pagesAt db f rest := by
        unfold pagesAt
        rw [List.filterMap_cons, synced.stored]
        cases image db q <;> rfl
      rw [cons]
      cases there : image db q with
      | none =>
          by_cases here : p = q
          · subst here
            simp [there, ih]
          · simp [ih, here]
      | some page =>
          by_cases here : p = q
          · subst here
            simp [rowOf, there]
          · have other : ¬ q = p := fun same => here same.symm
            simp only [rowOf, Option.map_some, Option.toList_some, List.singleton_append]
            rw [List.find?_cons_of_neg (by simpa using other)]
            change rowOf (pagesAt db f rest) p = _
            simp [ih, here]

theorem pagesAt_apart {f : FdbFile P} {db : Db P} {pgnos : List Nat} (once : pgnos.Nodup) :
    (pagesAt db f pgnos).Pairwise fun a b => a.1 ≠ b.1 := by
  apply List.Pairwise.filterMap _ _ once
  intro a b other r left r' right
  obtain ⟨_, _, rfl⟩ := Option.map_eq_some_iff.mp left
  obtain ⟨_, _, rfl⟩ := Option.map_eq_some_iff.mp right
  exact other

theorem mem_pagesAt {f : FdbFile P} {db : Db P} (synced : Synced f db) {pgnos : List Nat} {r : Nat × P}
    (mem : r ∈ pagesAt db f pgnos) : image db r.1 = some r.2 := by
  obtain ⟨p, -, value⟩ := List.mem_filterMap.mp mem
  obtain ⟨page, there, rfl⟩ := Option.map_eq_some_iff.mp value
  rw [← synced.stored]
  exact there

/-! ### What a fold may do to the rows -/

/-- The pages below a number are what they were, nothing is there that was not, and the rest of the rows
stand. -/
structure Refolded (db db' : Db P) (npages : Nat) : Prop where
  sane : Sane db'
  fence : db'.fence = db.fence
  size : db'.size = db.size
  head : headOf db' = headOf db
  kept : ∀ {p}, p < npages → image db' p = image db p
  less : ∀ {p page}, image db' p = some page → image db p = some page

theorem Refolded.refl {db : Db P} (sane : Sane db) (npages : Nat) : Refolded db db npages :=
  ⟨sane, rfl, rfl, rfl, fun _ => rfl, fun there => there⟩

/-- What a fold leaves of the handle. -/
structure Buffered (f g : FdbFile P) : Prop where
  name : g.name = f.name
  fence : g.fence = f.fence
  head : g.head = f.head
  size : g.size = f.size
  sent : g.sentSize = f.sentSize
  dirty : g.dirty = f.dirty
  cut : g.truncPages = f.truncPages
  group : g.groupTxnid = f.groupTxnid

theorem buffered_of_still {f g : FdbFile P} (still : g.still = f.still) : Buffered f g where
  name := field_of_still FdbFile.name (fun _ => rfl) still
  fence := field_of_still FdbFile.fence (fun _ => rfl) still
  head := field_of_still FdbFile.head (fun _ => rfl) still
  size := field_of_still FdbFile.size (fun _ => rfl) still
  sent := field_of_still FdbFile.sentSize (fun _ => rfl) still
  dirty := field_of_still FdbFile.dirty (fun _ => rfl) still
  cut := field_of_still FdbFile.truncPages (fun _ => rfl) still
  group := field_of_still FdbFile.groupTxnid (fun _ => rfl) still

section Draft

variable {f : FdbFile P} {db : Db P} {pages : List (Nat × P)} (apart : pages.Pairwise fun a b => a.1 ≠ b.1)
  (drawn : ∀ r ∈ pages, image db r.1 = some r.2)

include apart drawn in
theorem Synced.withShard (synced : Synced f db) : Synced f (withShard (headOf db) pages db) where
  fence := synced.fence
  head := synced.head
  size := synced.size
  newest := synced.newest
  logn := synced.logn
  window := by
    intro p page hit
    have newest : newestShard (Fdb.withShard (headOf db) pages db) =
        if f.hasShard then some (f.shardAsOf, f.basePages) else none := synced.newest
    rw [stored_eq_image newest, image_draft apart drawn, ← synced.stored]
    exact synced.window p page hit
  sorted := synced.sorted

include apart in
theorem withShard_twice (asOf : Nat) : withShard asOf pages (withShard asOf pages db) = withShard asOf pages db := by
  unfold withShard
  congr 1
  funext v
  by_cases here : v = asOf
  · simp only [here, if_true]
    exact Table.setAll_setAll apart _
  · simp only [here, if_false]

end Draft

/-! ### The windows -/

/-- The pages of a window. -/
def windowPages (lo window npages : Nat) : List Nat :=
  (List.range (min (lo + window) npages - lo)).map (lo + ·)

theorem mem_windowPages {lo window npages p : Nat} :
    p ∈ windowPages lo window npages ↔ lo ≤ p ∧ p < lo + window ∧ p < npages := by
  unfold windowPages
  rw [List.mem_map]
  constructor
  · rintro ⟨i, mem, rfl⟩
    have below := List.mem_range.mp mem
    omega
  · rintro ⟨above, below, short⟩
    refine ⟨p - lo, List.mem_range.mpr ?_, ?_⟩ <;> omega

theorem windowPages_nodup (lo window npages : Nat) : (windowPages lo window npages).Nodup :=
  List.Nodup.map (fun _ _ same => Nat.add_left_cancel same) List.nodup_range

/-- What the rows hold has not changed, and a page that the windows `rest` no longer have to do with is in the
shard at the head. -/
structure Unfolded (v v' : Vfs P) (h window npages : Nat) (rest : List Nat) : Prop where
  aside : Aside h v v'
  owns : Owns v' h
  buffered : Buffered (v.files h) (v'.files h)
  image : ∀ p, image (v'.store.dbs (v.files h).name) p = image (v.store.dbs (v.files h).name) p
  size : (v'.store.dbs (v.files h).name).size = (v.store.dbs (v.files h).name).size
  folded : ∀ {p page}, p < npages → Fdb.image (v.store.dbs (v.files h).name) p = some page →
    ((v'.store.dbs (v.files h).name).shard (v.files h).head).get p = some page ∨
      ∃ lo ∈ rest, lo ≤ p ∧ p < lo + window

section Windows

variable {v : Vfs P} {h window npages : Nat}

theorem Unfolded.head {v₁ : Vfs P} {rest : List Nat} (unfolded : Unfolded v v₁ h window npages rest) :
    headOf (v₁.store.dbs (v.files h).name) = (v.files h).head := by
  have head := unfolded.owns.synced.head
  rw [unfolded.buffered.name, unfolded.buffered.head] at head
  exact head

/-- Reading moves nothing but the window. -/
theorem Unfolded.read {v₁ v₂ : Vfs P} {rest : List Nat} (unfolded : Unfolded v v₁ h window npages rest)
    (aside : Aside h v₁ v₂) (owns : Owns v₂ h) (still : (v₂.files h).still = (v₁.files h).still)
    (store : v₂.store = v₁.store) : Unfolded v v₂ h window npages rest where
  aside := unfolded.aside.trans aside
  owns := owns
  buffered := by
    have moved := buffered_of_still still
    have before := unfolded.buffered
    exact ⟨moved.name.trans before.name, moved.fence.trans before.fence, moved.head.trans before.head,
      moved.size.trans before.size, moved.sent.trans before.sent, moved.dirty.trans before.dirty,
      moved.cut.trans before.cut, moved.group.trans before.group⟩
  image := by rw [store]; exact unfolded.image
  size := by rw [store]; exact unfolded.size
  folded := by rw [store]; exact unfolded.folded

/-- So does a transaction that leaves no trace. -/
theorem Unfolded.beside {v₁ v₂ : Vfs P} {rest : List Nat} (unfolded : Unfolded v v₁ h window npages rest)
    (beside : Beside v₁ v₂) (store : v₂.store = v₁.store) : Unfolded v v₂ h window npages rest := by
  apply unfolded.read _ _ _ store
  · apply beside.aside
    rw [store]
    exact Elsewhere.refl _ _
  · exact unfolded.owns.kept beside (by rw [store]) unfolded.owns.synced unfolded.owns.sane
  · rw [beside.files]

/-- Writing a window to the shard at the head. -/
theorem Unfolded.wrote {v₁ v₂ : Vfs P} {lo : Nat} {rest : List Nat} {pages : List (Nat × P)}
    (unfolded : Unfolded v v₁ h window npages (lo :: rest))
    (apart : pages.Pairwise fun a b => a.1 ≠ b.1)
    (held : ∀ r ∈ pages, Fdb.image (v₁.store.dbs (v.files h).name) r.1 = some r.2)
    (drawn : ∀ p ∈ windowPages lo window npages, rowOf pages p = Fdb.image (v.store.dbs (v.files h).name) p)
    (beside : Beside v₁ v₂)
    (store : v₂.store = v₁.store.onDb (v.files h).name (withShard (v.files h).head pages)) :
    Unfolded v v₂ h window npages rest := by
  have rows : v₂.store.dbs (v.files h).name =
      withShard (headOf (v₁.store.dbs (v.files h).name)) pages (v₁.store.dbs (v.files h).name) := by
    rw [store, onDb_same, unfolded.head]
  have owns := unfolded.owns
  have name := unfolded.buffered.name
  have kept : Owns v₂ h := by
    apply @Owns.kept P v₁ v₂ h (withShard (headOf (v₁.store.dbs (v.files h).name)) pages
      (v₁.store.dbs (v.files h).name)) owns beside
    · rw [name, rows]
    · rw [← name]
      rw [← name] at held
      exact owns.synced.withShard apart held
    · rw [← name]
      rw [← name] at held
      exact owns.sane.draft_rows apart held
  refine ⟨?_, kept, ?_, ?_, ?_, ?_⟩
  · apply unfolded.aside.trans
    apply beside.aside
    rw [store, name]
    exact Elsewhere.onDb _ _ _
  · rw [beside.files]
    exact unfolded.buffered
  · intro p
    rw [rows, image_draft apart held, unfolded.image]
  · rw [rows]
    exact unfolded.size
  · intro p page short there
    rw [rows, unfolded.head, shard_withShard apart, if_pos rfl]
    rcases unfolded.folded short there with early | ⟨lo', mem, above, below⟩
    · left
      cases row : rowOf pages p with
      | none => exact early
      | some page' =>
          have same := held _ (mem_of_rowOf row)
          rw [unfolded.image, there] at same
          exact same.symm
    · rcases List.mem_cons.mp mem with rfl | later
      · left
        rw [drawn p (mem_windowPages.mpr ⟨above, below, short⟩), there]
        rfl
      · exact Or.inr ⟨lo', later, above, below⟩

/-- What has not been folded yet is what it was. -/
theorem Unfolded.refolded {v₁ : Vfs P} {rest : List Nat} (owns : Owns v h)
    (unfolded : Unfolded v v₁ h window npages rest) :
    Refolded (v.store.dbs (v.files h).name) (v₁.store.dbs (v.files h).name) npages where
  sane := by
    rw [← unfolded.buffered.name]
    exact unfolded.owns.sane
  fence := by
    have fence := unfolded.owns.synced.fence
    rw [unfolded.buffered.name, unfolded.buffered.fence] at fence
    rw [fence, owns.synced.fence]
  size := unfolded.size
  head := by rw [unfolded.head, owns.synced.head]
  kept := fun _ => unfolded.image _
  less := fun there => (unfolded.image _).symm.trans there

/-- What a process that stops in a fold leaves. -/
structure Halfway (v v' : Vfs P) (h npages : Nat) : Prop where
  aside : Aside h v v'
  decided : Decided v'.attempts
  shards : ShardsRead v'.reads
  refolded : Refolded (v.store.dbs (v.files h).name) (v'.store.dbs (v.files h).name) npages

theorem Unfolded.halfway {v₁ : Vfs P} {rest : List Nat} (owns : Owns v h)
    (unfolded : Unfolded v v₁ h window npages rest) : Halfway v v₁ h npages :=
  ⟨unfolded.aside, unfolded.owns.decided, unfolded.owns.shards, unfolded.refolded owns⟩

/-- The windows, one after another. -/
theorem ends_foldWindows (owns : Owns v h) {rest : List Nat} {kept : Nat} {v₁ : Vfs P}
    (unfolded : Unfolded v v₁ h window npages rest) :
    Ends (foldWindows h (v.files h).head npages window rest kept)
      (fun _ v' => Unfolded v v' h window npages [])
      (fun v' => ∃ left, Unfolded v v' h window npages left)
      (fun v' => Halfway v v' h npages) v₁ := by
  induction rest generalizing kept v₁ with
  | nil => exact unfolded
  | cons lo rest ih =>
      have name := unfolded.buffered.name
      rw [foldWindows]
      apply Ends.bind
      apply Ends.bind
      have reads : ∀ r, Reads (v₁.store.dbs (v₁.files h).name) (v₁.files h) r →
          Ends (foldRead (v₁.store.dbs (v₁.files h).name) (windowPages lo window npages))
            (fun pages r' => pages = pagesAt (v₁.store.dbs (v₁.files h).name) (v₁.files h)
              (windowPages lo window npages) ∧ Reads (v₁.store.dbs (v₁.files h).name) (v₁.files h) r')
            (Reads (v₁.store.dbs (v₁.files h).name) (v₁.files h)) (fun _ => False) r :=
        fun r there => ends_foldRead unfolded.owns.sane.owned _ there
      apply (ends_runRead unfolded.owns reads).mono
      · rintro _ v₂ ⟨rfl, aside, owns₂, still, store⟩
        have second := unfolded.read aside owns₂ still store
        have synced := unfolded.owns.synced
        have held : ∀ r ∈ pagesAt (v₁.store.dbs (v₁.files h).name) (v₁.files h) (windowPages lo window npages),
            image (v₂.store.dbs (v.files h).name) r.1 = some r.2 := by
          intro r mem
          rw [store, ← name]
          exact mem_pagesAt synced mem
        have drawn : ∀ p ∈ windowPages lo window npages,
            rowOf (pagesAt (v₁.store.dbs (v₁.files h).name) (v₁.files h) (windowPages lo window npages)) p =
              image (v.store.dbs (v.files h).name) p := by
          intro p mem
          rw [rowOf_pagesAt synced, if_pos mem, name, unfolded.image]
        have apart : (pagesAt (v₁.store.dbs (v₁.files h).name) (v₁.files h)
            (windowPages lo window npages)).Pairwise fun a b => a.1 ≠ b.1 :=
          pagesAt_apart (windowPages_nodup lo window npages)
        have own : (v₂.store.dbs (v₁.files h).name).fence = some (v₁.files h).fence := by
          rw [store]
          exact synced.fence
        revert held drawn apart
        generalize pagesAt (v₁.store.dbs (v₁.files h).name) (v₁.files h) (windowPages lo window npages) = pages
        intro held drawn apart
        apply Ends.bind
        apply (@ends_fenced P _ (withShard (v.files h).head pages) _ _ owns₂.decided own rfl
          (withShard_twice apart _)).mono
        · rintro _ v₃ ⟨beside, store₃⟩
          rw [name] at store₃
          exact ih (second.wrote apart held drawn beside store₃)
        · rintro v₃ ⟨beside, store₃⟩
          exact ⟨_, second.beside beside store₃⟩
        · rintro v₃ ⟨beside, same | landed⟩
          · exact (second.beside beside same).halfway owns
          · rw [name] at landed
            exact (second.wrote apart held drawn beside landed).halfway owns
      · rintro v₂ ⟨aside, owns₂, still, store⟩
        exact ⟨_, unfolded.read aside owns₂ still store⟩
      · exact fun _ h => h.elim

end Windows

/-! ### The whole fold -/

theorem finish_twice (asOf kept : Nat) (db : Db P) :
    finish asOf kept (finish asOf kept db) = finish asOf kept db := by
  have markers : (finish asOf kept (finish asOf kept db)).shardn = (finish asOf kept db).shardn := by
    apply Table.ext_get
    intro v
    simp only [finish, Table.get_clear, Table.get_set, decide_eq_true_eq]
    split
    · rfl
    · split <;> rfl
  have shards : (finish asOf kept (finish asOf kept db)).shard = (finish asOf kept db).shard := by
    funext v
    by_cases below : v < asOf
    · simp only [finish, if_pos below]
    · simp only [finish, if_neg below]
  have shape : finish asOf kept (finish asOf kept db) = { finish asOf kept db with
      shardn := (finish asOf kept (finish asOf kept db)).shardn
      shard := (finish asOf kept (finish asOf kept db)).shard } := rfl
  rw [shape, markers, shards]

section Whole

variable {v : Vfs P} {h : Nat} {npages window : Nat}

/-- What the last transaction of a fold does to the rows. -/
theorem Unfolded.finished {v₁ : Vfs P} (owns : Owns v h) (unfolded : Unfolded v v₁ h window npages [])
    (kept : Nat) : Refolded (v.store.dbs (v.files h).name)
      (finish (v.files h).head kept (v₁.store.dbs (v.files h).name)) npages := by
  have before := unfolded.refolded owns
  have sane := before.sane
  have head := unfolded.head
  have shown : ∀ p, Fdb.image (finish (v.files h).head kept (v₁.store.dbs (v.files h).name)) p =
      ((v₁.store.dbs (v.files h).name).shard (v.files h).head).get p := by
    intro p
    rw [← head]
    exact image_finish sane p
  have draft : ∀ {p page}, ((v₁.store.dbs (v.files h).name).shard (v.files h).head).get p = some page →
      Fdb.image (v.store.dbs (v.files h).name) p = some page := by
    intro p page there
    rw [← head] at there
    rw [← unfolded.image]
    exact sane.draft there
  constructor
  · rw [← head]
    exact sane.finish
  · exact before.fence
  · exact before.size
  · exact before.head
  · intro p short
    rw [shown]
    cases there : Fdb.image (v.store.dbs (v.files h).name) p with
    | some page =>
        rcases unfolded.folded short there with done | ⟨_, mem, _⟩
        · exact done
        · cases mem
    | none =>
        cases row : ((v₁.store.dbs (v.files h).name).shard (v.files h).head).get p with
        | none => rfl
        | some page =>
            rw [draft row] at there
            cases there
  · intro p page there
    rw [shown] at there
    exact draft there

/-- The handle after the fold. -/
def folded (asOf kept : Nat) (f : FdbFile P) : FdbFile P :=
  raReset { f with hasShard := true, shardAsOf := asOf, basePages := kept, logPages := 0 }

theorem Synced.finished {f : FdbFile P} {db : Db P} (synced : Synced f db) (sane : Sane db) (kept : Nat) :
    Synced (folded f.head kept f) (finish f.head kept db) where
  fence := synced.fence
  head := synced.head
  size := synced.size
  newest := by
    have newest : newestShard (finish (headOf db) kept db) = _ := newestShard_finish sane
    rw [synced.head] at newest
    exact newest
  logn := rfl
  window := window_empty _ rfl
  sorted := synced.sorted

/-- A fold leaves every page of the file as it was, whether it goes through, fails or stops. -/
theorem ends_compact (owns : Owns v h) :
    Ends (compact h)
      (fun _ v' => Aside h v v' ∧ Owns v' h ∧ Buffered (v.files h) (v'.files h) ∧
        Refolded (v.store.dbs (v.files h).name) (v'.store.dbs (v.files h).name) (pagesFor (v.files h).size))
      (fun v' => Aside h v v' ∧ Owns v' h ∧ Buffered (v.files h) (v'.files h) ∧
        Refolded (v.store.dbs (v.files h).name) (v'.store.dbs (v.files h).name) (pagesFor (v.files h).size))
      (fun v' => Halfway v v' h (pagesFor (v.files h).size)) v := by
  have itself : Buffered (v.files h) (v.files h) := ⟨rfl, rfl, rfl, rfl, rfl, rfl, rfl, rfl⟩
  unfold compact
  apply Ends.bind
  apply Ends.ite
  · intro _
    exact ⟨⟨rfl, fun _ _ => rfl, rfl, Elsewhere.refl _ _⟩, owns, itself, Refolded.refl owns.sane _⟩
  · intro inhabited
    have room : 0 < min stageTxnPages (pagesFor (v.files h).size) :=
      Nat.lt_min.mpr ⟨by decide, Nat.pos_of_ne_zero inhabited⟩
    have start : Unfolded v v h (min stageTxnPages (pagesFor (v.files h).size)) (pagesFor (v.files h).size)
        (steps (min stageTxnPages (pagesFor (v.files h).size)) (pagesFor (v.files h).size)) := by
      refine ⟨⟨rfl, fun _ _ => rfl, rfl, Elsewhere.refl _ _⟩, owns, itself, fun _ => rfl, rfl, ?_⟩
      exact fun short _ => Or.inr (mem_steps room short)
    apply (ends_foldWindows owns start).andThen
    · intro kept v₁ unfolded
      have name := unfolded.buffered.name
      have own : (v₁.store.dbs (v.files h).name).fence = some (v.files h).fence := by
        rw [(unfolded.refolded owns).fence, owns.synced.fence]
      have finished := unfolded.finished owns kept
      apply Ends.bind
      apply (ends_fenced unfolded.owns.decided own rfl (finish_twice _ kept _)).mono
      · rintro _ v₂ ⟨beside, store⟩
        have rows : v₂.store.dbs (v.files h).name =
            finish (v.files h).head kept (v₁.store.dbs (v.files h).name) := by
          rw [store, onDb_same]
        have file : (v₂.onFile h (folded (v.files h).head kept)).files h =
            folded (v.files h).head kept (v₁.files h) := by
          rw [onFile_self, beside.files]
        have synced : Synced (folded (v.files h).head kept (v₁.files h))
            (finish (v.files h).head kept (v₁.store.dbs (v.files h).name)) := by
          have owner := unfolded.owns
          rw [← name, ← unfolded.buffered.head]
          exact owner.synced.finished owner.sane kept
        have outside : Aside h v₁ v₂ := by
          apply beside.aside
          rw [store, name]
          exact Elsewhere.onDb _ _ _
        change Aside h v (v₂.onFile h (folded (v.files h).head kept)) ∧
          Owns (v₂.onFile h (folded (v.files h).head kept)) h ∧
          Buffered (v.files h) ((v₂.onFile h (folded (v.files h).head kept)).files h) ∧
          Refolded _ (v₂.store.dbs (v.files h).name) _
        rw [file, rows]
        refine ⟨(unfolded.aside.trans outside).trans (aside_onFile rfl), ?_, ?_, finished⟩
        · constructor
          · rw [file]
            change Synced _ (v₂.store.dbs (v₁.files h).name)
            rw [name, rows]
            exact synced
          · rw [file]
            change Sane (v₂.store.dbs (v₁.files h).name)
            rw [name, rows]
            exact finished.sane
          · exact beside.decided
          · change ShardsRead v₂.reads
            rw [beside.reads]
            exact unfolded.owns.shards
        · have before := unfolded.buffered
          exact ⟨before.name, before.fence, before.head, before.size, before.sent, before.dirty, before.cut,
            before.group⟩
      · rintro v₂ ⟨beside, store⟩
        have kept := unfolded.beside beside store
        exact ⟨kept.aside, kept.owns, kept.buffered, kept.refolded owns⟩
      · rintro v₂ ⟨beside, same | landed⟩
        · exact (unfolded.beside beside same).halfway owns
        · refine ⟨unfolded.aside.trans (beside.aside ?_), beside.decided, ?_, ?_⟩
          · rw [landed, name]
            exact Elsewhere.onDb _ _ _
          · rw [beside.reads]
            exact unfolded.owns.shards
          · rw [landed, onDb_same]
            exact finished
    · rintro v₁ ⟨_, unfolded⟩
      exact ⟨unfolded.aside, unfolded.owns, unfolded.buffered, unfolded.refolded owns⟩
    · exact fun _ h => h

end Whole

/-! ### Folding when it is due, and closing -/

section Due

variable {v : Vfs P} {h : Nat}

theorem Buffered.trans {f g k : FdbFile P} (first : Buffered f g) (second : Buffered g k) : Buffered f k :=
  ⟨second.name.trans first.name, second.fence.trans first.fence, second.head.trans first.head,
    second.size.trans first.size, second.sent.trans first.sent, second.dirty.trans first.dirty,
    second.cut.trans first.cut, second.group.trans first.group⟩

/-- What a fold that came back leaves. -/
structure Compacted (v v' : Vfs P) (h : Nat) : Prop where
  aside : Aside h v v'
  owns : Owns v' h
  buffered : Buffered (v.files h) (v'.files h)
  refolded : Refolded (v.store.dbs (v.files h).name) (v'.store.dbs (v.files h).name) (pagesFor (v.files h).size)

theorem ends_weftCompactDue (owns : Owns v h) :
    Ends (weftCompactDue h) (fun _ v' => Compacted v v' h) (fun v' => Compacted v v' h)
      (fun v' => Halfway v v' h (pagesFor (v.files h).size)) v := by
  have nothing : Compacted v v h :=
    ⟨⟨rfl, fun _ _ => rfl, rfl, Elsewhere.refl _ _⟩, owns, ⟨rfl, rfl, rfl, rfl, rfl, rfl, rfl, rfl⟩,
      Refolded.refl owns.sane _⟩
  unfold weftCompactDue
  apply Ends.bind
  apply Ends.ite
  · exact fun _ => nothing
  · intro _
    apply Ends.ite
    · exact fun _ => nothing
    · intro _
      let paid : FdbFile P → FdbFile P := fun f => { f with compactDue := false }
      have file : (v.onFile h paid).files h = paid (v.files h) := onFile_self h paid v
      have aside : Aside h v (v.onFile h paid) := aside_onFile rfl
      have synced := owns.synced
      have owner : Owns (v.onFile h paid) h := by
        constructor
        · rw [file]
          exact ⟨synced.fence, synced.head, synced.size, synced.newest, synced.logn, synced.window, synced.sorted⟩
        · rw [file]
          exact owns.sane
        · exact owns.decided
        · exact owns.shards
      have same : Buffered (v.files h) ((v.onFile h paid).files h) := by
        rw [file]
        exact ⟨rfl, rfl, rfl, rfl, rfl, rfl, rfl, rfl⟩
      apply Ends.bind
      have ends := ends_compact owner
      rw [same.name, same.size] at ends
      apply ends.mono
      · rintro _ v' ⟨moved, owner', buffered, refolded⟩
        exact ⟨aside.trans moved, owner', same.trans buffered, refolded⟩
      · rintro v' ⟨moved, owner', buffered, refolded⟩
        exact ⟨aside.trans moved, owner', same.trans buffered, refolded⟩
      · rintro v' ⟨moved, decided, shards, refolded⟩
        rw [same.name] at refolded
        exact ⟨aside.trans moved, decided, shards, refolded⟩

/-- What a handle that is gone leaves to the others. -/
structure Left (v v' : Vfs P) (h : Nat) : Prop where
  aside : Aside h v v'
  decided : Decided v'.attempts
  shards : ShardsRead v'.reads
  sane : Sane (v'.store.dbs (v.files h).name)
  fence : (v'.store.dbs (v.files h).name).fence = (v.store.dbs (v.files h).name).fence

/-- The rows hold what was sent of the file, as far as its size. -/
structure Sent (v v' : Vfs P) (h : Nat) : Prop where
  size : (v'.store.dbs (v.files h).name).size.getD 0 = (v.files h).size
  pages : ∀ {p}, p < pagesFor (v.files h).size → image (v'.store.dbs (v.files h).name) p =
    merged (v.files h) (v.store.dbs (v.files h).name) p

theorem After.sent {v' : Vfs P} (after : After v v' h) : Sent v v' h := ⟨after.size, fun _ => after.pages _⟩

theorem Torn.left {v' : Vfs P} (torn : Torn v v' h) : Left v v' h :=
  ⟨torn.aside, torn.decided, torn.shards, torn.sane, torn.fence⟩

theorem Owns.left {v' : Vfs P} (owns : Owns v h) (aside : Aside h v v') (owner : Owns v' h)
    (fence : (v'.files h).fence = (v.files h).fence) : Left v v' h := by
  have sane := owner.sane
  have own := owner.synced.fence
  rw [aside.name] at sane own
  exact ⟨aside, owner.decided, owner.shards, sane, by rw [own, fence, owns.synced.fence]⟩

/-- Closing sends the buffer and folds what is due. -/
theorem ends_fdbClose (owns : Owns v h) (alone : (v.files h).groupTxnid = 0) :
    Ends (fdbClose h) (fun _ v' => Left v v' h ∧ Sent v v' h)
      (fun v' => Left v v' h ∧ (Before v v' h ∨ Sent v v' h))
      (fun v' => Left v v' h ∧ (Before v v' h ∨ Sent v v' h)) v := by
  have work : Ends (do flush h; weftCompactDue h) (fun _ v' => Left v v' h ∧ Sent v v' h)
      (fun v' => Left v v' h ∧ (Before v v' h ∨ Sent v v' h))
      (fun v' => Left v v' h ∧ (Before v v' h ∨ Sent v v' h)) v := by
    apply (ends_flush owns alone).andThen
    · rintro _ v₁ ⟨aside, owner, flushed, after⟩
      have left := owns.left aside owner flushed.fence
      have sent : ∀ {v₂ : Vfs P}, Refolded (v₁.store.dbs (v₁.files h).name) (v₂.store.dbs (v₁.files h).name)
          (pagesFor (v₁.files h).size) → Sane (v₂.store.dbs (v.files h).name) ∧
            (v₂.store.dbs (v.files h).name).fence = (v.store.dbs (v.files h).name).fence ∧ Sent v v₂ h := by
        intro v₂ refolded
        rw [flushed.name, flushed.size] at refolded
        refine ⟨refolded.sane, refolded.fence.trans left.fence, ?_, ?_⟩
        · rw [refolded.size]
          exact after.size
        · intro p short
          rw [refolded.kept short]
          exact after.pages p
      apply (ends_weftCompactDue owner).mono
      · rintro _ v₂ ⟨aside', owner', -, refolded⟩
        obtain ⟨sane, fence, done⟩ := sent refolded
        exact ⟨⟨aside.trans aside', owner'.decided, owner'.shards, sane, fence⟩, done⟩
      · rintro v₂ ⟨aside', owner', -, refolded⟩
        obtain ⟨sane, fence, done⟩ := sent refolded
        exact ⟨⟨aside.trans aside', owner'.decided, owner'.shards, sane, fence⟩, Or.inr done⟩
      · rintro v₂ ⟨aside', decided, shards, refolded⟩
        obtain ⟨sane, fence, done⟩ := sent refolded
        exact ⟨⟨aside.trans aside', decided, shards, sane, fence⟩, Or.inr done⟩
    · rintro v₁ ⟨aside, owner, file, before⟩
      exact ⟨owns.left aside owner (by rw [file]), Or.inl before⟩
    · intro v₁ torn
      refine ⟨torn.left, ?_⟩
      rcases torn.either with before | after
      · exact Or.inl before
      · exact Or.inr after.sent
  have clear : ∀ {v₁ : Vfs P}, Left v v₁ h →
      Left v (v₁.onFile h fun f => { clearDirty f with raSlots := [], raCount := 0 }) h := by
    intro v₁ left
    exact ⟨left.aside.trans (aside_onFile rfl), left.decided, left.shards, left.sane, left.fence⟩
  unfold fdbClose
  apply Ends.bind
  apply Ends.attempt
  apply work.mono
  · rintro _ v₁ ⟨left, sent⟩
    exact ⟨clear left, sent.size, sent.pages⟩
  · rintro v₁ ⟨left, either⟩
    refine ⟨clear left, ?_⟩
    rcases either with before | sent
    · exact Or.inl ⟨before.pages, before.size⟩
    · exact Or.inr ⟨sent.size, sent.pages⟩
  · exact fun _ h => h

end Due

end GyreWard.Fdb
