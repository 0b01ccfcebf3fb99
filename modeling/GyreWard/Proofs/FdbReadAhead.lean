/-
Module: GyreWard.Proofs.FdbReadAhead
Purpose: A window that was read ahead says of a page what the ordinary path would, except after a range read of
  the shard that failed.
Trusted boundary: none
Main exports: stored, Window, Reads, ends_raFill, ends_pageFromStore, ends_foldRead, runRead_reads, Holed,
  a_failed_prefetch_is_read_as_a_hole
-/
import GyreWard.Lib.Crash
import GyreWard.Proofs.FdbBuffer

namespace GyreWard.Fdb

open Lib
open Lib.Action (Ends)

variable {P α : Type}

/-! ### What the store holds -/

/-- What the ordinary path finds: the log's page if the log owns it, the shard's if there is one. -/
def stored (db : Db P) (f : FdbFile P) (pgno : Nat) : Option P :=
  match db.pidx.get pgno with
  | some owner => (db.delta owner).get pgno
  | none => if f.hasShard then (db.shard f.shardAsOf).get pgno else none

/-- A file without what read-ahead keeps. -/
def FdbFile.still (f : FdbFile P) : FdbFile P :=
  { f with raScore := 0, raLast := 0, raFirst := 0, raCount := 0, raSlots := [] }

theorem stored_still {db : Db P} {f g : FdbFile P} (same : f.still = g.still) (pgno : Nat) :
    stored db f pgno = stored db g pgno := by
  have shard : f.still.hasShard = g.still.hasShard := congrArg FdbFile.hasShard same
  have asOf : f.still.shardAsOf = g.still.shardAsOf := congrArg FdbFile.shardAsOf same
  change f.hasShard = g.hasShard at shard
  change f.shardAsOf = g.shardAsOf at asOf
  unfold stored
  rw [shard, asOf]

/-- What the window says of a page is what the store holds. -/
def Window (db : Db P) (f : FdbFile P) : Prop :=
  ∀ pgno page, raHit f pgno = some page → page = stored db f pgno

/-- No page is owned by commit zero, which stands for no owner in a prefetch. -/
def Owned (db : Db P) : Prop := ∀ pgno, db.pidx.get pgno ≠ some 0

theorem window_empty (db : Db P) {f : FdbFile P} (empty : f.raCount = 0) : Window db f := by
  intro pgno page hit
  have outside : pgno < f.raFirst ∨ f.raFirst + f.raCount ≤ pgno := by omega
  rw [raHit, if_pos outside] at hit
  cases hit

/-- A window in which nothing was fetched says nothing. -/
theorem raHit_unfetched {f : FdbFile P} (blank : ∀ slot ∈ f.raSlots, slot = .unfetched) (pgno : Nat) :
    raHit f pgno = none := by
  unfold raHit
  split
  · rfl
  · cases at_ : f.raSlots[pgno - f.raFirst]? with
    | none => rfl
    | some slot =>
        rw [blank slot (List.mem_of_getElem? at_)]

/-! ### Range reads -/

/-- What a range read may answer. -/
def Got (rows found : List α) (more : Bool) : Prop :=
  more = false ∧ found = rows ∨ more = true ∧ ∃ n, found = rows.take n

theorem got_of_answer {rows found : List α} {more : Bool} {replies rest : List Reply}
    (said : answer rows replies = (some (found, more), rest)) : Got rows found more := by
  cases replies with
  | nil =>
      cases said
      exact Or.inl ⟨rfl, rfl⟩
  | cons reply later =>
      cases reply with
      | whole =>
          cases said
          exact Or.inl ⟨rfl, rfl⟩
      | cut n =>
          cases said
          exact Or.inr ⟨rfl, n, rfl⟩
      | error => cases said

theorem answer_sublist {rows : List α} {replies rest : List Reply} {o : Option (List α × Bool)}
    (said : answer rows replies = (o, rest)) : rest ⊆ replies := by
  cases replies with
  | nil =>
      cases said
      exact List.Subset.refl _
  | cons reply later => cases reply <;> cases said <;> exact List.subset_cons_self ..

theorem answer_some {rows : List α} {replies rest : List Reply} (clear : .error ∉ replies) :
    answer rows replies ≠ (none, rest) := by
  cases replies with
  | nil => nofun
  | cons reply later =>
      cases reply with
      | whole => nofun
      | cut n => nofun
      | error => exact absurd (List.mem_cons_self ..) clear

theorem Got.subset {rows found : List α} {more : Bool} (got : Got rows found more) : found ⊆ rows := by
  rcases got with ⟨-, rfl⟩ | ⟨-, n, rfl⟩
  · exact List.Subset.refl _
  · exact List.take_subset _ _

theorem lt_reached {first q : Nat} {rows : List (Nat × α)} (below : q < reached first rows)
    (inside : first ≤ q) : ∃ r ∈ rows, q ≤ r.1 := by
  induction rows generalizing first with
  | nil => exact absurd below (Nat.not_lt.mpr inside)
  | cons r rest ih =>
      by_cases here : q ≤ r.1
      · exact ⟨r, List.mem_cons_self .., here⟩
      · have next : max first (r.1 + 1) ≤ q := by omega
        obtain ⟨r', mem, above⟩ := ih below next
        exact ⟨r', List.mem_cons_of_mem _ mem, above⟩

theorem coveredTo_le (covered first : Nat) (rows : List (Nat × α)) (more : Bool) :
    coveredTo covered first rows more ≤ covered := by
  unfold coveredTo
  split
  · exact Nat.le_of_lt (‹_ ∧ _›).2
  · exact Nat.le_refl _

/-- A range read has found each row up to where it got. -/
theorem Got.covers {rows found kept : List (Nat × α)} {more : Bool} {covered first q : Nat} {a : α}
    (got : Got rows found more) (sorted : Sorted rows) (among : ∀ r ∈ kept, ∃ b, (r.1, b) ∈ found)
    (below : q < coveredTo covered first kept more) (inside : first ≤ q) (mem : (q, a) ∈ rows) :
    (q, a) ∈ found := by
  rcases got with ⟨-, rfl⟩ | ⟨rfl, n, rfl⟩
  · exact mem
  · have short : q < reached first kept := by
      unfold coveredTo at below
      split at below
      · exact below
      · rename_i far
        have whole : ¬ reached first kept < covered := fun less => far ⟨rfl, less⟩
        omega
    obtain ⟨r, r_mem, above⟩ := lt_reached short inside
    obtain ⟨b, early⟩ := among r r_mem
    rw [← List.take_append_drop n rows] at mem sorted
    rcases List.mem_append.mp mem with here | late
    · exact here
    · have less : r.1 < q := (List.pairwise_append.mp sorted).2.2 _ early _ late
      exact absurd above (Nat.not_le.mpr less)

theorem sorted_range (t : Table Nat α) (p : Nat → Bool) : Sorted (t.range p) := t.sorted.filter _

/-! ### Filling the window -/

/-- What a window that was filled says of a page. -/
theorem raHit_states {f : FdbFile P} {owner : Nat → Nat} {pages : List (Nat × P)} {first count q : Nat}
    {page : Option P} (start : f.raFirst = first) (fits : count ≤ f.raCount)
    (hit : raHit { f with raSlots := raStates f owner pages, raCount := count } q = some page) :
    first ≤ q ∧ q < first + count ∧ owner q = 0 ∧ page = rowOf pages q ∧
      (page = none → f.hasShard = true) := by
  unfold raHit at hit
  dsimp only at hit
  split at hit
  · cases hit
  · rename_i inside
    rw [start] at inside hit
    have low : first ≤ q := by omega
    have high : q < first + count := by omega
    have index : q - first < f.raCount := by omega
    have there : first + (q - first) = q := by omega
    unfold raStates at hit
    rw [List.getElem?_map, List.getElem?_range index, Option.map_some, start, there] at hit
    by_cases free : owner q = 0
    · rw [if_neg (not_not.mpr free)] at hit
      cases row : rowOf pages q with
      | some found =>
          rw [row] at hit
          cases hit
          exact ⟨low, high, free, rfl, nofun⟩
      | none =>
          rw [row] at hit
          by_cases shard : f.hasShard = true
          · simp only [shard, if_true, Option.some.injEq] at hit
            exact ⟨low, high, free, hit.symm, fun _ => shard⟩
          · simp [shard] at hit
    · rw [if_pos free] at hit
      cases hit

/-- A window is right when the index was read as far as it goes and the shard's rows are those that the index
leaves to it. -/
theorem window_filled {db : Db P} {f : FdbFile P} {index : List (Nat × Nat)} {pages : List (Nat × P)}
    {first last : Nat} (owned : Owned db) (start : f.raFirst = first) (fits : last - first ≤ f.raCount)
    (covered : ∀ q t, first ≤ q → q < last → db.pidx.get q = some t → (q, t) ∈ index)
    (sorted : Sorted index)
    (present : ∀ q page, rowOf pages q = some page → f.hasShard = true ∧
      (db.shard f.shardAsOf).get q = some page)
    (absent : ∀ q page, first ≤ q → q < last → f.hasShard = true → ownerIn index q = 0 →
      (db.shard f.shardAsOf).get q = some page → rowOf pages q = some page) :
    Window db { f with raSlots := raStates f (ownerIn index) pages, raCount := last - first } := by
  intro q page hit
  obtain ⟨low, inside, free, value, shard⟩ := raHit_states start fits hit
  have high : q < last := by omega
  have none : db.pidx.get q = none := by
    cases owner : db.pidx.get q with
    | none => rfl
    | some t =>
        have row := sorted.rowOf_eq_some.mpr (covered q t low high owner)
        rw [ownerIn, row] at free
        change t = 0 at free
        rw [free] at owner
        exact absurd owner (owned q)
  unfold stored
  rw [none]
  cases row : rowOf pages q with
  | some found =>
      obtain ⟨has, get⟩ := present q found row
      simp only [has, if_true, get, value, row]
  | none =>
      rw [row] at value
      have has := shard value
      cases get : (db.shard f.shardAsOf).get q with
      | none => simp only [has, if_true, value]
      | some found =>
          have there := absent q found low high has free get
          rw [row] at there
          cases there

/-! ### Reading with a window -/

/-- What every read of a page keeps: the file but for read-ahead, a window that is right, and no failure of a
shard's range read ahead. -/
structure Reads (db : Db P) (f : FdbFile P) (r : Reading P) : Prop where
  still : r.file.still = f.still
  window : Window db r.file
  sound : .error ∉ r.left.shard

variable {db : Db P} {f : FdbFile P} {r : Reading P}

theorem Reads.stored (reads : Reads db f r) (pgno : Nat) : Fdb.stored db r.file pgno = Fdb.stored db f pgno :=
  stored_still reads.still pgno

/-- A read of one row gives it, or fails; it never stops the process. -/
theorem ends_getRow {value : Option α} (reads : Reads db f r) :
    Ends (getRow value) (fun a r' => a = value ∧ Reads db f r') (Reads db f) (fun _ => False) r := by
  unfold Ends getRow
  cases r.left.gets with
  | nil => exact ⟨rfl, reads⟩
  | cons fails rest =>
      cases fails with
      | false => exact ⟨rfl, reads.still, reads.window, reads.sound⟩
      | true => exact ⟨reads.still, reads.window, reads.sound⟩

theorem ends_plainPage (reads : Reads db f r) (pgno : Nat) :
    Ends (plainPage db pgno) (fun page r' => page = stored db f pgno ∧ Reads db f r') (Reads db f)
      (fun _ => False) r := by
  apply (ends_getRow reads).andThen _ (fun _ h => h) (fun _ h => h)
  rintro owner r₁ ⟨rfl, reads₁⟩
  unfold stored
  cases db.pidx.get pgno with
  | some owner => exact ends_getRow reads₁
  | none =>
      have shard : r₁.file.still.hasShard = f.still.hasShard := congrArg FdbFile.hasShard reads₁.still
      have asOf : r₁.file.still.shardAsOf = f.still.shardAsOf := congrArg FdbFile.shardAsOf reads₁.still
      change r₁.file.hasShard = f.hasShard at shard
      change r₁.file.shardAsOf = f.shardAsOf at asOf
      apply Ends.bind
      rw [Ends.read_iff, shard, asOf]
      dsimp only
      split
      · exact ends_getRow reads₁
      · exact ⟨rfl, reads₁⟩

theorem ends_getIndexRange {rows : List (Nat × Nat)} (reads : Reads db f r) :
    Ends (getIndexRange rows) (fun a r' => Got rows a.1 a.2 ∧ r'.file = r.file ∧ Reads db f r')
      (Reads db f) (fun _ => False) r := by
  unfold Ends getIndexRange
  rcases said : answer rows r.left.index with ⟨_ | ⟨found, more⟩, rest⟩
  · exact ⟨reads.still, reads.window, reads.sound⟩
  · exact ⟨got_of_answer said, rfl, reads.still, reads.window, reads.sound⟩

theorem ends_getShardRange {rows : List (Nat × P)} (reads : Reads db f r) :
    Ends (getShardRange rows) (fun a r' => Got rows a.1 a.2 ∧ r'.file = r.file ∧ Reads db f r')
      (fun _ => False) (fun _ => False) r := by
  unfold Ends getShardRange
  rcases said : answer rows r.left.shard with ⟨_ | ⟨found, more⟩, rest⟩
  · exact answer_some reads.sound said
  · have clear : .error ∉ rest := fun mem => reads.sound (answer_sublist said mem)
    exact ⟨got_of_answer said, rfl, reads.still, reads.window, clear⟩

/-- What the index says of the window's pages. -/
theorem index_covers {found : List (Nat × Nat)} {more : Bool} {first count q t : Nat}
    (got : Got (db.pidx.range fun p => first ≤ p ∧ p < first + count) found more) (low : first ≤ q)
    (high : q < coveredTo (first + count) first found more) (owner : db.pidx.get q = some t) :
    (q, t) ∈ found := by
  have below := Nat.lt_of_lt_of_le high (coveredTo_le _ _ _ _)
  have mem : (q, t) ∈ db.pidx.range fun p => first ≤ p ∧ p < first + count := by
    apply Table.mem_range.mpr
    exact ⟨owner, decide_eq_true ⟨low, below⟩⟩
  exact got.covers (sorted_range _ _) (fun r mem => ⟨r.2, mem⟩) high low mem

theorem Got.sorted {rows found : List (Nat × α)} {more : Bool} (got : Got rows found more)
    (sorted : Sorted rows) : Sorted found := by
  rcases got with ⟨-, rfl⟩ | ⟨-, n, rfl⟩
  · exact sorted
  · exact List.Pairwise.sublist (List.take_sublist n rows) sorted

/-- The window before anything was fetched. -/
theorem reads_blank (reads : Reads db f r) (first count : Nat) :
    Reads db f (r.onFile fun f => { f with
      raFirst := first, raCount := count, raSlots := List.replicate count .unfetched }) where
  still := reads.still
  window := by
    intro q page hit
    rw [raHit_unfetched fun slot mem => List.eq_of_mem_replicate mem] at hit
    cases hit
  sound := reads.sound

/-- After a prefetch the window is right. -/
theorem ends_raFill (owned : Owned db) (reads : Reads db f r) (first depth : Nat) :
    Ends (raFill db first depth) (fun _ => Reads db f) (Reads db f) (fun _ => False) r := by
  unfold raFill
  apply Ends.bind
  rw [Ends.modify_iff]
  apply (ends_getIndexRange (reads_blank reads first (min depth raMaxPages))).andThen _ (fun _ h => h)
    fun _ h => h
  rintro ⟨index, more⟩ r₁ ⟨got, file, reads₁⟩
  have start : r₁.file.raFirst = first := by rw [file]; rfl
  have room : r₁.file.raCount = min depth raMaxPages := by rw [file]; rfl
  have sorted := got.sorted (sorted_range _ _)
  dsimp only at got
  have size : ∀ c, c ≤ first + min depth raMaxPages → c - first ≤ r₁.file.raCount := by
    intro c le
    rw [room]
    omega
  have within := coveredTo_le (first + min depth raMaxPages) first index more
  apply Ends.bind
  rw [Ends.read_iff]
  apply Ends.ite
  · intro shard
    apply Ends.bind
    apply Ends.attempt
    apply (ends_getShardRange reads₁).mono _ (fun _ h => h.elim) fun _ h => h
    rintro ⟨rows, more'⟩ r₂ ⟨got', file', reads₂⟩
    dsimp only at got'
    rw [Ends.modify_iff]
    refine ⟨reads₂.still, ?_, reads₂.sound⟩
    rw [← file'] at start size shard got'
    have kept := (got'.sorted (sorted_range _ _)).filter fun r => ownerIn index r.1 = 0
    apply window_filled owned start
    · exact size _ (Nat.le_trans (coveredTo_le _ _ _ _) within)
    · intro q t low high owner
      apply index_covers got low _ owner
      have edge := coveredTo_le (coveredTo (first + min depth raMaxPages) first index more) first
        (rows.filter fun r => ownerIn index r.1 = 0) more'
      omega
    · exact sorted
    · intro q page row
      have mem := (List.mem_filter.mp (kept.rowOf_eq_some.mp row)).1
      exact ⟨shard, (Table.mem_range.mp (got'.subset mem)).1⟩
    · intro q page low high _ free there
      have edge := coveredTo_le (coveredTo (first + min depth raMaxPages) first index more) first
        (rows.filter fun r => ownerIn index r.1 = 0) more'
      have below : q < first + min depth raMaxPages := by omega
      have among : ∀ r ∈ rows.filter fun r => ownerIn index r.1 = 0, ∃ b, (r.1, b) ∈ rows :=
        fun r mem => ⟨r.2, (List.mem_filter.mp mem).1⟩
      have mem : (q, page) ∈ rows := by
        apply got'.covers (sorted_range _ _) among high low
        exact Table.mem_range.mpr ⟨there, decide_eq_true ⟨low, below⟩⟩
      exact kept.rowOf_eq_some.mpr (List.mem_filter.mpr ⟨mem, decide_eq_true free⟩)
  · intro none
    rw [Ends.modify_iff]
    refine ⟨reads₁.still, ?_, reads₁.sound⟩
    apply window_filled owned start (size _ within) (fun q t low high owner => index_covers got low high owner)
      sorted
    · intro q page row
      cases row
    · intro q page _ _ shard
      exact absurd shard none

/-- The score is not looked at by a read. -/
theorem ends_raDepth (reads : Reads db f r) (pgno : Nat) :
    Ends (raDepth pgno) (fun _ => Reads db f) (Reads db f) (fun _ => False) r :=
  ⟨reads.still, reads.window, reads.sound⟩

/-- A page that is read is what the store holds, whatever was read ahead. -/
theorem ends_pageFromStore (owned : Owned db) (reads : Reads db f r) (pgno : Nat) :
    Ends (pageFromStore db pgno) (fun page r' => page = stored db f pgno ∧ Reads db f r') (Reads db f)
      (fun _ => False) r := by
  unfold pageFromStore
  apply Ends.bind
  rw [Ends.read_iff]
  cases hit : raHit r.file pgno with
  | some page =>
      refine ⟨?_, reads⟩
      rw [← reads.stored]
      exact reads.window pgno page hit
  | none =>
      apply (ends_raDepth reads pgno).andThen _ (fun _ h => h) fun _ h => h
      intro depth r₀ scored
      apply Ends.ite
      · intro _
        exact ends_plainPage scored pgno
      · intro _
        apply (ends_raFill owned scored pgno _).andThen _ (fun _ h => h) fun _ h => h
        intro _ r₁ reads₁
        apply Ends.bind
        rw [Ends.read_iff]
        cases hit : raHit r₁.file pgno with
        | some page =>
            refine ⟨?_, reads₁⟩
            rw [← reads₁.stored]
            exact reads₁.window pgno page hit
        | none => exact ends_plainPage reads₁ pgno

/-- The pages of a list that are there. -/
def pagesAt (db : Db P) (f : FdbFile P) (pgnos : List Nat) : List (Nat × P) :=
  pgnos.filterMap fun pgno => (stored db f pgno).map fun page => (pgno, page)

theorem ends_foldRead (owned : Owned db) (pgnos : List Nat) (reads : Reads db f r) :
    Ends (foldRead db pgnos) (fun pages r' => pages = pagesAt db f pgnos ∧ Reads db f r') (Reads db f)
      (fun _ => False) r := by
  induction pgnos generalizing r with
  | nil => exact ⟨rfl, reads⟩
  | cons pgno rest ih =>
      apply (ends_pageFromStore owned reads pgno).andThen _ (fun _ h => h) fun _ h => h
      rintro page r₁ ⟨rfl, reads₁⟩
      apply (ih reads₁).andThen _ (fun _ h => h) fun _ h => h
      rintro later r₂ ⟨rfl, reads₂⟩
      unfold pagesAt
      rw [List.filterMap_cons]
      cases stored db f pgno with
      | some page => exact ⟨rfl, reads₂⟩
      | none => exact ⟨rfl, reads₂⟩

/-! ### Read transactions -/

/-- No range read of a shard fails. -/
def ShardsRead (reads : List ReadAttempt) : Prop := ∀ a ∈ reads, .error ∉ a.shard

/-- A read transaction gives what its body gives, however often it is retried. -/
theorem runRead_reads {h : Nat} {code : Code} {body : Store P → Action (Reading P) α} {v : Vfs P}
    {Q : α → Prop} {name : DbName} (window : Window (v.store.dbs name) (v.files h))
    (sound : ShardsRead v.reads)
    (spec : ∀ r, Reads (v.store.dbs name) (v.files h) r →
      Ends (body v.store) (fun a r' => Q a ∧ Reads (v.store.dbs name) (v.files h) r')
        (Reads (v.store.dbs name) (v.files h)) (fun _ => False) r) :
    Ends (runRead h code body)
      (fun a v' => Q a ∧ ∃ g rest, v' = { v with
          reads := rest, files := fun i => if i = h then g else v.files i, rc := code } ∧
        g.still = (v.files h).still ∧ Window (v.store.dbs name) g ∧ ShardsRead rest)
      (fun v' => ∃ g rest, v' = { v with
          reads := rest, files := fun i => if i = h then g else v.files i, rc := code } ∧
        g.still = (v.files h).still ∧ Window (v.store.dbs name) g ∧ ShardsRead rest)
      (fun _ => False) v := by
  have runs : ∀ (reads : List ReadAttempt) (g : FdbFile P), ShardsRead reads →
      g.still = (v.files h).still → Window (v.store.dbs name) g →
      match tryRead (body v.store) reads g with
      | (.ret a, rest, g') => Q a ∧ g'.still = (v.files h).still ∧ Window (v.store.dbs name) g' ∧
          ShardsRead rest
      | (.fail, rest, g') => g'.still = (v.files h).still ∧ Window (v.store.dbs name) g' ∧ ShardsRead rest
      | (.halt, _, _) => False := by
    intro reads
    induction reads with
    | nil =>
        intro g _ still window
        have ends := spec { file := g, left := {} } ⟨still, window, nofun⟩
        unfold Ends at ends
        rw [tryRead]
        rcases run : body v.store { file := g, left := {} } with ⟨_ | _ | _, r'⟩ <;> rw [run] at ends
        · exact ⟨ends.1, ends.2.still, ends.2.window, nofun⟩
        · exact ⟨ends.still, ends.window, nofun⟩
        · exact ends
    | cons a rest ih =>
        intro g clear still window
        have later : ShardsRead rest := fun b mem => clear b (List.mem_cons_of_mem _ mem)
        have ends := spec { file := g, left := a } ⟨still, window, clear a (List.mem_cons_self ..)⟩
        unfold Ends at ends
        rw [tryRead]
        rcases run : body v.store { file := g, left := a } with ⟨_ | _ | _, r'⟩ <;> rw [run] at ends
        · exact ⟨ends.1, ends.2.still, ends.2.window, later⟩
        · by_cases fatal : a.fatal = true
          · simp only [fatal, if_true]
            exact ⟨ends.still, ends.window, later⟩
          · simp only [fatal]
            exact ih r'.file later ends.still ends.window
        · exact ends
  have ran := runs v.reads (v.files h) sound rfl window
  unfold Ends runRead
  rcases run : tryRead (body v.store) v.reads (v.files h) with ⟨_ | _ | _, rest, g⟩ <;> rw [run] at ran
  · exact ⟨ran.1, g, rest, rfl, ran.2⟩
  · exact ⟨g, rest, rfl, ran⟩
  · exact ran

/-! ### A range read of the shard that fails -/

theorem getIndexRange_whole {rows : List (Nat × Nat)} (whole : r.left.index = []) :
    getIndexRange rows r = (.ret (rows, false), r) := by
  obtain ⟨file, gets, index, shard, fatal⟩ := r
  cases whole
  rfl

theorem ends_getShardRange_error {rows : List (Nat × P)} {later : List Reply}
    (fails : r.left.shard = .error :: later) :
    Ends (getShardRange rows) (fun _ _ => False) (fun r' => r'.file = r.file) (fun _ => False) r := by
  unfold Ends getShardRange
  rw [fails]
  rfl

/-- A page of a window that nothing was found for is not there. -/
theorem raHit_absent {owner : Nat → Nat} {q : Nat} (from_ : f.raFirst ≤ q) (below : q < f.raFirst + f.raCount)
    (shard : f.hasShard = true) (free : owner q = 0) :
    raHit { f with raSlots := raStates f owner [] } q = some none := by
  have slot : (raStates f owner [])[q - f.raFirst]? = some .absent := by
    unfold raStates
    rw [List.getElem?_map, List.getElem?_range (by omega)]
    have place : f.raFirst + (q - f.raFirst) = q := by omega
    simp [place, free, shard, rowOf]
  have inside : ¬ (q < f.raFirst ∨ f.raFirst + f.raCount ≤ q) := by omega
  unfold raHit
  dsimp only
  rw [if_neg inside, slot]

theorem coveredTo_whole {covered first : Nat} {rows : List (Nat × α)} :
    coveredTo covered first rows false = covered := by
  simp [coveredTo]

/-- How deep a scan of this score reads ahead. -/
def scanDepth (score : Nat) : Nat := if raFull ≤ score then raMaxPages else raStepPages

/-- The window of a file says of every page from `first` on that the log does not own that it is not there. -/
structure Holed (db : Db P) (f : FdbFile P) (first count : Nat) (g : FdbFile P) : Prop where
  name : g.name = f.name
  dirty : g.dirty = f.dirty
  holes : ∀ q, first ≤ q → q < first + count → db.pidx.get q = none → raHit g q = some none

section Hole

variable {pgno : Nat} (shard : r.file.hasShard = true) {later : List Reply}
  (fails : r.left.shard = .error :: later) (whole : r.left.index = [])

include shard fails whole in
/-- The window is sized and its states are written before the error is returned. -/
theorem ends_raFill_error {depth : Nat} (most : depth ≤ raMaxPages) :
    Ends (raFill db pgno depth) (fun _ _ => False) (fun r' => Holed db r.file pgno depth r'.file)
      (fun _ => False) r := by
  have size : min depth raMaxPages = depth := Nat.min_eq_left most
  have unowned : ∀ q, db.pidx.get q = none →
      ownerIn (db.pidx.range fun p => pgno ≤ p ∧ p < pgno + depth) q = 0 := by
    intro q free
    have absent : rowOf (db.pidx.range fun p => pgno ≤ p ∧ p < pgno + depth) q = none := by
      apply rowOf_eq_none.mpr
      rintro ⟨q', t⟩ mem rfl
      rw [(Table.mem_range.mp mem).1] at free
      cases free
    rw [ownerIn, absent]
    rfl
  unfold raFill
  rw [size]
  apply Ends.bind
  rw [Ends.modify_iff]
  apply Ends.bind
  apply Ends.of_ret (getIndexRange_whole (r := r.onFile _) whole)
  apply Ends.bind
  rw [Ends.read_iff]
  apply Ends.ite
  · intro _
    apply Ends.bind
    apply Ends.attempt
    apply (ends_getShardRange_error (r := r.onFile _) fails).mono (fun _ _ h => h.elim) _ fun _ h => h
    intro r' file
    apply Ends.bind
    rw [Ends.modify_iff]
    have start : r'.file.raFirst = pgno := by rw [file]; rfl
    have count : r'.file.raCount = depth := by rw [file]; rfl
    have has : r'.file.hasShard = true := by rw [file]; exact shard
    refine ⟨by rw [← show r'.file.name = r.file.name by rw [file]; rfl]; rfl,
      by rw [← show r'.file.dirty = r.file.dirty by rw [file]; rfl]; rfl, ?_⟩
    intro q first below free
    have hole := raHit_absent (f := r'.file) (by omega) (by omega) has (unowned q free)
    have covered : pgno + depth - pgno = r'.file.raCount := by omega
    dsimp only [Reading.onFile]
    rw [coveredTo_whole, covered]
    exact hole
  · intro none
    exact absurd shard none

include shard fails whole in
theorem ends_pageFromStore_error (miss : raHit r.file pgno = none) (scan : raEscalate ≤ nextScore r.file pgno) :
    Ends (pageFromStore db pgno) (fun _ _ => False)
      (fun r' => Holed db r.file pgno (scanDepth (nextScore r.file pgno)) r'.file) (fun _ => False) r := by
  unfold pageFromStore
  apply Ends.bind
  rw [Ends.read_iff, miss]
  apply Ends.bind
  have depth : raDepth pgno r = (.ret (scanDepth (nextScore r.file pgno)),
      r.onFile fun f => { f with raScore := nextScore f pgno, raLast := pgno }) := by
    unfold raDepth scanDepth
    dsimp only
    rw [if_pos scan]
    rfl
  apply Ends.of_ret depth
  have most : scanDepth (nextScore r.file pgno) ≤ raMaxPages ∧ scanDepth (nextScore r.file pgno) ≠ 0 := by
    unfold scanDepth
    split <;> decide
  apply Ends.ite
  · exact fun zero => absurd zero most.2
  · intro _
    apply Ends.bind
    have error := @ends_raFill_error P db
      (r.onFile fun f => { f with raScore := nextScore f pgno, raLast := pgno }) pgno shard _ fails whole _ most.1
    apply error.mono (fun _ _ h => h.elim) _ fun _ h => h
    exact fun r' holed => ⟨holed.name, holed.dirty, holed.holes⟩

end Hole

theorem tryRead_again {body : Action (Reading P) α} {a : ReadAttempt} {rest : List ReadAttempt}
    (retried : a.fatal = false) {r' : Reading P} (ran : body { file := f, left := a } = (.fail, r')) :
    tryRead body (a :: rest) f = tryRead body rest r'.file := by
  rw [tryRead, ran]
  simp [retried]

theorem pieces_none (n at_ : Nat) : pieces n at_ 0 = [] := by
  cases n with
  | zero => rfl
  | succ n => rfl

/-- A whole page is one piece. -/
theorem pieces_page (pgno : Nat) : pieces pageSize (pgno * pageSize) pageSize = [⟨pgno, 0, pageSize⟩] := by
  change pieces (4095 + 1) _ _ = _
  have start : pgno * pageSize % pageSize = 0 := Nat.mul_mod_left pgno pageSize
  have index : pgno * pageSize / pageSize = pgno := Nat.mul_div_cancel pgno (by decide)
  rw [pieces, start, index]
  simp [pageSize, pieces_none]

/-- A read of one page, by what comes of its pieces. -/
theorem fdbRead_page {v : Vfs Page} {h pgno : Nat} {result : Lib.Result (List UInt8 × Bool)}
    {left : List ReadAttempt} {g : FdbFile Page}
    (came : tryRead (readPieces (v.store.dbs (v.files h).name) [⟨pgno, 0, pageSize⟩]) v.reads (v.files h) =
      (result, left, g)) :
    fdbRead h pageSize (pgno * pageSize) v =
      (result, { v with reads := left, files := fun i => if i = h then g else v.files i, rc := .ioerrRead }) := by
  have opened : fileOf h v = (.ret (v.files h), v) := rfl
  unfold fdbRead
  rw [Action.bind_ret opened]
  unfold runRead readBody
  rw [pieces_page, came]

/-- A page that the window says is not there is read as zeros, and the file stays as it is. -/
theorem tryRead_hole (db : Db Page) {g : FdbFile Page} {pgno : Nat} (unwritten : findDirty g.dirty pgno = none)
    (hole : raHit g pgno = some none) (reads : List ReadAttempt) :
    ∃ left, tryRead (readPieces db [⟨pgno, 0, pageSize⟩]) reads g =
      (.ret (List.replicate pageSize 0, true), left, g) := by
  have body : ∀ left, readPieces db [⟨pgno, 0, pageSize⟩] { file := g, left } =
      (.ret (List.replicate pageSize 0, true), { file := g, left }) := by
    intro left
    have page : pageToRead db pgno { file := g, left } = (.ret none, { file := g, left }) := by
      unfold pageToRead
      rw [Action.bind_ret (Action.read_apply _ _)]
      dsimp only
      rw [unwritten]
      change pageFromStore db pgno { file := g, left } = _
      unfold pageFromStore
      rw [Action.bind_ret (Action.read_apply _ _)]
      dsimp only
      rw [hole]
      rfl
    rw [readPieces, Action.bind_ret page]
    exact congrArg (fun bytes => (Lib.Result.ret (bytes, true), _)) (List.append_nil _)
  cases reads with
  | nil =>
      rw [tryRead, body]
      exact ⟨_, rfl⟩
  | cons a rest =>
      rw [tryRead, body]
      exact ⟨_, rfl⟩

/-- The name of a database. -/
def world : DbName := ⟨[0x77], by decide, by decide, by decide, by decide⟩

/-- A scan that has come to page 8 of a database with one shard, of which the next range read fails. -/
def scanning : Vfs Page where
  store := { dbs := fun _ => { shard := fun _ => Table.set ∅ 9 (Page.of [1]) } }
  reads := [{ shard := [.error] }]
  files := fun _ => { name := world, hasShard := true, raScore := raEscalate, raLast := 8 }

/-- A page that a scan comes to is in the newest shard, and the range read of the shard fails once and is tried
again: the window keeps that there is nothing there, what is read is zeros, and so is what is read next of any page
of the window that the log does not own. -/
theorem a_failed_prefetch_is_read_as_a_hole {v : Vfs Page} {h pgno : Nat} {page : Page} {a : ReadAttempt}
    {rest : List ReadAttempt} {later : List Reply} (shard : (v.files h).hasShard = true)
    (free : (v.store.dbs (v.files h).name).pidx.get pgno = none)
    (there : ((v.store.dbs (v.files h).name).shard (v.files h).shardAsOf).get pgno = some page)
    (unwritten : findDirty (v.files h).dirty pgno = none) (miss : raHit (v.files h) pgno = none)
    (scan : raEscalate ≤ nextScore (v.files h) pgno) (reads : v.reads = a :: rest) (retried : a.fatal = false)
    (whole : a.index = []) (fails : a.shard = .error :: later) :
    stored (v.store.dbs (v.files h).name) (v.files h) pgno = some page ∧
      ∃ v', fdbRead h pageSize (pgno * pageSize) v = (.ret (List.replicate pageSize 0, true), v') ∧
        ∀ q, pgno ≤ q → q < pgno + scanDepth (nextScore (v.files h) pgno) →
          (v.store.dbs (v.files h).name).pidx.get q = none → findDirty (v.files h).dirty q = none →
            (fdbRead h pageSize (q * pageSize) v').1 = .ret (List.replicate pageSize 0, true) := by
  have held : stored (v.store.dbs (v.files h).name) (v.files h) pgno = some page := by
    simp [stored, free, shard, there]
  refine ⟨held, ?_⟩
  have error : Ends (pageFromStore (v.store.dbs (v.files h).name) pgno) _ _ _
      { file := v.files h, left := a } := ends_pageFromStore_error shard fails whole miss scan
  have first : Ends (readPieces (v.store.dbs (v.files h).name) [⟨pgno, 0, pageSize⟩]) (fun _ _ => False)
      (fun r' => Holed (v.store.dbs (v.files h).name) (v.files h) pgno
        (scanDepth (nextScore (v.files h) pgno)) r'.file) (fun _ => False) { file := v.files h, left := a } := by
    unfold readPieces pageToRead
    apply Ends.bind
    apply Ends.bind
    rw [Ends.read_iff, unwritten]
    exact error.mono (fun _ _ h => h.elim) (fun _ h => h) fun _ h => h
  rcases ran : readPieces (v.store.dbs (v.files h).name) [⟨pgno, 0, pageSize⟩]
    { file := v.files h, left := a } with ⟨_ | _ | _, r'⟩
  · exact (first.ret ran).elim
  · have holed := first.err ran
    have deep : 0 < scanDepth (nextScore (v.files h) pgno) := by
      unfold scanDepth
      split <;> decide
    have again : findDirty r'.file.dirty pgno = none := by rw [holed.dirty]; exact unwritten
    obtain ⟨left, second⟩ := tryRead_hole (v.store.dbs (v.files h).name) again
      (holed.holes pgno (Nat.le_refl _) (by omega) free) rest
    rw [← tryRead_again retried ran, ← reads] at second
    have came := fdbRead_page second
    refine ⟨_, came, ?_⟩
    intro q start below unowned clean
    have next : findDirty r'.file.dirty q = none := by rw [holed.dirty]; exact clean
    obtain ⟨left', third⟩ :=
      tryRead_hole (v.store.dbs (v.files h).name) next (holed.holes q start below unowned) left
    have here : (if h = h then r'.file else v.files h) = r'.file := if_pos rfl
    have read := @fdbRead_page { v with
        reads := left, files := fun i => if i = h then r'.file else v.files i, rc := .ioerrRead } h q
      (.ret (List.replicate pageSize 0, true)) left' r'.file (by
        dsimp only
        rw [here, holed.name]
        exact third)
    exact congrArg Prod.fst read
  · exact (first.died ran).elim

theorem a_scan_with_a_hole : stored (scanning.store.dbs world) (scanning.files 0) 9 = some (Page.of [1]) ∧
    ∃ v', fdbRead 0 pageSize (9 * pageSize) scanning = (.ret (List.replicate pageSize 0, true), v') ∧
      ∀ q, 9 ≤ q → q < 9 + scanDepth (nextScore (scanning.files 0) 9) →
        (scanning.store.dbs world).pidx.get q = none → findDirty (scanning.files 0).dirty q = none →
          (fdbRead 0 pageSize (q * pageSize) v').1 = .ret (List.replicate pageSize 0, true) :=
  a_failed_prefetch_is_read_as_a_hole rfl rfl rfl rfl rfl (by decide) rfl rfl rfl rfl

end GyreWard.Fdb
