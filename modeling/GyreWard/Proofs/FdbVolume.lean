/-
Module: GyreWard.Proofs.FdbVolume
Purpose: Any number of processes that open, read, write, cut, sync, fold and close one database, and stop where
  they will, have one file of which what is promised is what they read.
Trusted boundary: none
Main exports: runCall, System, System.step, System.run, Shows, shows_step, the_file_keeps_its_promises
-/
import GyreWard.Abstract.Volume
import GyreWard.Proofs.FdbOpen

namespace GyreWard.Fdb

open Lib
open Lib.Action (Ends)

/-! ### Processes -/

/-- What a process asks of the file system. -/
def runCall (k : Nat) (name : DbName) : FileCall UInt8 → Action (Vfs Page) (List UInt8)
  | .write off data => do
      fdbWrite k data off
      pure []
  | .truncate size => do
      fdbTruncate k size
      pure []
  | .read off amt => do
      let r ← fdbRead k amt off
      pure r.1
  | .sync => do
      flush k
      pure []
  | .fold => do
      weftCompactDue k
      pure []
  | .close => do
      fdbClose k
      pure []
  | .reopen => do
      vfsOpen k name
      pure []

/-- Processes, each with a handle of its own, that have the database open or not. -/
structure System where
  vfs : Vfs Page
  live : Nat → Bool

/-- Does the call open the file? -/
def opens : FileCall UInt8 → Bool
  | .reopen => true
  | _ => false

/-- Has the process the file open after a call? -/
def stays : FileCall UInt8 → FileOutcome UInt8 → Bool
  | _, .died => false
  | .close, _ => false
  | .reopen, .failed => false
  | _, _ => true

/-- A call by one process.  A call of many transactions, a staged sync or a fold, is one step for the others. -/
def System.step (name : DbName) (s : System) (k : Nat) (c : FileCall UInt8) : FileOutcome UInt8 × System :=
  let (o, v) := match runCall k name c s.vfs with
    | (.ret bytes, v) => (FileOutcome.returned bytes, v)
    | (.fail, v) => (.failed, v)
    | (.halt, v) => (.died, v)
  (o, { vfs := v, live := fun i => if i = k then stays c o else s.live i })

/-- Calls by processes, in the order in which they are made; one that has not the file open makes none but to open
it. -/
def System.run (name : DbName) : System → List (Nat × FileCall UInt8) →
    List (Nat × FileCall UInt8 × FileOutcome UInt8) × System
  | s, [] => ([], s)
  | s, (k, c) :: rest =>
      if s.live k || opens c then
        let (o, s') := s.step name k c
        let (later, s'') := s'.run name rest
        ((k, c, o) :: later, s'')
      else s.run name rest

/-! ### What is promised of a file -/

/-- The pages hold what is promised. -/
structure Promised (c : Contents UInt8) (pages : Nat → Option Page) (size : Nat) : Prop where
  size : c.size = size
  byte : ∀ {i b}, c.byte i = some b → byteOf pages i = b

/-- The owner's handle has what is promised of its draft. -/
structure Drafts (s : System) (d : Draft UInt8) : Prop where
  live : s.live d.owner = true
  owns : Owns s.vfs d.owner
  alone : (s.vfs.files d.owner).groupTxnid = 0
  promised : Promised d.seen (seen s.vfs d.owner) (s.vfs.files d.owner).size
  kept : ∀ {i b}, d.seen.byte i = some b → ¬ Dropped (s.vfs.files d.owner) (i / pageSize)
  cut : d.cut = (s.vfs.files d.owner).truncPages.map (· * pageSize)

/-- A handle that is open, and has lost the database to another. -/
structure Stranger (name : DbName) (v : Vfs Page) (k : Nat) : Prop where
  named : (v.files k).name = name
  alone : (v.files k).groupTxnid = 0
  older : ∃ n, (v.store.dbs name).fence = some n ∧ (v.files k).fence < n

/-- The store and the handles show the file of the abstract level. -/
structure Shows (name : DbName) (s : System) (m : Volume UInt8) : Prop where
  sane : Sane (s.vfs.store.dbs name)
  decided : Decided s.vfs.attempts
  shards : ShardsRead s.vfs.reads
  settled : stagingRecords s.vfs.store = []
  kept : Promised m.kept (image (s.vfs.store.dbs name)) ((s.vfs.store.dbs name).size.getD 0)
  draft : ∀ {d}, m.draft = some d → Drafts s d ∧ (s.vfs.files d.owner).name = name
  strangers : ∀ {k}, s.live k = true → (∀ d, m.draft = some d → d.owner ≠ k) → Stranger name s.vfs k

/-! ### Bytes and pages -/

theorem byteOf_congr {pages pages' : Nat → Option Page} {i : Nat}
    (same : pages' (i / pageSize) = pages (i / pageSize)) : byteOf pages' i = byteOf pages i := by
  unfold byteOf
  rw [same]

/-- A byte before the end of the last page is in a page of the file. -/
theorem page_of_pageEnd {i size : Nat} (below : i < pageEnd pageSize size) : i / pageSize < pagesFor size := by
  rw [Nat.div_lt_iff_lt_mul (by decide)]
  exact below

theorem pageEnd_eq (size : Nat) : pageEnd pageSize size = pagesFor size * pageSize := rfl

/-! ### What a call by one handle leaves of the rest -/

section Steps

variable {name : DbName} {s : System} {m : Volume UInt8} {k : Nat} {v' : Vfs Page} {stay : Bool}

/-- The processes after a call by one. -/
def after (s : System) (v' : Vfs Page) (k : Nat) (stay : Bool) : System :=
  { vfs := v', live := fun i => if i = k then stay else s.live i }

theorem live_after {i : Nat} (other : i ≠ k) : (after s v' k stay).live i = s.live i := if_neg other

theorem live_self : (after s v' k stay).live k = stay := if_pos rfl

/-- A stranger to a file that has not changed hands. -/
theorem Stranger.moved {i : Nat} (stranger : Stranger name s.vfs i) (file : v'.files i = s.vfs.files i)
    (fence : (v'.store.dbs name).fence = (s.vfs.store.dbs name).fence) : Stranger name v' i where
  named := by rw [file]; exact stranger.named
  alone := by rw [file]; exact stranger.alone
  older := by rw [file, fence]; exact stranger.older

theorem Stranger.lost (stranger : Stranger name s.vfs k) : Lost s.vfs k where
  fence := by
    obtain ⟨n, there, older⟩ := stranger.older
    rw [stranger.named, there]
    intro same
    cases same
    exact Nat.lt_irrefl _ older
  alone := stranger.alone

/-- A call of a stranger. -/
theorem Shows.idle (shows : Shows name s m) (lost : ∀ d, m.draft = some d → d.owner ≠ k)
    (live : stay = true → s.live k = true) (idle : Idle k s.vfs v') : Shows name (after s v' k stay) m where
  sane := by
    change Sane (v'.store.dbs name)
    rw [idle.store]
    exact shows.sane
  decided := idle.decided shows.decided
  shards := idle.shards shows.shards
  settled := by
    change stagingRecords v'.store = []
    rw [idle.store]
    exact shows.settled
  kept := by
    change Promised _ (image (v'.store.dbs name)) ((v'.store.dbs name).size.getD 0)
    rw [idle.store]
    exact shows.kept
  draft := by
    intro d there
    obtain ⟨drafts, named⟩ := shows.draft there
    have other := lost d there
    have file : v'.files d.owner = s.vfs.files d.owner := idle.files _ other
    have same : seen v' d.owner = seen s.vfs d.owner := by
      unfold seen
      rw [file, idle.store]
    change Drafts (after s v' k stay) d ∧ (v'.files d.owner).name = name
    rw [file]
    refine ⟨⟨?_, ?_, ?_, ?_, ?_, ?_⟩, named⟩
    · rw [live_after other]
      exact drafts.live
    · change Owns v' d.owner
      constructor
      · rw [file, idle.store]
        exact drafts.owns.synced
      · rw [file, idle.store]
        exact drafts.owns.sane
      · exact idle.decided shows.decided
      · exact idle.shards shows.shards
    · change (v'.files d.owner).groupTxnid = 0
      rw [file]
      exact drafts.alone
    · change Promised _ (seen v' d.owner) (v'.files d.owner).size
      rw [file, same]
      exact drafts.promised
    · change ∀ {i b}, _ → ¬ Dropped (v'.files d.owner) (i / pageSize)
      rw [file]
      exact drafts.kept
    · change d.cut = (v'.files d.owner).truncPages.map _
      rw [file]
      exact drafts.cut
  strangers := by
    intro i alive others
    by_cases here : i = k
    · subst here
      rw [live_self] at alive
      have stranger := shows.strangers (live alive) lost
      refine ⟨?_, ?_, ?_⟩
      · rw [← stranger.named]
        exact idle.name
      · rw [← stranger.alone]
        exact idle.group
      · obtain ⟨n, there, older⟩ := stranger.older
        refine ⟨n, ?_, ?_⟩
        · change (v'.store.dbs name).fence = some n
          rw [idle.store, there]
        · change (v'.files i).fence < n
          rw [idle.fence]
          exact older
    · rw [live_after here] at alive
      have fence : (v'.store.dbs name).fence = (s.vfs.store.dbs name).fence := by rw [idle.store]
      exact (shows.strangers alive others).moved (idle.files i here) fence

variable {d : Draft UInt8}

/-- The others are strangers while one handle owns the file. -/
theorem Shows.others (shows : Shows name s m) (draft : m.draft = some d) {i : Nat} (alive : s.live i = true)
    (other : i ≠ d.owner) : Stranger name s.vfs i := by
  apply shows.strangers alive
  intro d' there
  rw [draft] at there
  cases there
  exact Ne.symm other

/-- A call of the owner that came back. -/
theorem Shows.owned (shows : Shows name s m) (draft : m.draft = some d) (aside : Aside d.owner s.vfs v')
    (owns : Owns v' d.owner) (fence : (v'.files d.owner).fence = (s.vfs.files d.owner).fence)
    (alone : (v'.files d.owner).groupTxnid = (s.vfs.files d.owner).groupTxnid) {kept seen' : Contents UInt8}
    {cut : Option Nat}
    (keeps : Promised kept (image (v'.store.dbs name)) ((v'.store.dbs name).size.getD 0))
    (promised : Promised seen' (seen v' d.owner) (v'.files d.owner).size)
    (uncut : ∀ {i b}, seen'.byte i = some b → ¬ Dropped (v'.files d.owner) (i / pageSize))
    (cuts : cut = (v'.files d.owner).truncPages.map (· * pageSize)) :
    Shows name (after s v' d.owner true) ⟨kept, some { d with seen := seen', cut := cut }⟩ := by
  obtain ⟨drafts, named⟩ := shows.draft draft
  have name' : (v'.files d.owner).name = name := aside.name.trans named
  have same : (v'.store.dbs name).fence = (s.vfs.store.dbs name).fence := by
    have before := drafts.owns.synced.fence
    have now := owns.synced.fence
    rw [named] at before
    rw [name', fence] at now
    rw [before, now]
  have sane := owns.sane
  rw [name'] at sane
  refine ⟨sane, owns.decided, owns.shards, settled_of_records aside.store.records shows.settled, keeps, ?_, ?_⟩
  · intro d' there
    cases there
    refine ⟨⟨live_self, owns, ?_, promised, uncut, cuts⟩, name'⟩
    change (v'.files d.owner).groupTxnid = 0
    rw [alone]
    exact drafts.alone
  · intro i alive others
    have other : i ≠ d.owner := fun here => others _ rfl here.symm
    rw [live_after other] at alive
    exact (shows.others draft alive other).moved (aside.files i other) same

/-- A call after which the owner has the file open no more. -/
theorem Shows.gone (shows : Shows name s m) (draft : m.draft = some d) (left : Left s.vfs v' d.owner)
    {kept : Contents UInt8}
    (keeps : Promised kept (image (v'.store.dbs name)) ((v'.store.dbs name).size.getD 0)) :
    Shows name (after s v' d.owner false) ⟨kept, none⟩ := by
  obtain ⟨drafts, named⟩ := shows.draft draft
  have sane := left.sane
  have same := left.fence
  rw [named] at sane same
  refine ⟨sane, left.decided, left.shards, settled_of_records left.aside.store.records shows.settled, keeps,
    fun there => (by cases there), ?_⟩
  intro i alive _
  by_cases here : i = d.owner
  · rw [here, live_self] at alive
    cases alive
  · rw [live_after here] at alive
    exact (shows.others draft alive here).moved (left.aside.files i here) same

end Steps

/-! ### Strangers -/

theorem ends_stranger {v : Vfs Page} {k : Nat} {name : DbName} (lost : Lost v k) (c : FileCall UInt8)
    (other : opens c = false) :
    Ends (runCall k name c) (fun _ => Idle k v) (Idle k v) (Idle k v) v := by
  cases c with
  | write off data => exact Ends.bind (idle_fdbWrite data off)
  | truncate size => exact Ends.bind (idle_fdbTruncate size)
  | read off amt => exact Ends.bind (idle_fdbRead amt off)
  | sync =>
      apply Ends.bind
      apply (lost_flush lost).mono
      · rintro _ v' ⟨rfl, -⟩
        exact .refl k v'
      · exact fun _ refused => refused.idle
      · exact fun _ h => h.elim
  | fold => exact Ends.bind (lost_weftCompactDue lost)
  | close => exact Ends.bind (lost_fdbClose lost)
  | reopen => cases other

/-! ### The owner -/

/-- A call is a step of the file, and what it leaves shows the file after that step. -/
def Steps (name : DbName) (s : System) (m : Volume UInt8) (k : Nat) (c : FileCall UInt8) (o : FileOutcome UInt8)
    (v' : Vfs Page) : Prop :=
  ∃ m', Volume.Step pageSize m k c o m' ∧ Shows name (after s v' k (stays c o)) m'

/-- A place past a cut is in a page past it. -/
theorem dropped_iff {f : FdbFile Page} {cut : Option Nat} (cuts : cut = f.truncPages.map (· * pageSize))
    (i : Nat) : (∃ n, cut = some n ∧ n ≤ i) ↔ Dropped f (i / pageSize) := by
  unfold Dropped
  rw [cuts]
  constructor
  · rintro ⟨n, there, below⟩
    obtain ⟨pages, here, rfl⟩ := Option.map_eq_some_iff.mp there
    exact ⟨pages, here, (Nat.le_div_iff_mul_le (by decide)).mpr below⟩
  · rintro ⟨pages, here, below⟩
    refine ⟨pages * pageSize, ?_, (Nat.le_div_iff_mul_le (by decide)).mp below⟩
    rw [here]
    rfl

/-- What is promised of a page that a fold has kept. -/
theorem Promised.upTo {c : Contents UInt8} {pages pages' : Nat → Option Page} {size size' limit : Nat}
    (promised : Promised c pages size') (sizes : size = size')
    (same : ∀ {p}, p < pagesFor limit → pages' p = pages p) :
    Promised (c.upTo (pageEnd pageSize limit)) pages' size := by
  refine ⟨promised.size.trans sizes.symm, ?_⟩
  intro i b there
  change (if _ then _ else _) = some b at there
  split at there
  · rename_i below
    rw [byteOf_congr (same (page_of_pageEnd below))]
    exact promised.byte there
  · cases there

section Owner

variable {name : DbName} {s : System} {kept : Contents UInt8} {d : Draft UInt8}
  (shows : Shows name s ⟨kept, some d⟩)

include shows

/-- The rows have not changed. -/
theorem Shows.same {v' : Vfs Page} (store : v'.store = s.vfs.store) :
    Promised kept (image (v'.store.dbs name)) ((v'.store.dbs name).size.getD 0) := by
  rw [store]
  exact shows.kept

/-- What was not sent is not kept. -/
theorem Shows.unsent {v' : Vfs Page} (before : Before s.vfs v' d.owner) :
    Promised kept (image (v'.store.dbs name)) ((v'.store.dbs name).size.getD 0) := by
  obtain ⟨drafts, named⟩ := shows.draft rfl
  have size := drafts.owns.synced.size
  unfold Before at before
  rw [named] at before size
  refine ⟨shows.kept.size.trans (size.trans before.size.symm), ?_⟩
  intro i b there
  rw [byteOf_congr (before.pages _)]
  exact shows.kept.byte there

theorem owner_write (off : Nat) (data : List UInt8) :
    Ends (runCall d.owner name (.write off data))
      (fun bytes => Steps name s ⟨kept, some d⟩ d.owner (.write off data) (.returned bytes))
      (Steps name s ⟨kept, some d⟩ d.owner (.write off data) .failed)
      (Steps name s ⟨kept, some d⟩ d.owner (.write off data) .died) s.vfs := by
  obtain ⟨drafts, named⟩ := shows.draft rfl
  apply Ends.bind
  apply (ends_fdbWrite drafts.owns data off).mono
  · intro _ v' written
    refine ⟨_, .wrote, ?_⟩
    have fence : (v'.files d.owner).fence = (s.vfs.files d.owner).fence := by
      have before := drafts.owns.synced.fence
      have now := written.owns.synced.fence
      rw [written.store, written.aside.name, before] at now
      exact (Option.some.inj now).symm
    have dropped : ∀ p, Dropped (v'.files d.owner) p ↔ Dropped (s.vfs.files d.owner) p := by
      intro p
      unfold Dropped
      rw [written.cut]
    apply shows.owned rfl written.aside written.owns fence written.group (shows.same written.store)
    · refine ⟨?_, ?_⟩
      · change max d.seen.size _ = _
        rw [written.size, drafts.promised.size]
      · intro i b there
        change (if _ then _ else _) = some b at there
        rw [written.bytes i]
        split at there
        · rename_i inside
          rw [if_pos inside]
          split at there
          · cases there
          · rw [List.getD_eq_getElem?_getD, there]
            rfl
        · rename_i outside
          rw [if_neg outside]
          exact drafts.promised.byte there
    · intro i b there
      rw [dropped]
      change (if _ then _ else _) = some b at there
      split at there
      · split at there
        · cases there
        · rename_i uncut
          exact fun past => uncut ((dropped_iff drafts.cut i).mpr past)
      · exact drafts.kept there
    · rw [written.cut]
      exact drafts.cut
  · rintro v' ⟨edit, count, short, bytes⟩
    refine ⟨_, .writeFailed, ?_⟩
    have dropped : ∀ p, Dropped (v'.files d.owner) p ↔ Dropped (s.vfs.files d.owner) p := by
      intro p
      unfold Dropped
      rw [edit.edited.cut]
    apply shows.owned rfl edit.aside edit.owns edit.edited.fence edit.edited.group (shows.same edit.store)
    · refine ⟨?_, ?_⟩
      · change d.seen.size = _
        rw [edit.edited.size, drafts.promised.size]
      · intro i b there
        change (if _ then _ else _) = some b at there
        split at there
        · cases there
        · rw [bytes i, if_neg (by omega)]
          exact drafts.promised.byte there
    · intro i b there
      rw [dropped]
      change (if _ then _ else _) = some b at there
      split at there
      · cases there
      · exact drafts.kept there
    · rw [edit.edited.cut]
      exact drafts.cut
  · exact fun _ h => h.elim

theorem owner_read (off amt : Nat) :
    Ends (runCall d.owner name (.read off amt))
      (fun bytes => Steps name s ⟨kept, some d⟩ d.owner (.read off amt) (.returned bytes))
      (Steps name s ⟨kept, some d⟩ d.owner (.read off amt) .failed)
      (Steps name s ⟨kept, some d⟩ d.owner (.read off amt) .died) s.vfs := by
  obtain ⟨drafts, named⟩ := shows.draft rfl
  have after : ∀ {v' : Vfs Page}, Aside d.owner s.vfs v' → Owns v' d.owner →
      (v'.files d.owner).still = (s.vfs.files d.owner).still → v'.store = s.vfs.store →
      Shows name (after s v' d.owner true) ⟨kept, some d⟩ := by
    intro v' aside owns still store
    obtain ⟨edit, -, same⟩ := edit_of_read aside owns still store
    apply shows.owned rfl aside owns edit.edited.fence edit.edited.group (shows.same store)
    · rw [same, edit.edited.size]
      exact drafts.promised
    · intro i b there
      unfold Dropped
      rw [edit.edited.cut]
      exact drafts.kept there
    · rw [edit.edited.cut]
      exact drafts.cut
  apply Ends.bind
  apply (ends_fdbRead drafts.owns amt off).mono
  · rintro a v' ⟨⟨bytes, -⟩, aside, owns, still, store⟩
    refine ⟨_, .read ?_, after aside owns still store⟩
    rw [bytes]
    refine ⟨?_, ?_⟩
    · unfold bytesOf
      rw [List.length_map, List.length_range]
    · intro j b inside there
      unfold bytesOf
      rw [List.getElem?_map, List.getElem?_range inside]
      exact congrArg some (drafts.promised.byte there)
  · rintro v' ⟨aside, owns, still, store⟩
    exact ⟨_, .readFailed, after aside owns still store⟩
  · exact fun _ h => h.elim

theorem owner_sync :
    Ends (runCall d.owner name .sync)
      (fun bytes => Steps name s ⟨kept, some d⟩ d.owner .sync (.returned bytes))
      (Steps name s ⟨kept, some d⟩ d.owner .sync .failed)
      (Steps name s ⟨kept, some d⟩ d.owner .sync .died) s.vfs := by
  obtain ⟨drafts, named⟩ := shows.draft rfl
  have whole : ∀ {i b}, d.seen.byte i = some b →
      merged (s.vfs.files d.owner) (s.vfs.store.dbs (s.vfs.files d.owner).name) (i / pageSize) =
        seen s.vfs d.owner (i / pageSize) := by
    intro i b there
    unfold merged
    rw [if_neg (drafts.kept there)]
    rfl
  have sent : ∀ {v' : Vfs Page}, After s.vfs v' d.owner →
      Promised d.seen (image (v'.store.dbs name)) ((v'.store.dbs name).size.getD 0) := by
    intro v' after
    unfold After at after
    rw [named] at after
    refine ⟨drafts.promised.size.trans after.size.symm, ?_⟩
    intro i b there
    have page := whole there
    rw [named] at page
    rw [byteOf_congr ((after.pages _).trans page)]
    exact drafts.promised.byte there
  apply Ends.bind
  apply (ends_flush drafts.owns drafts.alone).mono
  · rintro _ v' ⟨aside, owns, flushed, after⟩
    refine ⟨_, .synced, ?_⟩
    have name' : (v'.files d.owner).name = name := flushed.name.trans named
    have shown : seen v' d.owner = image (v'.store.dbs name) := by
      funext p
      unfold seen view
      rw [flushed.clean, name']
      rfl
    apply shows.owned rfl aside owns flushed.fence flushed.alone (sent after)
    · rw [shown, flushed.size]
      exact ⟨drafts.promised.size, (sent after).byte⟩
    · intro i b _
      unfold Dropped
      rw [flushed.uncut]
      rintro ⟨_, here, _⟩
      cases here
    · rw [flushed.uncut]
      rfl
  · rintro v' ⟨aside, owns, file, before⟩
    refine ⟨_, .syncFailed, ?_⟩
    have shown : ∀ p, seen v' d.owner p = seen s.vfs d.owner p := by
      intro p
      unfold seen view
      rw [file, before.pages]
    apply shows.owned rfl aside owns (by rw [file]) (by rw [file]) (shows.unsent before)
    · rw [file]
      refine ⟨drafts.promised.size, ?_⟩
      intro i b there
      rw [byteOf_congr (shown _)]
      exact drafts.promised.byte there
    · rw [file]
      exact drafts.kept
    · rw [file]
      exact drafts.cut
  · intro v' torn
    rcases torn.either with before | after
    · exact ⟨_, .syncDied (Or.inl rfl), shows.gone rfl torn.left (shows.unsent before)⟩
    · exact ⟨_, .syncDied (Or.inr rfl), shows.gone rfl torn.left (sent after)⟩

theorem owner_fold :
    Ends (runCall d.owner name .fold)
      (fun bytes => Steps name s ⟨kept, some d⟩ d.owner .fold (.returned bytes))
      (Steps name s ⟨kept, some d⟩ d.owner .fold .failed)
      (Steps name s ⟨kept, some d⟩ d.owner .fold .died) s.vfs := by
  obtain ⟨drafts, named⟩ := shows.draft rfl
  have keeps : ∀ {v' : Vfs Page}, Refolded (s.vfs.store.dbs (s.vfs.files d.owner).name)
      (v'.store.dbs (s.vfs.files d.owner).name) (pagesFor (s.vfs.files d.owner).size) →
      Promised (kept.upTo (pageEnd pageSize d.seen.size)) (image (v'.store.dbs name))
        ((v'.store.dbs name).size.getD 0) := by
    intro v' refolded
    rw [named] at refolded
    rw [drafts.promised.size]
    exact shows.kept.upTo (by rw [refolded.size]) refolded.kept
  have back : ∀ {v' : Vfs Page}, Compacted s.vfs v' d.owner → Shows name (after s v' d.owner true)
      ⟨kept.upTo (pageEnd pageSize d.seen.size),
        some { d with seen := d.seen.upTo (pageEnd pageSize d.seen.size) }⟩ := by
    rintro v' ⟨aside, owns, buffered, refolded⟩
    apply shows.owned rfl aside owns buffered.fence buffered.group (keeps refolded)
    · rw [buffered.size, drafts.promised.size]
      apply drafts.promised.upTo rfl
      intro p short
      unfold seen view
      rw [buffered.dirty, buffered.name, refolded.kept short]
    · intro i b there
      unfold Dropped
      rw [buffered.cut]
      change (if _ then _ else _) = some b at there
      split at there
      · exact drafts.kept there
      · cases there
    · rw [buffered.cut]
      exact drafts.cut
  apply Ends.bind
  apply (ends_weftCompactDue drafts.owns).mono
  · intro _ v' compacted
    exact ⟨_, .folded (Or.inl rfl), back compacted⟩
  · intro v' compacted
    exact ⟨_, .folded (Or.inr rfl), back compacted⟩
  · rintro v' ⟨aside, decided, shards, refolded⟩
    have left : Left s.vfs v' d.owner := ⟨aside, decided, shards, refolded.sane, refolded.fence⟩
    exact ⟨_, .foldDied, shows.gone rfl left (keeps refolded)⟩

theorem owner_close :
    Ends (runCall d.owner name .close)
      (fun bytes => Steps name s ⟨kept, some d⟩ d.owner .close (.returned bytes))
      (Steps name s ⟨kept, some d⟩ d.owner .close .failed)
      (Steps name s ⟨kept, some d⟩ d.owner .close .died) s.vfs := by
  obtain ⟨drafts, named⟩ := shows.draft rfl
  have sends : ∀ {v' : Vfs Page}, Sent s.vfs v' d.owner →
      Promised (d.seen.upTo (pageEnd pageSize d.seen.size)) (image (v'.store.dbs name))
        ((v'.store.dbs name).size.getD 0) := by
    intro v' sent
    have size := sent.size
    have pages : ∀ {p}, p < pagesFor (s.vfs.files d.owner).size → _ := sent.pages
    rw [named] at size pages
    refine ⟨drafts.promised.size.trans size.symm, ?_⟩
    intro i b there
    change (if _ then _ else _) = some b at there
    split at there
    · rename_i below
      rw [drafts.promised.size] at below
      have page := pages (page_of_pageEnd below)
      unfold merged at page
      rw [if_neg (drafts.kept there), ← named] at page
      rw [← named, byteOf_congr page]
      exact drafts.promised.byte there
    · cases there
  have short : ∀ {v' : Vfs Page} {o : FileOutcome UInt8}, o = .failed ∨ o = .died → Left s.vfs v' d.owner →
      Before s.vfs v' d.owner ∨ Sent s.vfs v' d.owner →
      ∃ m', Volume.Step pageSize ⟨kept, some d⟩ d.owner .close o m' ∧
        Shows name (after s v' d.owner false) m' := by
    intro v' o short left either
    rcases either with before | sent
    · exact ⟨_, .notClosed short (Or.inl rfl), shows.gone rfl left (shows.unsent before)⟩
    · exact ⟨_, .notClosed short (Or.inr rfl), shows.gone rfl left (sends sent)⟩
  apply Ends.bind
  apply (ends_fdbClose drafts.owns drafts.alone).mono
  · rintro _ v' ⟨left, sent⟩
    exact ⟨_, .closed, shows.gone rfl left (sends sent)⟩
  · rintro v' ⟨left, either⟩
    exact short (Or.inl rfl) left either
  · rintro v' ⟨left, either⟩
    exact short (Or.inr rfl) left either

theorem owner_truncate (size : Nat) :
    Ends (runCall d.owner name (.truncate size))
      (fun bytes => Steps name s ⟨kept, some d⟩ d.owner (.truncate size) (.returned bytes))
      (Steps name s ⟨kept, some d⟩ d.owner (.truncate size) .failed)
      (Steps name s ⟨kept, some d⟩ d.owner (.truncate size) .died) s.vfs := by
  obtain ⟨drafts, named⟩ := shows.draft rfl
  let cut : FdbFile Page → FdbFile Page := fun f =>
    let npages := pagesFor size
    raReset { f with
      dirty := f.dirty.take (dirtySlot f.dirty npages)
      truncPages := cutBelow npages f.truncPages
      size := size }
  have file : (s.vfs.onFile d.owner cut).files d.owner = cut (s.vfs.files d.owner) := onFile_self _ _ _
  have synced := drafts.owns.synced
  have sorted := synced.sorted
  have shown : ∀ p, p < pagesFor size → seen (s.vfs.onFile d.owner cut) d.owner p = seen s.vfs d.owner p := by
    intro p below
    unfold seen view
    rw [file]
    change (rowOf ((s.vfs.files d.owner).dirty.take _) p).or _ = _
    rw [rowOf_take_dirtySlot sorted, if_pos below]
    rfl
  apply Ends.bind
  change Steps _ _ _ _ _ _ (s.vfs.onFile d.owner cut)
  refine ⟨_, .truncated, ?_⟩
  apply shows.owned rfl (aside_onFile rfl) _ (by rw [file]; rfl) (by rw [file]; rfl) shows.kept
  · refine ⟨by rw [file]; rfl, ?_⟩
    intro i b there
    change (if _ then _ else _) = some b at there
    split at there
    · rename_i below
      rw [byteOf_congr (shown _ (page_of_pageEnd below))]
      exact drafts.promised.byte there
    · cases there
  · intro i b there
    rw [file]
    change (if _ then _ else _) = some b at there
    split at there
    · rename_i below
      have short := page_of_pageEnd below
      have early := drafts.kept there
      rintro ⟨n, here, past⟩
      change cutBelow (pagesFor size) (s.vfs.files d.owner).truncPages = some n at here
      cases trunc : (s.vfs.files d.owner).truncPages with
      | none =>
          rw [trunc] at here
          cases here
          exact absurd past (Nat.not_le.mpr short)
      | some n' =>
          rw [trunc] at here
          have kept : ¬ n' ≤ i / pageSize := fun le => early ⟨n', trunc, le⟩
          have value := Option.some.inj here
          split at value <;> omega
    · cases there
  · rw [file, drafts.cut]
    change _ = (cutBelow (pagesFor size) (s.vfs.files d.owner).truncPages).map _
    cases (s.vfs.files d.owner).truncPages with
    | none => rfl
    | some n =>
        change some (min (pageEnd pageSize size) (n * pageSize)) = some (_ * pageSize)
        rw [pageEnd_eq]
        congr 1
        split
        · exact Nat.min_eq_left (Nat.mul_le_mul_right _ (Nat.le_of_lt ‹_›))
        · exact Nat.min_eq_right (Nat.mul_le_mul_right _ (Nat.not_lt.mp ‹_›))
  · constructor
    · rw [file]
      refine ⟨synced.fence, synced.head, synced.size, synced.newest, synced.logn, window_empty _ rfl, ?_⟩
      exact List.Pairwise.sublist (List.take_sublist _ _) sorted
    · rw [file]
      exact drafts.owns.sane
    · exact drafts.owns.decided
    · exact drafts.owns.shards

end Owner

/-! ### Opening -/

/-- Whoever had the file open is a stranger to it once another has opened it. -/
theorem Shows.overtaken {name : DbName} {s : System} {m : Volume UInt8} {v' : Vfs Page} {g : FdbFile Page}
    (shows : Shows name s m) (opened : Opened name s.vfs.store v'.store g) {i : Nat} (alive : s.live i = true)
    (file : v'.files i = s.vfs.files i) : Stranger name v' i := by
  have fence : (v'.store.dbs name).fence = some g.fence := opened.synced.fence
  by_cases mine : ∃ d, m.draft = some d ∧ d.owner = i
  · obtain ⟨d, draft, rfl⟩ := mine
    obtain ⟨drafts, named⟩ := shows.draft draft
    have own := drafts.owns.synced.fence
    rw [named] at own
    refine ⟨by rw [file, named], by rw [file, drafts.alone], g.fence, fence, ?_⟩
    rw [file]
    exact opened.newer _ own
  · have stranger := shows.strangers alive fun d draft here => mine ⟨d, draft, here⟩
    obtain ⟨n, there, older⟩ := stranger.older
    refine ⟨by rw [file, stranger.named], by rw [file, stranger.alone], g.fence, fence, ?_⟩
    rw [file]
    exact Nat.lt_trans older (opened.newer n there)

/-- What is kept is kept by opening. -/
theorem Shows.still {name : DbName} {s : System} {m : Volume UInt8} {v' : Vfs Page}
    (shows : Shows name s m) (opens : Opens name s.vfs.store v'.store) :
    Promised m.kept (image (v'.store.dbs name)) ((v'.store.dbs name).size.getD 0) := by
  refine ⟨by rw [opens.size, shows.kept.size], ?_⟩
  intro i b there
  rw [byteOf_congr (opens.image _)]
  exact shows.kept.byte there

/-- A handle on which opening failed is gone, and with it its draft. -/
theorem Shows.notOpened {name : DbName} {s : System} {m : Volume UInt8} {v' : Vfs Page} {k : Nat}
    {o : FileOutcome UInt8} (shows : Shows name s m) (short : o = .failed ∨ o = .died)
    (store : v'.store = s.vfs.store) (files : v'.files = s.vfs.files) (group : v'.group = s.vfs.group)
    (decided : Decided v'.attempts) (shards : ShardsRead v'.reads) :
    ∃ m', Volume.Step pageSize m k .reopen o m' ∧ Shows name (after s v' k false) m' := by
  obtain ⟨kept, draft⟩ := m
  by_cases mine : ∃ d, draft = some d ∧ d.owner = k
  · obtain ⟨d, rfl, rfl⟩ := mine
    refine ⟨_, .notOpened short (Or.inl rfl), ?_⟩
    obtain ⟨drafts, named⟩ := shows.draft rfl
    apply shows.gone rfl _ (shows.same store)
    refine ⟨⟨by rw [files], fun _ _ => by rw [files], group, ?_⟩, decided, shards, ?_, ?_⟩
    · rw [store]
      exact Elsewhere.refl _ _
    · rw [store]
      exact drafts.owns.sane
    · rw [store]
  · have other : ∀ d, draft = some d → d.owner ≠ k := fun d there here => mine ⟨d, there, here⟩
    refine ⟨_, .notOpened short (Or.inr ⟨rfl, other⟩), ?_⟩
    refine shows.idle other (fun stay => ?_) ?_
    · cases stay
    · exact ⟨store, fun _ _ => by rw [files], by rw [files], by rw [files], by rw [files], group,
        fun _ => decided, fun _ => shards⟩

/-- What opening a file does, whoever does it. -/
theorem ends_reopen {name : DbName} {s : System} {m : Volume UInt8} (shows : Shows name s m) (k : Nat) :
    Ends (runCall k name .reopen)
      (fun bytes => Steps name s m k .reopen (.returned bytes))
      (Steps name s m k .reopen .failed)
      (Steps name s m k .reopen .died) s.vfs := by
  apply Ends.bind
  apply (ends_vfsOpen shows.sane shows.decided shows.shards shows.settled).mono
  · rintro _ v' ⟨opened, files, group, decided, shards⟩
    obtain ⟨kept, draft⟩ := m
    refine ⟨_, .opened, opened.opens.sane, decided, shards,
      settled_of_records opened.opens.elsewhere.records shows.settled, shows.still opened.opens, ?_, ?_⟩
    · intro d there
      cases there
      have shown : seen v' k = image (v'.store.dbs name) := by
        funext p
        unfold seen view
        rw [opened.clean, opened.named]
        rfl
      refine ⟨⟨live_self, ?_, opened.alone, ?_, ?_, ?_⟩, opened.named⟩
      · constructor
        · change Synced (v'.files k) (v'.store.dbs (v'.files k).name)
          rw [opened.named]
          exact opened.synced
        · change Sane (v'.store.dbs (v'.files k).name)
          rw [opened.named]
          exact opened.opens.sane
        · exact decided
        · exact shards
      · change Promised kept (seen v' k) (v'.files k).size
        rw [shown, opened.size, ← opened.opens.size]
        exact shows.still opened.opens
      · intro i b _
        change ¬ Dropped (v'.files k) _
        unfold Dropped
        rw [opened.uncut]
        rintro ⟨_, here, _⟩
        cases here
      · change none = (v'.files k).truncPages.map _
        rw [opened.uncut]
        rfl
    · intro i alive others
      have other : i ≠ k := fun here => others _ rfl here.symm
      rw [live_after other] at alive
      exact shows.overtaken opened alive (files i other)
  · rintro v' ⟨store, files, group, decided, shards⟩
    exact shows.notOpened (Or.inl rfl) store files group decided shards
  · rintro v' ⟨landed, files, group, decided, shards⟩
    rcases landed with store | ⟨g, opened⟩
    · exact shows.notOpened (Or.inr rfl) store files group decided shards
    · obtain ⟨kept, draft⟩ := m
      refine ⟨_, .notOpened (Or.inr rfl) (Or.inl rfl), opened.opens.sane, decided, shards,
        settled_of_records opened.opens.elsewhere.records shows.settled, shows.still opened.opens,
        fun there => (by cases there), ?_⟩
      intro i alive _
      by_cases here : i = k
      · rw [here] at alive
        change (if k = k then false else _) = true at alive
        rw [if_pos rfl] at alive
        cases alive
      · rw [live_after here] at alive
        exact shows.overtaken opened alive (by rw [files])

/-! ### Runs -/

/-- Every call is a step of the file. -/
theorem ends_runCall {name : DbName} {s : System} {m : Volume UInt8} (shows : Shows name s m) {k : Nat}
    {c : FileCall UInt8} (may : s.live k = true ∨ opens c = true) :
    Ends (runCall k name c) (fun bytes => Steps name s m k c (.returned bytes)) (Steps name s m k c .failed)
      (Steps name s m k c .died) s.vfs := by
  cases again : opens c with
  | true =>
      cases c with
      | reopen => exact ends_reopen shows k
      | _ => cases again
  | false =>
      have live : s.live k = true := by
        rcases may with live | open_
        · exact live
        · rw [again] at open_
          cases open_
      by_cases mine : ∃ d, m.draft = some d ∧ d.owner = k
      · obtain ⟨kept, draft⟩ := m
        obtain ⟨d, rfl, rfl⟩ := mine
        cases c with
        | write off data => exact owner_write shows off data
        | truncate size => exact owner_truncate shows size
        | read off amt => exact owner_read shows off amt
        | sync => exact owner_sync shows
        | fold => exact owner_fold shows
        | close => exact owner_close shows
        | reopen => cases again
      · have other : ∀ d, m.draft = some d → d.owner ≠ k := fun d there here => mine ⟨d, there, here⟩
        have opened : c ≠ .reopen := by
          rintro rfl
          cases again
        have lost := (shows.strangers live other).lost
        apply (ends_stranger lost c again).mono
        · exact fun _ v' idle => ⟨m, .stranger other opened, shows.idle other (fun _ => live) idle⟩
        · exact fun v' idle => ⟨m, .stranger other opened, shows.idle other (fun _ => live) idle⟩
        · exact fun v' idle => ⟨m, .stranger other opened, shows.idle other (fun _ => live) idle⟩

theorem shows_step {name : DbName} {s : System} {m : Volume UInt8} (shows : Shows name s m) {k : Nat}
    {c : FileCall UInt8} (may : s.live k = true ∨ opens c = true) :
    ∃ m', Volume.Step pageSize m k c (s.step name k c).1 m' ∧ Shows name (s.step name k c).2 m' := by
  have ends := ends_runCall shows may
  unfold Ends at ends
  unfold System.step
  rcases ran : runCall k name c s.vfs with ⟨_ | _ | _, v'⟩ <;> rw [ran] at ends <;> exact ends

/-- Any calls by any processes are a run of the file. -/
theorem shows_run {name : DbName} (calls : List (Nat × FileCall UInt8)) :
    ∀ {s : System} {m : Volume UInt8}, Shows name s m →
      ∃ m', Volume.Run pageSize m (s.run name calls).1 m' ∧ Shows name (s.run name calls).2 m' := by
  induction calls with
  | nil => exact fun shows => ⟨_, .done, shows⟩
  | cons call rest ih =>
      intro s m shows
      obtain ⟨k, c⟩ := call
      rw [System.run]
      split
      · rename_i may
        rw [Bool.or_eq_true] at may
        obtain ⟨m', first, shows'⟩ := shows_step shows may
        obtain ⟨m'', later, shows''⟩ := ih shows'
        exact ⟨m'', .step first later, shows''⟩
      · exact ih shows

/-- The file that a database holds, with every byte of it promised. -/
def fileOfRows (db : Db Page) : Contents UInt8 where
  size := db.size.getD 0
  byte i := some (byteOf (image db) i)

/-- A database that nobody has opened, and transactions that land without a word and are tried again. -/
def unopened : Vfs Page where
  attempts := [.unknown, .again, .lands, .unknown, .lands, .fatal, .lands, .dies]
  reads := [{ gets := [true] }, { index := [.cut 1] }]
  files := fun _ => { name := world }

/-- Two processes that take the file from each other. -/
def takeovers : List (Nat × FileCall UInt8) :=
  [(0, .reopen), (0, .write 0 [1, 2]), (0, .sync), (1, .reopen), (0, .write 4096 [3]), (1, .read 0 2),
    (1, .truncate 1), (0, .sync), (1, .fold), (1, .close), (0, .reopen)]

end GyreWard.Fdb
