/-
Module: GyreWard.Proofs.FdbBytes
Purpose: A read gives the bytes of the file where they stand, and a write changes those it is for and no others,
  whatever pages they run across.
Trusted boundary: none
Main exports: byteOf, ends_fdbRead, ends_fdbWrite
-/
import GyreWard.Proofs.FdbFold

namespace GyreWard.Fdb

open Lib
open Lib.Action (Ends)

/-! ### The bytes of a page -/

/-- The byte at a place in a page. -/
def Page.at (page : Page) (i : Nat) : UInt8 := page.bytes.getD i 0

theorem Page.at_of {bytes : List UInt8} {i : Nat} (inside : i < pageSize) :
    (Page.of bytes).at i = bytes.getD i 0 := by
  unfold Page.at Page.of
  rw [List.getD_eq_getElem?_getD, List.getD_eq_getElem?_getD, List.getElem?_take_of_lt inside]
  by_cases short : i < bytes.length
  · rw [List.getElem?_append_left short]
  · have past : bytes[i]? = none := List.getElem?_eq_none (Nat.not_lt.mp short)
    rw [List.getElem?_append_right (Nat.not_lt.mp short), past, List.getElem?_replicate]
    split <;> rfl

theorem Page.slice_eq {page : Page} {within want : Nat} (fits : within + want ≤ pageSize) :
    page.slice within want = (List.range want).map fun j => page.at (within + j) := by
  have full := page.full
  apply List.ext_getElem?
  intro j
  unfold Page.slice
  by_cases inside : j < want
  · rw [List.getElem?_take_of_lt inside, List.getElem?_drop, List.getElem?_map, List.getElem?_range inside]
    have there : within + j < page.bytes.length := by omega
    rw [Option.map_some, Page.at, List.getD_eq_getElem?_getD, List.getElem?_eq_getElem there]
    rfl
  · rw [List.getElem?_eq_none, List.getElem?_eq_none]
    · simpa using inside
    · rw [List.length_take]
      omega

theorem Page.at_splice {page : Page} {within : Nat} {data : List UInt8} {i : Nat} (inside : i < pageSize)
    (fits : within + data.length ≤ pageSize) :
    (page.splice within data).at i =
      if within ≤ i ∧ i < within + data.length then data.getD (i - within) 0 else page.at i := by
  have full := page.full
  have front : (page.bytes.take within).length = within := by
    rw [List.length_take]
    omega
  unfold Page.splice
  rw [Page.at_of inside, List.append_assoc, Page.at, List.getD_eq_getElem?_getD, List.getD_eq_getElem?_getD,
    List.getD_eq_getElem?_getD]
  by_cases early : i < within
  · have outside : ¬ (within ≤ i ∧ i < within + data.length) := by omega
    rw [if_neg outside, List.getElem?_append_left (by omega), List.getElem?_take_of_lt early]
  · rw [List.getElem?_append_right (by omega), front]
    by_cases new : i < within + data.length
    · rw [if_pos ⟨by omega, new⟩, List.getElem?_append_left (by omega)]
    · have outside : ¬ (within ≤ i ∧ i < within + data.length) := fun both => new both.2
      have place : within + data.length + (i - within - data.length) = i := by omega
      rw [if_neg outside, List.getElem?_append_right (by omega), List.getElem?_drop, place]

/-! ### The bytes of a file -/

/-- The byte at a place in a file; a page that is not there is zeros. -/
def byteOf (pages : Nat → Option Page) (i : Nat) : UInt8 :=
  match pages (i / pageSize) with
  | some page => page.at (i % pageSize)
  | none => 0

/-- The bytes from one place on. -/
def bytesOf (pages : Nat → Option Page) (off amt : Nat) : List UInt8 :=
  (List.range amt).map fun j => byteOf pages (off + j)

theorem bytesOf_append (pages : Nat → Option Page) (off first rest : Nat) :
    bytesOf pages off (first + rest) = bytesOf pages off first ++ bytesOf pages (off + first) rest := by
  unfold bytesOf
  rw [List.range_add, List.map_append, List.map_map]
  congr 1
  apply List.map_congr_left
  intro j _
  simp [Nat.add_assoc]

/-- Inside a page the page's number stands still. -/
theorem page_of_place {at_ j : Nat} (inside : at_ % pageSize + j < pageSize) :
    (at_ + j) / pageSize = at_ / pageSize ∧ (at_ + j) % pageSize = at_ % pageSize + j := by
  have split := Nat.div_add_mod at_ pageSize
  have place : at_ + j = at_ % pageSize + j + pageSize * (at_ / pageSize) := by omega
  constructor
  · rw [place, Nat.add_mul_div_left _ _ (by decide), Nat.div_eq_of_lt inside, Nat.zero_add]
  · rw [place, Nat.add_mul_mod_self_left, Nat.mod_eq_of_lt inside]

/-- What one piece of a read gives. -/
theorem bytesOf_piece {pages : Nat → Option Page} {at_ want : Nat} (fits : at_ % pageSize + want ≤ pageSize) :
    bytesOf pages at_ want =
      match pages (at_ / pageSize) with
      | some page => page.slice (at_ % pageSize) want
      | none => List.replicate want 0 := by
  have each : ∀ j, j < want → byteOf pages (at_ + j) =
      match pages (at_ / pageSize) with
      | some page => page.at (at_ % pageSize + j)
      | none => 0 := by
    intro j inside
    obtain ⟨same, within⟩ := @page_of_place at_ j (by omega)
    unfold byteOf
    rw [same, within]
  cases there : pages (at_ / pageSize) with
  | some page =>
      dsimp only
      rw [Page.slice_eq fits]
      apply List.map_congr_left
      intro j mem
      rw [each j (List.mem_range.mp mem), there]
  | none =>
      dsimp only
      have zeros : bytesOf pages at_ want = (List.range want).map fun _ => 0 := by
        apply List.map_congr_left
        intro j mem
        rw [each j (List.mem_range.mp mem), there]
      rw [zeros, List.map_const', List.length_range]

/-! ### Reading -/

section Reading

variable {db : Db Page} {f : FdbFile Page}

/-- The page that a read looks at is the one that the open file has. -/
theorem ends_pageToRead {r : Reading Page} (owned : Owned db) (synced : Synced f db) (reads : Reads db f r)
    (pgno : Nat) :
    Ends (pageToRead db pgno) (fun page r' => page = view f db pgno ∧ Reads db f r') (Reads db f)
      (fun _ => False) r := by
  have dirty : r.file.dirty = f.dirty := field_of_still FdbFile.dirty (fun _ => rfl) reads.still
  unfold pageToRead
  apply Ends.bind
  rw [Ends.read_iff, dirty, findDirty_eq synced.sorted]
  unfold view
  cases rowOf f.dirty pgno with
  | some page => exact ⟨rfl, reads⟩
  | none =>
      apply (ends_pageFromStore owned reads pgno).mono _ (fun _ h => h) fun _ h => h
      rintro page r' ⟨rfl, reads'⟩
      exact ⟨synced.stored pgno, reads'⟩

/-- The pieces of a range give its bytes, and whether a page of it is missing. -/
theorem ends_readPieces (owned : Owned db) (synced : Synced f db) (n : Nat) :
    ∀ {at_ left : Nat} {r : Reading Page}, left ≤ n → Reads db f r →
      Ends (readPieces db (pieces n at_ left))
        (fun a r' => (a.1 = bytesOf (view f db) at_ left ∧
          (a.2 = true ↔ ∃ j, j < left ∧ view f db ((at_ + j) / pageSize) = none)) ∧ Reads db f r')
        (Reads db f) (fun _ => False) r := by
  induction n with
  | zero =>
      intro at_ left r enough reads
      have nothing : left = 0 := Nat.le_zero.mp enough
      subst nothing
      exact ⟨⟨rfl, by simp⟩, reads⟩
  | succ n ih =>
      intro at_ left r enough reads
      by_cases nothing : left = 0
      · subst nothing
        rw [pieces_none]
        exact ⟨⟨rfl, by simp⟩, reads⟩
      · have small := Nat.mod_lt at_ (show 0 < pageSize by decide)
        rw [pieces, if_neg nothing]
        dsimp only
        generalize cut : min left (pageSize - at_ % pageSize) = want
        have fits : at_ % pageSize + want ≤ pageSize := by omega
        have split : left = want + (left - want) := by omega
        have bytes := bytesOf_append (view f db) at_ want (left - want)
        rw [← split, bytesOf_piece fits] at bytes
        have missing : (∃ j, j < left ∧ view f db ((at_ + j) / pageSize) = none) ↔
            view f db (at_ / pageSize) = none ∨
              ∃ j, j < left - want ∧ view f db ((at_ + want + j) / pageSize) = none := by
          constructor
          · rintro ⟨j, inside, hole⟩
            by_cases early : j < want
            · left
              rwa [(@page_of_place at_ j (by omega)).1] at hole
            · right
              refine ⟨j - want, by omega, ?_⟩
              rwa [show at_ + want + (j - want) = at_ + j by omega]
          · rintro (here | ⟨j, inside, hole⟩)
            · exact ⟨0, Nat.pos_of_ne_zero nothing, here⟩
            · exact ⟨want + j, by omega, by rwa [← Nat.add_assoc]⟩
        rw [readPieces]
        apply (ends_pageToRead owned synced reads _).andThen _ (fun _ h => h) fun _ h => h
        rintro page r₁ ⟨rfl, reads₁⟩
        apply (ih (by omega) reads₁).andThen _ (fun _ h => h) fun _ h => h
        rintro ⟨later, short⟩ r₂ ⟨⟨rest, gap⟩, reads₂⟩
        dsimp only at rest gap ⊢
        rw [missing, bytes]
        cases there : view f db (at_ / pageSize) with
        | some page =>
            refine ⟨⟨?_, ?_⟩, reads₂⟩
            · rw [rest]
            · simpa using gap
        | none =>
            refine ⟨⟨?_, ?_⟩, reads₂⟩
            · rw [rest]
            · simp

end Reading

/-- A read gives the bytes that the open file has, zeros where it has none, and says whether a page is missing. -/
theorem ends_fdbRead {v : Vfs Page} {h : Nat} (owns : Owns v h) (amt off : Nat) :
    Ends (fdbRead h amt off)
      (fun a v' => (a.1 = bytesOf (view (v.files h) (v.store.dbs (v.files h).name)) off amt ∧
          (a.2 = true ↔ ∃ j, j < amt ∧
            view (v.files h) (v.store.dbs (v.files h).name) ((off + j) / pageSize) = none)) ∧
        Aside h v v' ∧ Owns v' h ∧ (v'.files h).still = (v.files h).still ∧ v'.store = v.store)
      (fun v' => Aside h v v' ∧ Owns v' h ∧ (v'.files h).still = (v.files h).still ∧ v'.store = v.store)
      (fun _ => False) v := by
  unfold fdbRead
  apply Ends.bind
  apply ends_runRead owns
  intro r reads
  exact ends_readPieces owns.sane.owned owns.synced amt (Nat.le_refl _) reads

/-! ### Writing -/

/-- What a write leaves of the handle. -/
structure Edited (f g : FdbFile Page) : Prop where
  name : g.name = f.name
  fence : g.fence = f.fence
  head : g.head = f.head
  size : g.size = f.size
  sent : g.sentSize = f.sentSize
  cut : g.truncPages = f.truncPages
  group : g.groupTxnid = f.groupTxnid

theorem edited_of_still {f g : FdbFile Page} (still : g.still = f.still) : Edited f g :=
  have moved := buffered_of_still still
  ⟨moved.name, moved.fence, moved.head, moved.size, moved.sent, moved.cut, moved.group⟩

theorem Edited.trans {f g k : FdbFile Page} (first : Edited f g) (second : Edited g k) : Edited f k :=
  ⟨second.name.trans first.name, second.fence.trans first.fence, second.head.trans first.head,
    second.size.trans first.size, second.sent.trans first.sent, second.cut.trans first.cut,
    second.group.trans first.group⟩

/-- What a write leaves alone. -/
structure Edit (v v' : Vfs Page) (h : Nat) : Prop where
  aside : Aside h v v'
  owns : Owns v' h
  edited : Edited (v.files h) (v'.files h)
  store : v'.store = v.store

/-- The pages that an open file has. -/
def seen (v : Vfs Page) (h : Nat) : Nat → Option Page := view (v.files h) (v.store.dbs (v.files h).name)

theorem Edit.trans {v v' v'' : Vfs Page} {h : Nat} (first : Edit v v' h) (second : Edit v' v'' h) :
    Edit v v'' h :=
  ⟨first.aside.trans second.aside, second.owns, first.edited.trans second.edited,
    second.store.trans first.store⟩

theorem Edit.refl {v : Vfs Page} {h : Nat} (owns : Owns v h) : Edit v v h :=
  ⟨⟨rfl, fun _ _ => rfl, rfl, Elsewhere.refl _ _⟩, owns, ⟨rfl, rfl, rfl, rfl, rfl, rfl, rfl⟩, rfl⟩

theorem edit_of_read {v v' : Vfs Page} {h : Nat} (aside : Aside h v v') (owns : Owns v' h)
    (still : (v'.files h).still = (v.files h).still) (store : v'.store = v.store) :
    Edit v v' h ∧ (v'.files h).dirty = (v.files h).dirty ∧ seen v' h = seen v h := by
  have dirty := field_of_still FdbFile.dirty (fun _ => rfl) still
  refine ⟨⟨aside, owns, edited_of_still still, store⟩, dirty, ?_⟩
  funext p
  unfold seen view
  rw [dirty, store, aside.name]

/-- A change of the buffer that keeps it in order. -/
theorem edit_dirty {v : Vfs Page} {h : Nat} (owns : Owns v h)
    (change : List (Nat × Page) → List (Nat × Page)) (sorted : Sorted (change (v.files h).dirty)) :
    Edit v (v.onFile h fun f => { f with dirty := change f.dirty }) h := by
  refine ⟨aside_onFile rfl, ?_, ?_, rfl⟩
  · constructor
    · rw [onFile_self]
      have synced := owns.synced
      exact ⟨synced.fence, synced.head, synced.size, synced.newest, synced.logn, synced.window, sorted⟩
    · rw [onFile_self]
      exact owns.sane
    · exact owns.decided
    · exact owns.shards
  · rw [onFile_self]
    exact ⟨rfl, rfl, rfl, rfl, rfl, rfl, rfl⟩

theorem rowOf_patchDirty {dirty : List (Nat × Page)} (pgno within : Nat) (data : List UInt8) (p : Nat) :
    rowOf (patchDirty dirty pgno within data) p =
      if p = pgno then (rowOf dirty p).map fun page => page.splice within data else rowOf dirty p := by
  unfold patchDirty rowOf
  induction dirty with
  | nil => simp
  | cons r rest ih =>
      rw [List.map_cons]
      by_cases here : r.1 = p
      · subst here
        by_cases this : r.1 = pgno <;> simp [this]
      · have front : (if r.1 = pgno then (r.1, r.2.splice within data) else r).1 = r.1 := by split <;> rfl
        rw [List.find?_cons_of_neg (by simpa [front] using here),
          List.find?_cons_of_neg (by simpa using here), ih]

theorem sorted_patchDirty {dirty : List (Nat × Page)} (sorted : Sorted dirty) (pgno within : Nat)
    (data : List UInt8) : Sorted (patchDirty dirty pgno within data) := by
  apply sorted_map sorted
  intro r
  split <;> rfl

/-- The bytes of a page that is read whole. -/
theorem at_of_bytesOf {pages : Nat → Option Page} {pgno i : Nat} (inside : i < pageSize) :
    (Page.of (bytesOf pages (pgno * pageSize) pageSize)).at i = byteOf pages (pgno * pageSize + i) := by
  rw [Page.at_of inside, bytesOf, List.getD_eq_getElem?_getD, List.getElem?_map, List.getElem?_range inside]
  rfl

/-- What is put into the buffer for a page. -/
theorem ends_storedPage {v : Vfs Page} {h : Nat} (owns : Owns v h) (pgno : Nat) (whole : Bool) :
    Ends (storedPage h pgno whole)
      (fun page v' => (Edit v v' h ∧ (v'.files h).dirty = (v.files h).dirty ∧ seen v' h = seen v h) ∧
        (whole = false → ∀ i, i < pageSize → page.at i = byteOf (seen v h) (pgno * pageSize + i)))
      (fun v' => Edit v v' h ∧ seen v' h = seen v h) (fun _ => False) v := by
  unfold storedPage
  apply Ends.ite
  · intro overwritten
    refine ⟨⟨Edit.refl owns, rfl, rfl⟩, ?_⟩
    intro kept
    rw [overwritten] at kept
    cases kept
  · intro _
    apply Ends.bind
    apply (ends_fdbRead owns pageSize (pgno * pageSize)).mono
    · rintro read v' ⟨⟨bytes, -⟩, aside, owns', still, store⟩
      refine ⟨edit_of_read aside owns' still store, ?_⟩
      intro _ i inside
      rw [bytes]
      exact at_of_bytesOf inside
    · rintro v' ⟨aside, owns', still, store⟩
      have edit := edit_of_read aside owns' still store
      exact ⟨edit.1, edit.2.2⟩
    · exact fun _ h => h

/-- Buffering a page changes nothing that is read of any other, and nothing of this one unless it is about to
be overwritten. -/
theorem ends_bufferPage {v : Vfs Page} {h : Nat} (owns : Owns v h) (pgno : Nat) (whole : Bool) :
    Ends (bufferPage h pgno whole)
      (fun _ v' => Edit v v' h ∧ (∀ p, p ≠ pgno → seen v' h p = seen v h p) ∧
        ∃ page, rowOf (v'.files h).dirty pgno = some page ∧
          (whole = false → ∀ i, i < pageSize → page.at i = byteOf (seen v h) (pgno * pageSize + i)))
      (fun v' => Edit v v' h ∧ seen v' h = seen v h) (fun _ => False) v := by
  have sorted := owns.synced.sorted
  unfold bufferPage
  apply Ends.bind
  change Ends (match findDirty (v.files h).dirty pgno with | some _ => _ | none => _) _ _ _ v
  rw [findDirty_eq sorted]
  cases there : rowOf (v.files h).dirty pgno with
  | some page =>
      refine ⟨Edit.refl owns, fun _ _ => rfl, page, there, ?_⟩
      intro _ i inside
      have index : (pgno * pageSize + i) / pageSize = pgno := by
        rw [Nat.mul_comm, Nat.mul_add_div (by decide), Nat.div_eq_of_lt inside, Nat.add_zero]
      have within : (pgno * pageSize + i) % pageSize = i := by
        rw [Nat.mul_comm, Nat.mul_add_mod, Nat.mod_eq_of_lt inside]
      unfold byteOf seen view
      rw [index, there, within]
      rfl
  | none =>
      apply Ends.ite
      · intro _
        exact ⟨⟨⟨rfl, fun _ _ => rfl, rfl, Elsewhere.refl _ _⟩, ⟨owns.synced, owns.sane, owns.decided,
          owns.shards⟩, ⟨rfl, rfl, rfl, rfl, rfl, rfl, rfl⟩, rfl⟩, rfl⟩
      · intro _
        apply (ends_storedPage owns pgno whole).andThen _ (fun _ h => h) fun _ h => h
        rintro page v₁ ⟨⟨edit, dirty, same⟩, bytes⟩
        have new : rowOf (v₁.files h).dirty pgno = none := by rw [dirty, there]
        have order := edit.owns.synced.sorted
        have inserted := edit_dirty edit.owns (fun dirty => insertDirty dirty pgno page)
          (sorted_insertDirty order page new)
        have rows : ∀ p, rowOf ((v₁.onFile h fun f =>
            { f with dirty := insertDirty f.dirty pgno page }).files h).dirty p =
              if p = pgno then some page else rowOf (v₁.files h).dirty p := by
          intro p
          rw [onFile_self]
          exact rowOf_insertDirty order page new p
        refine ⟨edit.trans inserted, ?_, page, ?_, bytes⟩
        · intro p other
          rw [← same]
          unfold seen view
          rw [rows, if_neg other, inserted.store, inserted.edited.name]
        · rw [rows, if_pos rfl]

/-- What a range of bytes becomes. -/
def Rewritten (before after : Nat → UInt8) (data : List UInt8) (off first count : Nat) : Prop :=
  ∀ i, after i = if first ≤ i ∧ i < first + count then data.getD (i - off) 0 else before i

theorem Rewritten.join {before middle after : Nat → UInt8} {data : List UInt8} {off first count more : Nat}
    (front : Rewritten before middle data off first count)
    (back : Rewritten middle after data off (first + count) more) :
    Rewritten before after data off first (count + more) := by
  intro i
  rw [back i, front i]
  by_cases late : first + count ≤ i ∧ i < first + count + more
  · rw [if_pos late, if_pos (by omega)]
  · rw [if_neg late]
    by_cases early : first ≤ i ∧ i < first + count
    · rw [if_pos early, if_pos (by omega)]
    · rw [if_neg early, if_neg (by omega)]

/-- One piece of a write. -/
theorem ends_writePiece {v : Vfs Page} {h off at_ want : Nat} {data : List UInt8} (owns : Owns v h)
    (above : off ≤ at_) (inside : at_ + want ≤ off + data.length) (fits : at_ % pageSize + want ≤ pageSize) :
    Ends (writePiece h off data ⟨at_ / pageSize, at_ % pageSize, want⟩)
      (fun _ v' => Edit v v' h ∧ Rewritten (byteOf (seen v h)) (byteOf (seen v' h)) data off at_ want)
      (fun v' => Edit v v' h ∧ seen v' h = seen v h) (fun _ => False) v := by
  have place : at_ / pageSize * pageSize + at_ % pageSize = at_ := by
    rw [Nat.mul_comm]
    exact Nat.div_add_mod at_ pageSize
  unfold writePiece
  apply (ends_bufferPage owns _ _).andThen _ (fun _ h => h) fun _ h => h
  rintro _ v₁ ⟨edit, others, page, row, bytes⟩
  dsimp only
  rw [place]
  generalize piece : (data.drop (at_ - off)).take want = part
  have length : part.length = want := by
    rw [← piece, List.length_take, List.length_drop]
    omega
  have patched := edit_dirty edit.owns
    (fun dirty => patchDirty dirty (at_ / pageSize) (at_ % pageSize) part)
    (sorted_patchDirty edit.owns.synced.sorted _ _ _)
  have rows : ∀ p, rowOf ((v₁.onFile h fun f =>
      { f with dirty := patchDirty f.dirty (at_ / pageSize) (at_ % pageSize) part }).files h).dirty p =
        if p = at_ / pageSize then (rowOf (v₁.files h).dirty p).map fun page => page.splice (at_ % pageSize) part
        else rowOf (v₁.files h).dirty p := by
    intro p
    rw [onFile_self]
    exact rowOf_patchDirty _ _ _ p
  refine ⟨edit.trans patched, ?_⟩
  intro i
  by_cases here : i / pageSize = at_ / pageSize
  · have shown : byteOf (seen (v₁.onFile h fun f =>
        { f with dirty := patchDirty f.dirty (at_ / pageSize) (at_ % pageSize) part }) h) i =
          (page.splice (at_ % pageSize) part).at (i % pageSize) := by
      unfold byteOf seen view
      rw [rows, if_pos here, here, row]
      rfl
    have whole := Nat.div_add_mod i pageSize
    have small := Nat.mod_lt i (show 0 < pageSize by decide)
    rw [here, Nat.mul_comm] at whole
    refine shown.trans ?_
    rw [Page.at_splice small (by omega), length]
    by_cases within : at_ ≤ i ∧ i < at_ + want
    · have both : at_ % pageSize ≤ i % pageSize ∧ i % pageSize < at_ % pageSize + want := by omega
      have index : at_ - off + (i % pageSize - at_ % pageSize) = i - off := by omega
      rw [if_pos both, if_pos within, ← piece, List.getD_eq_getElem?_getD, List.getElem?_take_of_lt (by omega),
        List.getElem?_drop, index, List.getD_eq_getElem?_getD]
    · have neither : ¬ (at_ % pageSize ≤ i % pageSize ∧ i % pageSize < at_ % pageSize + want) := by omega
      rw [if_neg neither, if_neg within, bytes _ _ small, whole]
      rw [decide_eq_false_iff_not]
      rintro ⟨start, all⟩
      change at_ % pageSize = 0 at start
      change want = pageSize at all
      omega
  · have outside : ¬ (at_ ≤ i ∧ i < at_ + want) := by
      rintro ⟨low, high⟩
      obtain ⟨same, -⟩ := @page_of_place at_ (i - at_) (by omega)
      rw [Nat.add_sub_cancel' low] at same
      exact here same
    rw [if_neg outside]
    have kept := others _ here
    have unchanged : seen (v₁.onFile h fun f =>
        { f with dirty := patchDirty f.dirty (at_ / pageSize) (at_ % pageSize) part }) h (i / pageSize) =
          seen v h (i / pageSize) := by
      rw [← kept]
      unfold seen view
      rw [rows, if_neg here, patched.store, patched.edited.name]
    unfold byteOf
    rw [show seen _ h (i / pageSize) = _ from unchanged]

/-- The pieces of a write, one after another; one that fails leaves each byte as it was or as it was to be. -/
theorem ends_writePieces {h off : Nat} {data : List UInt8} (n : Nat) :
    ∀ {v : Vfs Page} {at_ left : Nat}, left ≤ n → off ≤ at_ → at_ + left = off + data.length → Owns v h →
      Ends (Action.forEach (pieces n at_ left) (writePiece h off data))
        (fun _ v' => Edit v v' h ∧ Rewritten (byteOf (seen v h)) (byteOf (seen v' h)) data off at_ left)
        (fun v' => Edit v v' h ∧ ∃ count, count ≤ left ∧
          Rewritten (byteOf (seen v h)) (byteOf (seen v' h)) data off at_ count) (fun _ => False) v := by
  have nothing : ∀ {v : Vfs Page} {at_ : Nat}, Owns v h →
      Edit v v h ∧ Rewritten (byteOf (seen v h)) (byteOf (seen v h)) data off at_ 0 := by
    intro v at_ owns
    refine ⟨Edit.refl owns, ?_⟩
    intro i
    rw [if_neg (by omega)]
  induction n with
  | zero =>
      intro v at_ left enough _ _ owns
      have done : left = 0 := Nat.le_zero.mp enough
      subst done
      exact nothing owns
  | succ n ih =>
      intro v at_ left enough above whole owns
      by_cases done : left = 0
      · subst done
        rw [pieces_none]
        exact nothing owns
      · have small := Nat.mod_lt at_ (show 0 < pageSize by decide)
        rw [pieces, if_neg done]
        dsimp only
        generalize cut : min left (pageSize - at_ % pageSize) = want
        apply Ends.bind
        apply (ends_writePiece owns above (by omega) (by omega)).mono _ _ fun _ h => h
        · rintro _ v₁ ⟨edit, here⟩
          apply (ih (v := v₁) (by omega) (by omega) (by omega) edit.owns).mono _ _ fun _ h => h
          · rintro _ v₂ ⟨edit', rest⟩
            have joined := here.join rest
            rw [show want + (left - want) = left by omega] at joined
            exact ⟨edit.trans edit', joined⟩
          · rintro v₂ ⟨edit', count, short, rest⟩
            exact ⟨edit.trans edit', want + count, by omega, here.join rest⟩
        · rintro v₁ ⟨edit, same⟩
          refine ⟨edit, 0, Nat.zero_le _, ?_⟩
          rw [same]
          exact (nothing owns).2

/-- What a write that came back leaves. -/
structure Written (v v' : Vfs Page) (h off : Nat) (data : List UInt8) : Prop where
  aside : Aside h v v'
  owns : Owns v' h
  store : v'.store = v.store
  sent : (v'.files h).sentSize = (v.files h).sentSize
  cut : (v'.files h).truncPages = (v.files h).truncPages
  group : (v'.files h).groupTxnid = (v.files h).groupTxnid
  size : (v'.files h).size = max (v.files h).size (off + data.length)
  bytes : Rewritten (byteOf (seen v h)) (byteOf (seen v' h)) data off off data.length

/-- A write puts its bytes where they belong and leaves every other as it was; one that fails has put a first
part of them there. -/
theorem ends_fdbWrite {v : Vfs Page} {h : Nat} (owns : Owns v h) (data : List UInt8) (off : Nat) :
    Ends (fdbWrite h data off) (fun _ v' => Written v v' h off data)
      (fun v' => Edit v v' h ∧ ∃ count, count ≤ data.length ∧
        Rewritten (byteOf (seen v h)) (byteOf (seen v' h)) data off off count) (fun _ => False) v := by
  unfold fdbWrite
  apply (ends_writePieces data.length (Nat.le_refl _) (Nat.le_refl off) rfl owns).andThen _ (fun _ h => h)
    fun _ h => h
  rintro _ v₁ ⟨edit, bytes⟩
  let grow : FdbFile Page → FdbFile Page := fun f => { f with size := max f.size (off + data.length) }
  change Written v (v₁.onFile h grow) h off data
  have file : (v₁.onFile h grow).files h = grow (v₁.files h) := onFile_self h grow v₁
  have synced := edit.owns.synced
  have shown : seen (v₁.onFile h grow) h = seen v₁ h := by
    unfold seen
    rw [file]
    rfl
  constructor
  · exact edit.aside.trans (aside_onFile rfl)
  · constructor
    · rw [file]
      exact ⟨synced.fence, synced.head, synced.size, synced.newest, synced.logn, synced.window, synced.sorted⟩
    · rw [file]
      exact edit.owns.sane
    · exact edit.owns.decided
    · exact edit.owns.shards
  · exact edit.store
  · rw [file]
    exact edit.edited.sent
  · rw [file]
    exact edit.edited.cut
  · rw [file]
    exact edit.edited.group
  · rw [file, ← edit.edited.size]
  · rw [shown]
    exact bytes

end GyreWard.Fdb
