/-
Module: GyreWard.Proofs.KeyRanges
Purpose: No two rows of the store plane's layout share a key, and each range that is read or cleared is the rows
  it is for and no others.
Trusted boundary: none
Main exports: keyAfter_iff, getBe64_putBe64, putBe64_le_append, Family, dbKey, key_injective, sweep_iff,
  rows_stand_apart
-/
import GyreWard.Lib.Ranges
import GyreWard.Model.FdbKeys
import Mathlib.Data.List.TakeWhile

namespace GyreWard.Fdb

open Lib

/-! ### Numbers -/

theorem byte_mod (n : Nat) : UInt8.ofNat (n % 256) = UInt8.ofNat n := by
  apply UInt8.toNat_inj.mp
  simp

theorem putBe32_eq (v : Nat) : putBe32 v = numeral 256 UInt8.ofNat 4 v := by
  have places : List.range 4 = [0, 1, 2, 3] := rfl
  simp [putBe32, places, numeral, byte_mod, Nat.shiftRight_eq_div_pow, Nat.div_div_eq_div_mul]

theorem putBe64_eq (v : Nat) : putBe64 v = numeral 256 UInt8.ofNat 8 v := by
  have places : List.range 8 = [0, 1, 2, 3, 4, 5, 6, 7] := rfl
  simp [putBe64, places, numeral, byte_mod, Nat.shiftRight_eq_div_pow, Nat.div_div_eq_div_mul]

@[simp] theorem length_putBe32 (v : Nat) : (putBe32 v).length = 4 := rfl

@[simp] theorem length_putBe64 (v : Nat) : (putBe64 v).length = 8 := rfl

theorem byte_lt (i j : Nat) (less : i < j) (small : j < 256) : UInt8.ofNat i < UInt8.ofNat j := by
  have low : i < 256 := Nat.lt_trans less small
  rw [UInt8.lt_iff_toNat_lt, UInt8.toNat_ofNat_of_lt' low, UInt8.toNat_ofNat_of_lt' small]
  exact less

/-- Fixed width numbers as texts compare as the numbers do. -/
theorem numeral_le_iff {width n m : Nat} (hn : n < 256 ^ width) (hm : m < 256 ^ width) :
    numeral 256 UInt8.ofNat width n ≤ numeral 256 UInt8.ofNat width m ↔ n ≤ m := by
  rcases Nat.lt_trichotomy n m with less | rfl | more
  · have before := numeral_lt (by decide) byte_lt hm less
    exact ⟨fun _ => Nat.le_of_lt less, fun _ after => Std.Asymm.asymm _ _ before after⟩
  · exact ⟨fun _ => Nat.le_refl _, fun _ => List.lt_irrefl _⟩
  · have before := numeral_lt (by decide) byte_lt hn more
    exact ⟨fun le => absurd before le, fun le => absurd more (Nat.not_lt.mpr le)⟩

theorem putBe32_le_append {n m : Nat} (hn : n < 2 ^ 32) (hm : m < 2 ^ 32) (s : Key) :
    putBe32 n ≤ putBe32 m ++ s ↔ n ≤ m := by
  have alike : (putBe32 n).length = (putBe32 m).length := rfl
  rw [word_le_append_iff alike, putBe32_eq, putBe32_eq, numeral_le_iff hn hm]

theorem putBe64_le_append {n m : Nat} (hn : n < 2 ^ 64) (hm : m < 2 ^ 64) (s : Key) :
    putBe64 n ≤ putBe64 m ++ s ↔ n ≤ m := by
  have alike : (putBe64 n).length = (putBe64 m).length := rfl
  rw [word_le_append_iff alike, putBe64_eq, putBe64_eq, numeral_le_iff hn hm]

theorem append_lt_putBe32 {n m : Nat} (hn : n < 2 ^ 32) (hm : m < 2 ^ 32) (s : Key) :
    putBe32 m ++ s < putBe32 n ↔ m < n := by
  have other := putBe32_le_append hn hm s
  rw [← Nat.not_le, ← other]
  exact not_not.symm

theorem append_lt_putBe64 {n m : Nat} (hn : n < 2 ^ 64) (hm : m < 2 ^ 64) (s : Key) :
    putBe64 m ++ s < putBe64 n ↔ m < n := by
  have other := putBe64_le_append hn hm s
  rw [← Nat.not_le, ← other]
  exact not_not.symm

theorem putBe32_le {n m : Nat} (hn : n < 2 ^ 32) (hm : m < 2 ^ 32) : putBe32 n ≤ putBe32 m ↔ n ≤ m := by
  have alone := putBe32_le_append hn hm []
  rwa [List.append_nil] at alone

theorem putBe32_lt {n m : Nat} (hn : n < 2 ^ 32) (hm : m < 2 ^ 32) : putBe32 n < putBe32 m ↔ n < m := by
  have alone := append_lt_putBe32 hm hn []
  rwa [List.append_nil] at alone

theorem putBe64_lt {n m : Nat} (hn : n < 2 ^ 64) (hm : m < 2 ^ 64) : putBe64 n < putBe64 m ↔ n < m := by
  have alone := append_lt_putBe64 hm hn []
  rwa [List.append_nil] at alone

theorem digits_apart (i : Nat) (hi : i < 256) (j : Nat) (hj : j < 256)
    (same : UInt8.ofNat i = UInt8.ofNat j) : i = j := by
  have toNat := congrArg UInt8.toNat same
  rwa [UInt8.toNat_ofNat_of_lt' hi, UInt8.toNat_ofNat_of_lt' hj] at toNat

theorem putBe32_inj {n m : Nat} (hn : n < 2 ^ 32) (hm : m < 2 ^ 32) : putBe32 n = putBe32 m ↔ n = m := by
  rw [putBe32_eq, putBe32_eq]
  exact ⟨numeral_injective (by decide) digits_apart hn hm, fun same => same ▸ rfl⟩

theorem putBe64_inj {n m : Nat} (hn : n < 2 ^ 64) (hm : m < 2 ^ 64) : putBe64 n = putBe64 m ↔ n = m := by
  rw [putBe64_eq, putBe64_eq]
  exact ⟨numeral_injective (by decide) digits_apart hn hm, fun same => same ▸ rfl⟩

theorem putBe64_of_begins {n m : Nat} {s : Key} (begins : putBe64 n <+: putBe64 m ++ s) :
    putBe64 n = putBe64 m :=
  (List.prefix_of_prefix_length_le begins (List.prefix_append _ s) (Nat.le_refl 8)).eq_of_length rfl

/-- A number is read back from its eight bytes, whatever stands behind them. -/
theorem getBe64_putBe64 {v : Nat} (fits : v < 2 ^ 64) (s : Key) : getBe64 (putBe64 v ++ s) = v := by
  have cut : (putBe64 v ++ s).take 8 = putBe64 v := @List.take_left _ (putBe64 v) s
  rw [getBe64, cut]
  simp only [putBe64, List.range, List.range.loop, List.map_cons, List.map_nil, List.foldl_cons,
    List.foldl_nil, Nat.shiftRight_eq_div_pow, UInt8.toNat_ofNat']
  omega

/-! ### The key behind a beginning -/

/-- From a text to the key behind it are the texts that begin with it. -/
theorem keyAfter_iff {start k : Key} (some : ∃ b ∈ start, b ≠ 0xFF) :
    (start ≤ k ∧ k < keyAfter start) ↔ start <+: k := by
  have parts := List.takeWhile_append_dropWhile (p := (· == 0xFF)) (l := start.reverse)
  have largest : ∀ t ∈ (start.reverse.takeWhile (· == 0xFF)).reverse, ∀ c : UInt8, ¬ t < c := by
    intro t mem c
    have top := List.mem_takeWhile_imp (List.mem_reverse.mp mem)
    rw [eq_of_beq top, UInt8.lt_iff_toNat_lt]
    have small := c.toNat_lt
    have ceiling : (0xFF : UInt8).toNat = 255 := rfl
    omega
  unfold keyAfter
  cases kept : start.reverse.dropWhile (· == 0xFF) with
  | nil =>
      obtain ⟨b, mem, other⟩ := some
      have all := List.dropWhile_eq_nil_iff.mp kept b (List.mem_reverse.mpr mem)
      exact absurd (eq_of_beq all) other
  | cons last front =>
      have below : last ≠ 0xFF := by
        intro top
        have head := List.head?_dropWhile_not (p := (· == 0xFF)) (l := start.reverse)
        rw [kept] at head
        simp [top] at head
      have raised : ∀ c : UInt8, c < last + 1 ↔ ¬ last < c := by
        intro c
        have room : last.toNat ≠ 255 := fun same => below (UInt8.toNat_inj.mp same)
        have small := last.toNat_lt
        have up : (last + 1).toNat = last.toNat + 1 := by
          rw [UInt8.toNat_add]
          change (last.toNat + 1) % 2 ^ 8 = _
          omega
        rw [UInt8.lt_iff_toNat_lt, UInt8.lt_iff_toNat_lt, up]
        omega
      rw [kept] at parts
      have whole : start = front.reverse ++ last :: (start.reverse.takeWhile (· == 0xFF)).reverse := by
        have turned := congrArg List.reverse parts
        rw [List.reverse_reverse, List.reverse_append, List.reverse_cons, List.append_assoc] at turned
        exact turned.symm
      have range : (front.reverse ++ last :: (start.reverse.takeWhile (· == 0xFF)).reverse ≤ k ∧
          k < front.reverse ++ [last + 1]) ↔ _ <+: k := range_after_iff largest raised
      rw [← whole] at range
      rw [← range]
      change (_ ∧ k < ((last + 1) :: front).reverse) ↔ _
      rw [List.reverse_cons]

/-! ### Families of rows -/

/-- The kinds of rows a database has. -/
inductive Family where
  | fact (what : Meta)
  | pidx
  | delta
  | shard
  | shardn
deriving DecidableEq

/-- What stands between the name and the numbers. -/
def Family.label : Family → Text
  | .fact what => what.what
  | .pidx => text "PIDX/"
  | .delta => text "DELTA/"
  | .shard => text "SHARD/"
  | .shardn => text "SHARDN/"

/-- A key of a database. -/
def dbKey (name : DbName) (rest : Text) : Key := text "weft/db/" ++ (name.bytes ++ 0x2F :: rest)

/-- Where a row of a database stands. -/
def Row.place : Row → Option (DbName × Family × Text)
  | .metaRow name what => some (name, .fact what, [])
  | .pidx name pgno => some (name, .pidx, putBe32 pgno)
  | .delta name txid pgno => some (name, .delta, putBe64 txid ++ putBe32 pgno)
  | .shard name asOf pgno => some (name, .shard, putBe64 asOf ++ putBe32 pgno)
  | .shardn name asOf => some (name, .shardn, putBe64 asOf)
  | _ => none

theorem key_of_place {r : Row} {name : DbName} {family : Family} {rest : Text}
    (place : r.place = some (name, family, rest)) : r.key = dbKey name (family.label ++ rest) := by
  cases r <;> simp only [Row.place, reduceCtorEq] at place <;> cases place <;>
    simp only [Row.key, keyMeta, keyPidx, keyDelta, keyShard, keyShardn, dbKey, List.append_assoc,
      List.append_nil] <;> rfl

/-- A row of no database is about groups. -/
theorem key_of_no_place {r : Row} (place : r.place = none) : text "weft/txn/" <+: r.key := by
  cases r <;> simp only [Row.place, reduceCtorEq] at place
  · exact ⟨text "NEXT", rfl⟩
  · exact ⟨_, (List.append_assoc ..).symm⟩
  · rename_i txnid name
    exact ⟨putBe64 txnid ++ (text "/PART/" ++ name.bytes), by simp [Row.key, keyTxnPart]⟩

theorem dbKey_prefix_iff {name name' : DbName} {rest rest' : Text} :
    dbKey name rest <+: dbKey name' rest' ↔ name = name' ∧ rest <+: rest' := by
  unfold dbKey
  rw [List.prefix_append_right_inj, ended_prefix_iff name.flat name'.flat]
  have same : name.bytes = name'.bytes ↔ name = name' := by
    constructor
    · intro h
      cases name
      cases name'
      cases h
      rfl
    · rintro rfl
      rfl
  rw [same]

theorem labels_apart : ∀ f g : Family, f ≠ g → ¬ f.label <+: g.label := by
  rintro (⟨_ | _ | _ | _⟩ | _ | _ | _ | _) (⟨_ | _ | _ | _⟩ | _ | _ | _ | _) <;> decide

theorem label_prefix_iff {f g : Family} {x y : Text} :
    f.label ++ x <+: g.label ++ y ↔ f = g ∧ x <+: y := by
  constructor
  · intro begins
    have left : f.label <+: g.label ++ y := (List.prefix_append _ x).trans begins
    have same : f = g := by
      by_contra other
      rcases List.prefix_or_prefix_of_prefix left (List.prefix_append g.label y) with short | long
      · exact labels_apart f g other short
      · exact labels_apart g f (Ne.symm other) long
    subst same
    exact ⟨rfl, (List.prefix_append_right_inj _).mp begins⟩
  · rintro ⟨rfl, begins⟩
    exact (List.prefix_append_right_inj _).mpr begins

/-- A key of one family begins with a key of another only if the families are one. -/
theorem dbKey_label_prefix_iff {name name' : DbName} {f g : Family} {x y : Text} :
    dbKey name (f.label ++ x) <+: dbKey name' (g.label ++ y) ↔ name = name' ∧ f = g ∧ x <+: y := by
  rw [dbKey_prefix_iff, label_prefix_iff]

theorem dbKey_append (name : DbName) (x y : Text) : dbKey name (x ++ y) = dbKey name x ++ y := by
  simp [dbKey]

/-- A key about groups begins with no key of a database. -/
theorem group_key_apart {name : DbName} {rest : Text} {k : Key} (groups : text "weft/txn/" <+: k) :
    ¬ dbKey name rest <+: k := by
  rintro ⟨tail, rfl⟩
  have clash : ¬ text "weft/txn/" <+: text "weft/db/" ++ (name.bytes ++ 0x2F :: rest ++ tail) := by
    intro begins
    have fifth : (text "weft/txn/").take 6 <+: text "weft/db/" ++ (name.bytes ++ 0x2F :: rest ++ tail) :=
      (List.take_prefix _ _).trans begins
    rcases List.prefix_or_prefix_of_prefix fifth (List.prefix_append (text "weft/db/") _) with short | long
    · revert short
      decide
    · revert long
      decide
  rw [dbKey, List.append_assoc] at groups
  exact clash groups

/-! ### Ranges of a database -/

section Ranges

variable {r : Row} {name : DbName} {f : Family} {a b : Text}

/-- What is asked of a row where it stands. -/
theorem place_iff {name' : DbName} {g : Family} {x : Text} (place : r.place = some (name', g, x))
    {P : Text → Prop} : (∃ y, r.place = some (name, f, y) ∧ P y) ↔ name' = name ∧ g = f ∧ P x := by
  rw [place]
  constructor
  · rintro ⟨y, same, holds⟩
    cases same
    exact ⟨rfl, rfl, holds⟩
  · rintro ⟨rfl, rfl, holds⟩
    exact ⟨x, rfl, holds⟩

/-- The rows whose keys begin with a key of a family. -/
theorem prefix_iff_place :
    dbKey name (f.label ++ a) <+: r.key ↔ ∃ y, r.place = some (name, f, y) ∧ a <+: y := by
  cases place : r.place with
  | none =>
      have apart : ¬ dbKey name (f.label ++ a) <+: r.key := group_key_apart (key_of_no_place place)
      simp [apart]
  | some at_ =>
      obtain ⟨name', g, y⟩ := at_
      rw [key_of_place place, dbKey_label_prefix_iff]
      constructor
      · rintro ⟨rfl, rfl, begins⟩
        exact ⟨y, rfl, begins⟩
      · rintro ⟨y', same, begins⟩
        cases same
        exact ⟨rfl, rfl, begins⟩

theorem between_iff :
    (dbKey name (f.label ++ a) ≤ r.key ∧ r.key < dbKey name (f.label ++ b)) ↔
      ∃ y, r.place = some (name, f, y) ∧ a ≤ y ∧ y < b := by
  rw [dbKey_append, dbKey_append]
  constructor
  · rintro ⟨above, below⟩
    have begins := beginning_of_range above below
    rw [← List.append_nil f.label, prefix_iff_place] at begins
    obtain ⟨y, place, -⟩ := begins
    rw [key_of_place place, dbKey_append, append_le_append_left_iff] at above
    rw [key_of_place place, dbKey_append, append_lt_append_left_iff] at below
    exact ⟨y, place, above, below⟩
  · rintro ⟨y, place, above, below⟩
    rw [key_of_place place, dbKey_append, append_le_append_left_iff, append_lt_append_left_iff]
    exact ⟨above, below⟩

theorem within_iff {start : Key} (shape : start = dbKey name (f.label ++ a)) :
    (start ≤ r.key ∧ r.key < keyAfter start) ↔ ∃ y, r.place = some (name, f, y) ∧ a <+: y := by
  have letter : ∃ c ∈ start, c ≠ 0xFF := by
    rw [shape]
    exact ⟨0x77, List.mem_cons_self .., by decide⟩
  rw [keyAfter_iff letter, shape, prefix_iff_place]

theorem upward_iff :
    (dbKey name (f.label ++ a) ≤ r.key ∧ r.key < keyAfter (dbKey name f.label)) ↔
      ∃ y, r.place = some (name, f, y) ∧ a ≤ y := by
  have shape : dbKey name f.label = dbKey name (f.label ++ []) := by rw [List.append_nil]
  have family := within_iff (r := r) shape
  constructor
  · rintro ⟨above, below⟩
    have first : dbKey name f.label ≤ r.key := by
      apply List.le_trans _ above
      rw [dbKey_append]
      exact le_append _ _
    obtain ⟨y, place, -⟩ := family.mp ⟨first, below⟩
    rw [key_of_place place, dbKey_append, dbKey_append, append_le_append_left_iff] at above
    exact ⟨y, place, above⟩
  · rintro ⟨y, place, above⟩
    refine ⟨?_, (family.mpr ⟨y, place, List.nil_prefix⟩).2⟩
    rw [key_of_place place, dbKey_append, dbKey_append, append_le_append_left_iff]
    exact above

end Ranges

/-! ### The keys of the source, by family -/

section Shapes

variable (name : DbName)

theorem keyPrefix_pidx : keyPrefix name.bytes (text "PIDX") = dbKey name Family.pidx.label := by
  simp only [keyPrefix, dbKey, List.append_assoc]
  rfl

theorem keyPrefix_delta : keyPrefix name.bytes (text "DELTA") = dbKey name Family.delta.label := by
  simp only [keyPrefix, dbKey, List.append_assoc]
  rfl

theorem keyPrefix_shardn : keyPrefix name.bytes (text "SHARDN") = dbKey name Family.shardn.label := by
  simp only [keyPrefix, dbKey, List.append_assoc]
  rfl

theorem keyPidx_eq (pgno : Nat) :
    keyPidx name.bytes pgno = dbKey name (Family.pidx.label ++ putBe32 pgno) :=
  key_of_place (r := .pidx name pgno) rfl

theorem keyDeltaTxid_eq (txid : Nat) :
    keyDeltaTxid name.bytes txid = dbKey name (Family.delta.label ++ putBe64 txid) := by
  simp only [keyDeltaTxid, dbKey, List.append_assoc]
  rfl

theorem keyShard_eq (asOf pgno : Nat) :
    keyShard name.bytes asOf pgno = dbKey name (Family.shard.label ++ (putBe64 asOf ++ putBe32 pgno)) :=
  key_of_place (r := .shard name asOf pgno) rfl

theorem keyShardVersion_eq (asOf : Nat) :
    keyShardVersion name.bytes asOf = dbKey name (Family.shard.label ++ putBe64 asOf) := by
  simp only [keyShardVersion, dbKey, List.append_assoc]
  rfl

theorem keyShardn_eq (asOf : Nat) :
    keyShardn name.bytes asOf = dbKey name (Family.shardn.label ++ putBe64 asOf) :=
  key_of_place (r := .shardn name asOf) rfl

end Shapes

theorem zero_fits : 0 < 2 ^ 64 := by decide

/-- A range of page numbers within one version. -/
theorem window_iff {asOf asOf' first last pgno : Nat} (hv : asOf < 2 ^ 64) (hv' : asOf' < 2 ^ 64)
    (hf : first < 2 ^ 32) (hl : last < 2 ^ 32) (hp : pgno < 2 ^ 32) :
    (putBe64 asOf ++ putBe32 first ≤ putBe64 asOf' ++ putBe32 pgno ∧
        putBe64 asOf' ++ putBe32 pgno < putBe64 asOf ++ putBe32 last) ↔
      asOf' = asOf ∧ first ≤ pgno ∧ pgno < last := by
  constructor
  · rintro ⟨above, below⟩
    have same := putBe64_of_begins (beginning_of_range above below)
    rw [same, append_le_append_left_iff] at above
    rw [same, append_lt_append_left_iff] at below
    exact ⟨((putBe64_inj hv hv').mp same).symm, (putBe32_le hf hp).mp above, (putBe32_lt hp hl).mp below⟩
  · rintro ⟨rfl, above, below⟩
    rw [append_le_append_left_iff, append_lt_append_left_iff]
    exact ⟨(putBe32_le hf hp).mpr above, (putBe32_lt hp hl).mpr below⟩

/-! ### Ranges about groups -/

/-- The key of a group's row with the number of the group. -/
theorem group_prefix_iff {txnid txnid' : Nat} (fits : txnid < 2 ^ 64) (fits' : txnid' < 2 ^ 64)
    {x y : Text} :
    text "weft/txn/" ++ putBe64 txnid ++ x <+: text "weft/txn/" ++ putBe64 txnid' ++ y ↔
      txnid' = txnid ∧ x <+: y := by
  rw [List.append_assoc, List.append_assoc, List.prefix_append_right_inj]
  constructor
  · intro begins
    have same := putBe64_of_begins ((List.prefix_append _ x).trans begins)
    rw [same] at begins
    exact ⟨((putBe64_inj fits fits').mp same).symm, (List.prefix_append_right_inj _).mp begins⟩
  · rintro ⟨rfl, begins⟩
    exact (List.prefix_append_right_inj _).mpr begins

theorem group_prefix_next (txnid : Nat) (x : Text) :
    ¬ text "weft/txn/" ++ putBe64 txnid ++ x <+: text "weft/txn/NEXT" := by
  intro begins
  have short := begins.length_le
  rw [List.length_append, List.length_append] at short
  change 9 + 8 + x.length ≤ 13 at short
  omega

/-- A key of a database does not begin as those about groups do. -/
theorem db_key_apart {r : Row} {at_ : DbName × Family × Text} (place : r.place = some at_) {x : Text} :
    ¬ text "weft/txn/" ++ x <+: r.key := by
  intro begins
  obtain ⟨name, family, rest⟩ := at_
  rw [key_of_place place] at begins
  exact group_key_apart ((List.prefix_append _ x).trans begins) (List.prefix_refl _)

/-! ### Every range -/

theorem txn_letter {x : Text} : ∃ b ∈ text "weft/txn/" ++ x, b ≠ 0xFF :=
  ⟨0x77, List.mem_cons_self .., by decide⟩

/-- A range that is read or cleared holds the rows it is for and no others. -/
theorem sweep_iff {s : Sweep} {r : Row} (fits : s.Fits) (row : r.Fits) :
    (s.start ≤ r.key ∧ r.key < s.stop) ↔ s.covers r = true := by
  cases s with
  | index name =>
      have shape : keyPrefix name.bytes (text "PIDX") = dbKey name (Family.pidx.label ++ []) := by
        rw [keyPrefix_pidx, List.append_nil]
      apply (within_iff shape).trans
      cases r <;> simp [Row.place, Sweep.covers]
  | log name =>
      have shape : keyPrefix name.bytes (text "DELTA") = dbKey name (Family.delta.label ++ []) := by
        rw [keyPrefix_delta, List.append_nil]
      apply (within_iff shape).trans
      cases r <;> simp [Row.place, Sweep.covers]
  | indexFrom name pgno =>
      change (keyPidx name.bytes pgno ≤ _ ∧ _ < keyAfter (keyPrefix name.bytes (text "PIDX"))) ↔ _
      rw [keyPidx_eq, keyPrefix_pidx, upward_iff]
      cases r with
      | pidx name' pgno' =>
          apply (place_iff rfl).trans
          simp [Sweep.covers, putBe32_le fits row]
      | _ => simp [Row.place, Sweep.covers]
  | indexWindow name first last =>
      change (keyPidx name.bytes first ≤ _ ∧ _ < keyPidx name.bytes last) ↔ _
      rw [keyPidx_eq, keyPidx_eq, between_iff]
      cases r with
      | pidx name' pgno =>
          apply (place_iff rfl).trans
          simp [Sweep.covers, putBe32_le fits.1 row, putBe32_lt row fits.2]
      | _ => simp [Row.place, Sweep.covers]
  | logFrom name txid =>
      change (keyDeltaTxid name.bytes txid ≤ _ ∧ _ < keyAfter (keyPrefix name.bytes (text "DELTA"))) ↔ _
      rw [keyDeltaTxid_eq, keyPrefix_delta, upward_iff]
      cases r with
      | delta name' txid' pgno =>
          apply (place_iff rfl).trans
          simp [Sweep.covers, putBe64_le_append fits row.1]
      | _ => simp [Row.place, Sweep.covers]
  | commit name txid =>
      apply (within_iff (keyDeltaTxid_eq name txid)).trans
      cases r with
      | delta name' txid' pgno =>
          have begins : putBe64 txid <+: putBe64 txid' ++ putBe32 pgno ↔ txid' = txid := by
            constructor
            · intro front
              exact ((putBe64_inj fits row.1).mp (putBe64_of_begins front)).symm
            · rintro rfl
              exact List.prefix_append _ _
          apply (place_iff rfl).trans
          simp [Sweep.covers, begins]
      | _ => simp [Row.place, Sweep.covers]
  | shardsBelow name asOf =>
      change (keyShardVersion name.bytes 0 ≤ _ ∧ _ < keyShardVersion name.bytes asOf) ↔ _
      rw [keyShardVersion_eq, keyShardVersion_eq, between_iff]
      cases r with
      | shard name' asOf' pgno =>
          apply (place_iff rfl).trans
          simp [Sweep.covers, putBe64_le_append zero_fits row.1, append_lt_putBe64 fits row.1]
      | _ => simp [Row.place, Sweep.covers]
  | shardWindow name asOf first last =>
      change (keyShard name.bytes asOf first ≤ _ ∧ _ < keyShard name.bytes asOf last) ↔ _
      rw [keyShard_eq, keyShard_eq, between_iff]
      cases r with
      | shard name' asOf' pgno =>
          apply (place_iff rfl).trans
          rw [window_iff fits.1 row.1 fits.2.1 fits.2.2 row.2]
          simp [Sweep.covers]
      | _ => simp [Row.place, Sweep.covers]
  | markersBelow name asOf =>
      change (keyShardn name.bytes 0 ≤ _ ∧ _ < keyShardn name.bytes asOf) ↔ _
      rw [keyShardn_eq, keyShardn_eq, between_iff]
      cases r with
      | shardn name' asOf' =>
          have low : putBe64 0 ≤ putBe64 asOf' := by
            have zero := (putBe64_le_append zero_fits row []).mpr (Nat.zero_le asOf')
            rwa [List.append_nil] at zero
          apply (place_iff rfl).trans
          simp [Sweep.covers, low, putBe64_lt row fits]
      | _ => simp [Row.place, Sweep.covers]
  | markersTo name asOf =>
      change (keyPrefix name.bytes (text "SHARDN") ≤ _ ∧ _ < keyShardn name.bytes asOf) ↔ _
      rw [keyShardn_eq, keyPrefix_shardn, ← List.append_nil Family.shardn.label, List.append_assoc,
        between_iff]
      cases r with
      | shardn name' asOf' =>
          apply (place_iff rfl).trans
          simp [Sweep.covers, putBe64_lt row fits]
      | _ => simp [Row.place, Sweep.covers]
  | database name =>
      have letter : ∃ b ∈ dbKey name [], b ≠ 0xFF := ⟨0x77, List.mem_cons_self .., by decide⟩
      have shape : (Sweep.database name).start = dbKey name [] := by
        rw [Sweep.start, List.append_assoc]
        rfl
      change ((Sweep.database name).start ≤ _ ∧ _ < keyAfter (Sweep.database name).start) ↔ _
      rw [shape, keyAfter_iff letter]
      cases place : r.place with
      | none =>
          have apart : ¬ dbKey name [] <+: r.key := group_key_apart (key_of_no_place place)
          cases r <;> simp [Row.place] at place <;> simp [apart, Sweep.covers]
      | some at_ =>
          obtain ⟨name', g, y⟩ := at_
          rw [key_of_place place, dbKey_prefix_iff]
          cases r <;> simp [Row.place] at place <;> simp [Sweep.covers, place.1, eq_comm]
  | parts txnid =>
      change (keyTxnPartPrefix txnid ≤ _ ∧ _ < keyAfter (keyTxnPartPrefix txnid)) ↔ _
      rw [keyTxnPartPrefix, List.append_assoc, keyAfter_iff txn_letter, ← List.append_assoc]
      cases r with
      | next => simpa [Row.key, Sweep.covers] using group_prefix_next txnid _
      | status txnid' =>
          have other : ¬ text "/PART/" <+: text "/STATUS" := by decide
          rw [Row.key, keyTxnStatus, group_prefix_iff fits row]
          simp [other, Sweep.covers]
      | part txnid' name =>
          rw [Row.key, keyTxnPart, List.append_assoc (_ ++ _), group_prefix_iff fits row]
          simp [Sweep.covers]
      | _ =>
          rw [List.append_assoc]
          simp [db_key_apart, Row.place, Sweep.covers]
  | record txnid =>
      change (keyTxnPrefix txnid ≤ _ ∧ _ < keyAfter (keyTxnPrefix txnid)) ↔ _
      rw [keyTxnPrefix, keyAfter_iff txn_letter, ← List.append_nil (_ ++ _)]
      cases r with
      | next => simpa [Row.key, Sweep.covers] using group_prefix_next txnid []
      | status txnid' =>
          rw [Row.key, keyTxnStatus, group_prefix_iff fits row]
          simp [Sweep.covers]
      | part txnid' name =>
          rw [Row.key, keyTxnPart, List.append_assoc (_ ++ _), group_prefix_iff fits row]
          simp [Sweep.covers]
      | _ =>
          rw [List.append_assoc]
          simp [db_key_apart, Row.place, Sweep.covers]
  | groups =>
      change (keyTxnAll ≤ _ ∧ _ < keyAfter keyTxnAll) ↔ _
      rw [keyTxnAll, ← List.append_nil (text "weft/txn/"), keyAfter_iff txn_letter]
      cases place : r.place with
      | none =>
          have begins := key_of_no_place place
          cases r <;> simp [Row.place] at place <;> simpa [Sweep.covers] using begins
      | some at_ =>
          have apart := db_key_apart place (x := [])
          cases r <;> simp [Row.place] at place <;> simpa [Sweep.covers] using apart

/-! ### Every key -/

theorem putBe64_append_inj {n m p q : Nat} (hn : n < 2 ^ 64) (hm : m < 2 ^ 64) (hp : p < 2 ^ 32)
    (hq : q < 2 ^ 32) (same : putBe64 n ++ putBe32 p = putBe64 m ++ putBe32 q) : n = m ∧ p = q := by
  obtain ⟨high, low⟩ := List.append_inj same rfl
  exact ⟨(putBe64_inj hn hm).mp high, (putBe32_inj hp hq).mp low⟩

/-- A row of a database is told by where it stands. -/
theorem eq_of_place {r r' : Row} {at_ : DbName × Family × Text} (fits : r.Fits) (fits' : r'.Fits)
    (place : r.place = some at_) (place' : r'.place = some at_) : r = r' := by
  rw [← place'] at place
  cases r <;> cases r' <;>
    simp only [Row.place, Option.some.injEq, Prod.mk.injEq, reduceCtorEq, false_and, and_false,
      Family.fact.injEq] at place
  case metaRow.metaRow => rw [place.1, place.2.1]
  case pidx.pidx => rw [place.1, (putBe32_inj fits fits').mp place.2.2]
  case delta.delta =>
    have numbers := putBe64_append_inj fits.1 fits'.1 fits.2 fits'.2 place.2.2
    rw [place.1, numbers.1, numbers.2]
  case shard.shard =>
    have numbers := putBe64_append_inj fits.1 fits'.1 fits.2 fits'.2 place.2.2
    rw [place.1, numbers.1, numbers.2]
  case shardn.shardn => rw [place.1, (putBe64_inj fits fits').mp place.2.2]
  all_goals simp_all [Row.place]

theorem name_eq {name name' : DbName} (same : name.bytes = name'.bytes) : name = name' := by
  cases name
  cases name'
  cases same
  rfl

/-- The row under a key is the only one. -/
theorem key_injective {r r' : Row} (fits : r.Fits) (fits' : r'.Fits) (same : r.key = r'.key) : r = r' := by
  cases place : r.place with
  | some at_ =>
      obtain ⟨name, f, x⟩ := at_
      have here := (prefix_iff_place (r := r) (a := x)).mpr ⟨x, place, List.prefix_refl _⟩
      rw [same] at here
      obtain ⟨y, place', -⟩ := prefix_iff_place.mp here
      rw [key_of_place place, key_of_place place', dbKey_append, dbKey_append] at same
      rw [← List.append_cancel_left same] at place'
      exact eq_of_place fits fits' place place'
  | none =>
      have begins := key_of_no_place place
      rw [same] at begins
      have place' : r'.place = none := by
        cases other : r'.place with
        | none => rfl
        | some at_ =>
            rw [← List.append_nil (text "weft/txn/")] at begins
            exact absurd begins (db_key_apart other)
      have front : r.key <+: r'.key := same ▸ List.prefix_refl _
      have alike := congrArg List.length same
      cases r <;> cases r' <;> simp only [Row.place, reduceCtorEq] at place place'
      case next.next => rfl
      case next.status => simp [Row.key, keyTxnStatus, text] at alike
      case next.part => simp [Row.key, keyTxnPart, text] at alike; omega
      case status.next => simp [Row.key, keyTxnStatus, text] at alike
      case part.next => simp [Row.key, keyTxnPart, text] at alike; omega
      case status.status => rw [((group_prefix_iff fits fits').mp front).1]
      case status.part n m name =>
        rw [Row.key, Row.key, keyTxnStatus, keyTxnPart, List.append_assoc (_ ++ _),
          group_prefix_iff fits fits'] at front
        exact absurd front.2 (by simp [text])
      case part.status n name m =>
        rw [Row.key, Row.key, keyTxnStatus, keyTxnPart, List.append_assoc (_ ++ _),
          group_prefix_iff fits fits'] at front
        exact absurd front.2 (by simp [text])
      case part.part n name m name' =>
        rw [Row.key, Row.key, keyTxnPart, keyTxnPart, List.append_assoc (_ ++ _),
          List.append_assoc (_ ++ _), group_prefix_iff fits fits', List.prefix_append_right_inj] at front
        rw [Row.key, Row.key, keyTxnPart, keyTxnPart] at alike
        have whole := front.2.eq_of_length (by simpa using alike)
        rw [front.1, name_eq whole]

/-- The sweep for groups takes the rows of their states and no others. -/
theorem isStatusKey_iff {r : Row} (fits : r.Fits) (about : Sweep.groups.covers r = true) :
    isStatusKey r.key = true ↔ ∃ txnid, r = .status txnid := by
  cases r <;> simp [Sweep.covers] at about
  case next => simp [isStatusKey, Row.key, keyTxnAll, text]
  case status txnid =>
    have past : (putBe64 txnid).drop 8 = [] := rfl
    simp [isStatusKey, Row.key, keyTxnStatus, keyTxnAll, text, List.drop_append, past]
  case part txnid name =>
    have past : (putBe64 txnid).drop 8 = [] := rfl
    simp [isStatusKey, Row.key, keyTxnPart, keyTxnAll, text, List.drop_append, past]

/-- No two rows of the layout share a key; each range that the file system reads or clears is the rows it is for
and no others, whatever else the store holds; a sweep takes the rows of states among those about groups, and
reads their numbers back. -/
theorem rows_stand_apart :
    (∀ r r' : Row, r.Fits → r'.Fits → r.key = r'.key → r = r') ∧
      (∀ (s : Sweep) (r : Row), s.Fits → r.Fits →
        ((s.start ≤ r.key ∧ r.key < s.stop) ↔ s.covers r = true)) ∧
      (∀ r : Row, r.Fits → Sweep.groups.covers r = true →
        (isStatusKey r.key = true ↔ ∃ txnid, r = .status txnid)) ∧
      ∀ txnid, txnid < 2 ^ 64 → getBe64 ((Row.status txnid).key.drop keyTxnAll.length) = txnid := by
  refine ⟨fun r r' fits fits' same => key_injective fits fits' same,
    fun s r fits row => sweep_iff fits row, fun r fits about => isStatusKey_iff fits about, ?_⟩
  intro txnid fits
  have cut : (Row.status txnid).key.drop keyTxnAll.length = putBe64 txnid ++ text "/STATUS" := by
    rw [Row.key, keyTxnStatus, List.append_assoc]
    exact List.drop_left
  rw [cut, getBe64_putBe64 fits]

end GyreWard.Fdb
