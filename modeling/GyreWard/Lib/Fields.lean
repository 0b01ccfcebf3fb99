/-
Module: GyreWard.Lib.Fields
Purpose: Records of bytes with their fields at fixed places: numbers in little-endian order, one field written,
  many fields written, and what is read back.
Trusted boundary: none
Main exports: littleEndian, ofLittleEndian, splice, slice, writeAll, ofLittleEndian_littleEndian,
  littleEndian_ofLittleEndian, slice_writeAll, writeAll_eq_iff
-/
import Mathlib.Algebra.Group.Nat.Defs
import Mathlib.Data.List.Basic
import Mathlib.Data.Nat.Bitwise

namespace Lib

/-! ### Numbers -/

/-- The lowest bytes of a number, the lowest first. -/
def littleEndian (width n : Nat) : List UInt8 := (List.range width).map fun i => UInt8.ofNat (n >>> (8 * i))

/-- The number whose bytes these are. -/
def ofLittleEndian (bytes : List UInt8) : Nat :=
  (List.range bytes.length).foldl (fun u i => u ||| (bytes.getD i 0).toNat <<< (8 * i)) 0

@[simp] theorem length_littleEndian (width n : Nat) : (littleEndian width n).length = width := by
  simp [littleEndian]

theorem getElem?_littleEndian {width n i : Nat} (inside : i < width) :
    (littleEndian width n)[i]? = some (UInt8.ofNat (n >>> (8 * i))) := by
  simp [littleEndian, inside]

theorem testBit_byte (b : UInt8) {i : Nat} (beyond : 8 ≤ i) : b.toNat.testBit i = false := by
  apply Nat.testBit_lt_two_pow
  exact Nat.lt_of_lt_of_le b.toNat_lt (Nat.pow_le_pow_right (by decide) beyond)

/-- Each bit of a number is a bit of one of its bytes. -/
theorem testBit_ofLittleEndian (bytes : List UInt8) (k : Nat) :
    (ofLittleEndian bytes).testBit k = (bytes.getD (k / 8) 0).toNat.testBit (k % 8) := by
  have prefixes : ∀ n, ((List.range n).foldl (fun u i => u ||| (bytes.getD i 0).toNat <<< (8 * i)) 0).testBit k =
      (decide (k < 8 * n) && (bytes.getD (k / 8) 0).toNat.testBit (k % 8)) := by
    intro n
    induction n with
    | zero => simp
    | succ n ih =>
        rw [List.range_succ, List.foldl_append, List.foldl_cons, List.foldl_nil, Nat.testBit_or, ih,
          Nat.testBit_shiftLeft]
        by_cases before : k < 8 * n
        · have outside : ¬ k ≥ 8 * n := Nat.not_le.mpr before
          have below : k < 8 * (n + 1) := by omega
          simp [before, outside, below]
        · by_cases here : k < 8 * (n + 1)
          · have place : k / 8 = n := by omega
            have within : k - 8 * n = k % 8 := by omega
            simp [before, here, place, within, Nat.not_lt.mp before]
          · have beyond : 8 ≤ k - 8 * n := by omega
            simp [before, here, testBit_byte _ beyond]
  unfold ofLittleEndian
  rw [prefixes]
  by_cases inside : k < 8 * bytes.length
  · simp [inside]
  · have absent : bytes.length ≤ k / 8 := by omega
    rw [List.getD_eq_default _ _ absent]
    simp [inside]

theorem testBit_getD_littleEndian (width n k : Nat) :
    ((littleEndian width n).getD (k / 8) 0).toNat.testBit (k % 8) = (decide (k < 8 * width) && n.testBit k) := by
  by_cases inside : k / 8 < width
  · have below : k < 8 * width := by omega
    have byte : k % 8 < 8 := Nat.mod_lt _ (by decide)
    have place : 8 * (k / 8) + k % 8 = k := Nat.div_add_mod k 8
    rw [List.getD_eq_getElem?_getD, getElem?_littleEndian inside, Option.getD_some, UInt8.toNat_ofNat',
      Nat.testBit_mod_two_pow, Nat.testBit_shiftRight, place]
    simp [below, byte]
  · have beyond : ¬ k < 8 * width := by omega
    rw [List.getD_eq_default _ _ (by simpa using inside)]
    simp [beyond]

theorem ofLittleEndian_littleEndian {width n : Nat} (fits : n < 2 ^ (8 * width)) :
    ofLittleEndian (littleEndian width n) = n := by
  apply Nat.eq_of_testBit_eq
  intro k
  rw [testBit_ofLittleEndian, testBit_getD_littleEndian]
  by_cases inside : k < 8 * width
  · simp [inside]
  · have high : n.testBit k = false :=
      Nat.testBit_lt_two_pow (Nat.lt_of_lt_of_le fits (Nat.pow_le_pow_right (by decide) (Nat.not_lt.mp inside)))
    simp [high]

theorem ofLittleEndian_lt (bytes : List UInt8) : ofLittleEndian bytes < 2 ^ (8 * bytes.length) := by
  apply Nat.lt_pow_two_of_testBit
  intro k beyond
  have absent : bytes.length ≤ k / 8 := by omega
  rw [testBit_ofLittleEndian, List.getD_eq_default _ _ absent]
  simp

theorem littleEndian_ofLittleEndian (bytes : List UInt8) :
    littleEndian bytes.length (ofLittleEndian bytes) = bytes := by
  apply List.ext_getElem
  · simp
  · intro i inside there
    have found := getElem?_littleEndian (n := ofLittleEndian bytes) there
    rw [List.getElem?_eq_getElem inside] at found
    rw [Option.some.inj found]
    apply UInt8.toNat_inj.mp
    apply Nat.eq_of_testBit_eq
    intro j
    rw [UInt8.toNat_ofNat', Nat.testBit_mod_two_pow, Nat.testBit_shiftRight, testBit_ofLittleEndian]
    by_cases low : j < 8
    · have place : (8 * i + j) / 8 = i := by omega
      have within : (8 * i + j) % 8 = j := by omega
      rw [place, within, List.getD_eq_getElem _ _ there]
      simp [low]
    · rw [testBit_byte _ (Nat.not_lt.mp low)]
      simp [low]

/-! ### Places -/

variable {α : Type}

/-- The bytes written over those at a place. -/
def splice (record : List α) (place : Nat) (bytes : List α) : List α :=
  record.take place ++ bytes ++ record.drop (place + bytes.length)

/-- The bytes that stand at a place. -/
def slice (record : List α) (place width : Nat) : List α := (record.drop place).take width

/-- Many fields, written one after another. -/
def writeAll (record : List α) (fields : List (Nat × List α)) : List α :=
  fields.foldl (fun record field => splice record field.1 field.2) record

/-- Is the place one of the field's? -/
def Within (field : Nat × List α) (i : Nat) : Prop := field.1 ≤ i ∧ i < field.1 + field.2.length

instance (field : Nat × List α) (i : Nat) : Decidable (Within field i) := inferInstanceAs (Decidable (_ ∧ _))

section Splice

variable {record bytes : List α} {place : Nat}

theorem length_splice (room : place + bytes.length ≤ record.length) :
    (splice record place bytes).length = record.length := by
  simp only [splice, List.length_append, List.length_take, List.length_drop]
  omega

theorem getElem?_splice (room : place + bytes.length ≤ record.length) (i : Nat) :
    (splice record place bytes)[i]? = if Within (place, bytes) i then bytes[i - place]? else record[i]? := by
  have front : (record.take place).length = place := by
    rw [List.length_take]
    omega
  unfold splice
  by_cases before : i < place
  · have inside : i < (record.take place ++ bytes).length := by
      rw [List.length_append, front]
      omega
    have outside : ¬ Within (place, bytes) i := fun within => Nat.not_lt.mpr within.1 before
    rw [if_neg outside, List.getElem?_append_left inside, List.getElem?_append_left (front.symm ▸ before),
      List.getElem?_take_of_lt before]
  · by_cases here : i < place + bytes.length
    · have inside : i < (record.take place ++ bytes).length := by
        rw [List.length_append, front]
        exact here
      have within : Within (place, bytes) i := ⟨Nat.not_lt.mp before, here⟩
      rw [if_pos within, List.getElem?_append_left inside,
        List.getElem?_append_right (by omega), front]
    · have beyond : (record.take place ++ bytes).length ≤ i := by
        rw [List.length_append, front]
        exact Nat.not_lt.mp here
      have outside : ¬ Within (place, bytes) i := fun within => here within.2
      rw [if_neg outside, List.getElem?_append_right beyond, List.getElem?_drop, List.length_append, front]
      congr 1
      omega

end Splice

theorem getElem?_slice (record : List α) (place width i : Nat) :
    (slice record place width)[i]? = if i < width then record[place + i]? else none := by
  unfold slice
  split
  · rw [List.getElem?_take_of_lt ‹_›, List.getElem?_drop]
  · exact List.getElem?_eq_none (Nat.le_trans (List.length_take_le _ _) (Nat.not_lt.mp ‹_›))

/-! ### Records -/

/-- Fields that fit into a record of `size` bytes and stand apart. -/
structure Fit (size : Nat) (fields : List (Nat × List α)) : Prop where
  room : ∀ field ∈ fields, field.1 + field.2.length ≤ size
  apart : fields.Pairwise fun f g => ∀ i, Within f i → ¬ Within g i

/-- Fields whose places ascend stand apart. -/
theorem Fit.of_layout {size : Nat} {fields : List (Nat × List α)} {layout : List (Nat × Nat)}
    (laid : (fields.map fun field => (field.1, field.2.length)) = layout)
    (room : ∀ place ∈ layout, place.1 + place.2 ≤ size)
    (ascending : layout.Pairwise fun a b => a.1 + a.2 ≤ b.1) : Fit size fields where
  room := by
    intro field mem
    apply room (field.1, field.2.length)
    rw [← laid]
    exact List.mem_map_of_mem mem
  apart := by
    rw [← laid, List.pairwise_map] at ascending
    apply ascending.imp
    intro f g before i first second
    exact absurd first.2 (Nat.not_lt.mpr (Nat.le_trans before second.1))

/-- The bytes of no field are those of no place. -/
theorem nowhere_iff {fields : List (Nat × List α)} {layout : List (Nat × Nat)}
    (laid : (fields.map fun field => (field.1, field.2.length)) = layout) (i : Nat) :
    (∀ field ∈ fields, ¬ Within field i) ↔ ∀ place ∈ layout, ¬ (place.1 ≤ i ∧ i < place.1 + place.2) := by
  rw [← laid, List.forall_mem_map]
  exact Iff.rfl

section Records

variable {size : Nat} {record : List α} {fields : List (Nat × List α)}

theorem length_writeAll (fit : Fit record.length fields) : (writeAll record fields).length = record.length := by
  induction fields generalizing record with
  | nil => rfl
  | cons field rest ih =>
      have first := length_splice (fit.room field List.mem_cons_self)
      change (writeAll (splice record field.1 field.2) rest).length = _
      rw [ih, first]
      rw [first]
      exact ⟨fun g mem => fit.room g (List.mem_cons_of_mem _ mem), (List.pairwise_cons.mp fit.apart).2⟩

/-- A byte of the record is the byte of its field, or what was there before. -/
theorem getElem?_writeAll (fit : Fit record.length fields) (i : Nat) :
    (∀ field ∈ fields, Within field i → (writeAll record fields)[i]? = field.2[i - field.1]?) ∧
      ((∀ field ∈ fields, ¬ Within field i) → (writeAll record fields)[i]? = record[i]?) := by
  induction fields generalizing record with
  | nil => exact ⟨fun _ none => (by cases none), fun _ => rfl⟩
  | cons field rest ih =>
      obtain ⟨others, apart⟩ := List.pairwise_cons.mp fit.apart
      have room := fit.room field List.mem_cons_self
      have later : Fit (splice record field.1 field.2).length rest := by
        rw [length_splice room]
        exact ⟨fun g mem => fit.room g (List.mem_cons_of_mem _ mem), apart⟩
      obtain ⟨inside, outside⟩ := ih later
      change (∀ g ∈ field :: rest, Within g i → (writeAll (splice record field.1 field.2) rest)[i]? = _) ∧
        (_ → (writeAll (splice record field.1 field.2) rest)[i]? = _)
      constructor
      · intro g mem here
        rcases List.mem_cons.mp mem with rfl | mem
        · rw [outside fun f there => others f there i here, getElem?_splice room, if_pos here]
        · exact inside g mem here
      · intro nowhere
        rw [outside fun f there => nowhere f (List.mem_cons_of_mem _ there), getElem?_splice room,
          if_neg (nowhere field List.mem_cons_self)]

/-- Every field reads back as it was written. -/
theorem slice_writeAll (fit : Fit record.length fields) {field : Nat × List α} (mem : field ∈ fields) :
    slice (writeAll record fields) field.1 field.2.length = field.2 := by
  apply List.ext_getElem?
  intro i
  rw [getElem?_slice]
  split
  · have here : Within field (field.1 + i) := ⟨Nat.le_add_right _ _, Nat.add_lt_add_left ‹_› _⟩
    rw [(getElem?_writeAll fit _).1 field mem here, Nat.add_sub_cancel_left]
  · exact (List.getElem?_eq_none (Nat.not_lt.mp ‹_›)).symm

/-- Writing what a record has at some places over another gives the record back exactly when the two agree
elsewhere. -/
theorem writeAll_eq_iff {original : List α} (fit : Fit record.length fields)
    (alike : original.length = record.length)
    (read : ∀ field ∈ fields, field.2 = slice original field.1 field.2.length) :
    writeAll record fields = original ↔
      ∀ i, (∀ field ∈ fields, ¬ Within field i) → original[i]? = record[i]? := by
  constructor
  · rintro rfl i nowhere
    exact (getElem?_writeAll fit i).2 nowhere
  · intro same
    apply List.ext_getElem?
    intro i
    by_cases somewhere : ∃ field ∈ fields, Within field i
    · obtain ⟨field, mem, here⟩ := somewhere
      have byte := congrArg (·[i - field.1]?) (read field mem)
      have place : field.1 + (i - field.1) = i := Nat.add_sub_cancel' here.1
      have inside : i - field.1 < field.2.length := by
        have := here.2
        omega
      rw [getElem?_slice, if_pos inside, place] at byte
      rw [(getElem?_writeAll fit i).1 field mem here, byte]
    · have nowhere : ∀ field ∈ fields, ¬ Within field i := fun field mem here => somewhere ⟨field, mem, here⟩
      rw [(getElem?_writeAll fit i).2 nowhere, same i nowhere]

end Records

end Lib
