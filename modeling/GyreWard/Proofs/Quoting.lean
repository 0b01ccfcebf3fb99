/-
Module: GyreWard.Proofs.Quoting
Purpose: A name that `quoted` has been over is the inside of one SQL literal, in a buffer of any size.
Trusted boundary: human-reviewed spec (`Buffer.Holds`)
Main exports: Buffer.Holds, fits, quotedLoop_eq, quoted_holds, quoted_outside, quoted_is_one_literal
-/
import Mathlib.Data.List.TakeWhile
import GyreWard.Lib.Quotes
import GyreWard.Model.Cbor

namespace GyreWard

open Lib

/-! ### Buffers -/

namespace Buffer

/-- The buffer begins with a text and its terminator. -/
structure Holds (out : Buffer) (t : Text) : Prop where
  bytes : ∀ (i : Nat) (inside : i < t.length), out i = t[i]
  ended : out t.length = 0
  proper : 0 ∉ t

/-- A text written byte by byte. -/
def write (out : Buffer) : Nat → Text → Buffer
  | _, [] => out
  | j, c :: t => write (out.put j c) (j + 1) t

@[simp] theorem put_same (out : Buffer) (j : Nat) (c : UInt8) : out.put j c j = c := if_pos rfl

theorem put_other (out : Buffer) {i j : Nat} (c : UInt8) (other : i ≠ j) :
    out.put j c i = out i := if_neg other

theorem write_outside {t : Text} {i j : Nat} (out : Buffer) (outside : i < j ∨ j + t.length ≤ i) :
    out.write j t i = out i := by
  induction t generalizing j out with
  | nil => rfl
  | cons c t ih =>
      rw [List.length_cons] at outside
      have later : i < j + 1 ∨ j + 1 + t.length ≤ i := by omega
      have other : i ≠ j := by omega
      rw [write, ih (out.put j c) later, put_other out c other]

theorem write_inside {t : Text} (out : Buffer) (j : Nat) {i : Nat} (inside : i < t.length) :
    out.write j t (j + i) = t[i] := by
  induction t generalizing i j out with
  | nil => cases inside
  | cons c t ih =>
      cases i with
      | zero =>
          have first : j < j + 1 := Nat.lt_succ_self j
          rw [Nat.add_zero, write, write_outside _ (.inl first), put_same]
          rfl
      | succ i =>
          have shifted : j + (i + 1) = j + 1 + i := by omega
          rw [write, shifted, ih (out.put j c) (j + 1) (Nat.lt_of_succ_lt_succ inside)]
          rfl

end Buffer

/-! ### The loop -/

/-- The characters the loop goes over, when `j` bytes are written. -/
def fits (cap : Nat) : Text → Nat → Text
  | [], _ => []
  | c :: rest, j =>
      if c ≠ 0 ∧ j + 2 < cap then
        c :: fits cap rest (if c = apostrophe then j + 2 else j + 1)
      else []

variable {cap : Nat}

/-- The loop writes what it goes over, with every apostrophe doubled. -/
theorem quotedLoop_eq (input : Text) (j : Nat) (out : Buffer) :
    quotedLoop cap input j out =
      (j + (double apostrophe (fits cap input j)).length,
        out.write j (double apostrophe (fits cap input j))) := by
  induction input generalizing j out with
  | nil => rfl
  | cons c rest ih =>
      by_cases room : c ≠ 0 ∧ j + 2 < cap
      case neg => rw [quotedLoop, fits, if_neg room, if_neg room]; rfl
      case pos =>
          rw [quotedLoop, fits, if_pos room, if_pos room]
          by_cases same : c = apostrophe
          case pos =>
              rw [if_pos same, if_pos same, ih, same, double_quote, List.length_cons, List.length_cons,
                Buffer.write, Buffer.write]
              simp only [Prod.mk.injEq, and_true]
              omega
          case neg =>
              rw [if_neg same, if_neg same, ih, double_other same, List.length_cons, Buffer.write]
              simp only [Prod.mk.injEq, and_true]
              omega

theorem cString_cons {c : UInt8} (some : c ≠ 0) (rest : Text) :
    cString (c :: rest) = c :: cString rest := by
  rw [cString, List.takeWhile_cons_of_pos (by simpa using some)]
  rfl

theorem fits_front (input : Text) (j : Nat) : fits cap input j <+: cString input := by
  induction input generalizing j with
  | nil => exact List.nil_prefix
  | cons c rest ih =>
      by_cases room : c ≠ 0 ∧ j + 2 < cap
      case pos =>
          rw [fits, if_pos room, cString_cons room.1]
          exact List.cons_prefix_cons.mpr ⟨rfl, ih _⟩
      case neg =>
          rw [fits, if_neg room]
          exact List.nil_prefix

/-- A buffer of twice the name and two bytes more holds all of it. -/
theorem fits_whole {input : Text} {j : Nat} (large : j + (2 * (cString input).length + 2) ≤ cap) :
    fits cap input j = cString input := by
  induction input generalizing j with
  | nil => rfl
  | cons c rest ih =>
      by_cases some : c ≠ 0
      case pos =>
          rw [cString_cons some, List.length_cons] at large
          have room : c ≠ 0 ∧ j + 2 < cap := ⟨some, by omega⟩
          rw [fits, if_pos room, cString_cons some, ih]
          split <;> omega
      case neg =>
          have ended : c = 0 := not_not.mp some
          rw [fits, if_neg fun room => some room.1, ended]
          rfl

/-- What is written leaves room for the terminator. -/
theorem fits_room (input : Text) {j : Nat} (room : j < cap) :
    j + (double apostrophe (fits cap input j)).length < cap := by
  induction input generalizing j with
  | nil => exact room
  | cons c rest ih =>
      by_cases go : c ≠ 0 ∧ j + 2 < cap
      case neg =>
          rw [fits, if_neg go]
          exact room
      case pos =>
          have more := go.2
          rw [fits, if_pos go]
          by_cases same : c = apostrophe
          case pos =>
              have rest := ih (j := j + 2) more
              rw [if_pos same, same, double_quote, List.length_cons, List.length_cons]
              omega
          case neg =>
              have rest := ih (j := j + 1) (by omega)
              rw [if_neg same, double_other same, List.length_cons]
              omega

/-! ### The name -/

/-- What `quoted` leaves in the buffer, in front of the terminator. -/
def quotedText (cap : Nat) (input : Text) : Text := double apostrophe (fits cap input 0)

theorem quoted_eq (input : Text) (out : Buffer) :
    quoted input out cap =
      (out.write 0 (quotedText cap input)).put (quotedText cap input).length 0 := by
  rw [quoted, quotedLoop_eq, Nat.zero_add]
  rfl

theorem quotedText_proper (input : Text) : 0 ∉ quotedText cap input := by
  intro member
  obtain ⟨c, inside, doubled⟩ := List.mem_flatMap.mp member
  have proper : c ≠ 0 := by
    have whole := (fits_front input 0).subset inside
    simpa using List.mem_takeWhile_imp whole
  split at doubled
  case isTrue => simp [apostrophe] at doubled
  case isFalse => exact proper (List.mem_singleton.mp doubled).symm

theorem quoted_holds (input : Text) (out : Buffer) :
    (quoted input out cap).Holds (quotedText cap input) where
  bytes := by
    intro i inside
    have written := Buffer.write_inside out 0 inside
    rw [Nat.zero_add] at written
    rw [quoted_eq, Buffer.put_other _ _ inside.ne, written]
  ended := by rw [quoted_eq, Buffer.put_same]
  proper := quotedText_proper input

theorem quotedText_room (input : Text) (room : 1 ≤ cap) : (quotedText cap input).length < cap := by
  have inside := fits_room input room
  rwa [Nat.zero_add] at inside

theorem quoted_outside {input : Text} {out : Buffer} {i : Nat} (room : 1 ≤ cap) (beyond : cap ≤ i) :
    quoted input out cap i = out i := by
  have inside := quotedText_room input room
  have behind : 0 + (quotedText cap input).length ≤ i := by omega
  have other : i ≠ (quotedText cap input).length := by omega
  rw [quoted_eq, Buffer.put_other _ _ other, Buffer.write_outside out (.inr behind)]

/-- What `quoted` leaves, between apostrophes, is one SQL literal and no more: it stands for the front
of the name, and for all of it in a buffer of twice its size and two bytes. -/
theorem quoted_is_one_literal (input : Text) (out : Buffer) (cap : Nat) (room : 1 ≤ cap) :
    ∃ t : Text,
      (quoted input out cap).Holds t ∧ t.length < cap ∧
      (∀ i, cap ≤ i → quoted input out cap i = out i) ∧
      readLiteral apostrophe (apostrophe :: (t ++ [apostrophe])) = some (undouble apostrophe t, []) ∧
      undouble apostrophe t <+: cString input ∧
      (2 * (cString input).length + 2 ≤ cap → undouble apostrophe t = cString input) := by
  exists quotedText cap input
  have single : undouble apostrophe (quotedText cap input) = fits cap input 0 := undouble_double _
  refine ⟨quoted_holds input out, quotedText_room input room, ?_, ?_, ?_, ?_⟩
  · intro i beyond
    exact quoted_outside room beyond
  · rw [single]
    apply readLiteral_double
    simp
  · rw [single]
    exact fits_front input 0
  · intro large
    rw [single]
    apply fits_whole
    omega

theorem tavern_is_one_literal :
    ∃ t : Text,
      (quoted (text "Cycle's End Tavern") (fun _ => 0) 64).Holds t ∧ t.length < 64 ∧
      (∀ i, 64 ≤ i → quoted (text "Cycle's End Tavern") (fun _ => 0) 64 i = 0) ∧
      readLiteral apostrophe (apostrophe :: (t ++ [apostrophe])) = some (undouble apostrophe t, []) ∧
      undouble apostrophe t <+: cString (text "Cycle's End Tavern") ∧
      (2 * (cString (text "Cycle's End Tavern")).length + 2 ≤ 64 →
        undouble apostrophe t = cString (text "Cycle's End Tavern")) :=
  quoted_is_one_literal (text "Cycle's End Tavern") (fun _ => 0) 64 (by decide)

end GyreWard
