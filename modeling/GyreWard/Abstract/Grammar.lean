/-
Module: GyreWard.Abstract.Grammar
Purpose: The subset of CBOR that the client reads, as a grammar, and the two ways in which bytes can miss
  it and still look like an item.
Trusted boundary: the abstract statement of the component's purpose; the faithful model is compared with
  it
Main exports: Kind, kindOf, Argument, Reads, BeginsWell, WellFormed, Slips, Reads.unique,
  Reads.extend
-/
import GyreWard.Model.Cbor

namespace GyreWard

/-! ### Heads -/

/-- What the first byte of an item announces; `low` is the start of its argument. -/
inductive Kind where
  | integer (negative : Bool) (low : Nat)
  | text (low : Nat)
  | array (low : Nat)
  | stream
  | map (low : Nat)
  | bool (b : Bool)
  | null
  | closing
  | refused
deriving DecidableEq, Repr

/-- The major type is in the three high bits, and the start of the argument in the others. -/
def kindOf (head : UInt8) : Kind :=
  let low := head.toNat % 32
  match head.toNat / 32 with
  | 0 => .integer false low
  | 1 => .integer true low
  | 3 => .text low
  | 4 => if low = 31 then .stream else .array low
  | 5 => .map low
  | 7 =>
      if low = 20 then .bool false
      else if low = 21 then .bool true
      else if low = 22 then .null
      else if low = 31 then .closing
      else .refused
  | _ => .refused

/-- Bytes as a number, the highest first. -/
def bytesValue (digits : List UInt8) : Nat := digits.foldl (fun v b => v * 256 + b.toNat) 0

/-- An argument: `low` itself, or the number in the next 1, 2, 4 or 8 bytes. -/
inductive Argument : Nat → List UInt8 → Nat → List UInt8 → Prop where
  | direct {low : Nat} {bytes : List UInt8} (small : low < 24) : Argument low bytes low bytes
  | spilled {k : Nat} {digits rest : List UInt8} (wide : k < 4) (size : digits.length = 2 ^ k) :
      Argument (24 + k) (digits ++ rest) (bytesValue digits) rest

theorem Argument.unique {low n n' : Nat} {bytes rest rest' : List UInt8}
    (a : Argument low bytes n rest) (b : Argument low bytes n' rest') : n = n' ∧ rest = rest' := by
  cases a with
  | direct small =>
      cases b with
      | direct _ => exact ⟨rfl, rfl⟩
      | spilled _ _ => omega
  | @spilled k digits rest wide size =>
      generalize whole : digits ++ rest = bytes at b
      generalize low : 24 + k = low at b
      cases b with
      | direct small => omega
      | spilled _ size' =>
          obtain rfl := Nat.add_left_cancel low
          obtain ⟨rfl, rfl⟩ := List.append_inj whole (size.trans size'.symm)
          exact ⟨rfl, rfl⟩

theorem Argument.length_le {low n : Nat} {bytes rest : List UInt8}
    (argument : Argument low bytes n rest) : rest.length ≤ bytes.length := by
  cases argument with
  | direct _ => exact Nat.le_refl _
  | spilled _ _ =>
      rw [List.length_append]
      exact Nat.le_add_left _ _

theorem Argument.extend {low n : Nat} {bytes rest : List UInt8} (more : List UInt8)
    (argument : Argument low bytes n rest) : Argument low (bytes ++ more) n (rest ++ more) := by
  cases argument with
  | direct small => exact .direct small
  | spilled wide size =>
      rw [List.append_assoc]
      exact .spilled wide size

/-! ### Items -/

/-- What is to be read: an item, what stands behind a head, a number of items, or a number of fields that
go into an object. -/
inductive Goal where
  | item
  | body (kind : Kind)
  | items (n : Nat)
  | fields (n : Nat) (out : Option Js)

/-- An item in front of the items of an array. -/
def pushed (item items : Option Js) : Option Js :=
  match item, items with
  | some item, some (.array items) => some (.array (item :: items))
  | _, _ => none

/-- A field that goes into an object; `none` once a key cannot name a property. -/
def assigned (key value out : Option Js) : Option Js := do
  let name ← propertyKey (← key)
  return assign name (← value) (← out)

/-- `Reads marred goal bytes v rest`: what `goal` asks for stands at the front of `bytes`, and `rest` is
behind it.  `v` is its value, and `none` where a key cannot name a property.  It is marred if a text is
cut short by the end of the bytes, or the byte that closes a stream stands in the place of an item. -/
inductive Reads : Bool → Goal → List UInt8 → Option Js → List UInt8 → Prop where
  | item {marred : Bool} {head : UInt8} {bytes rest : List UInt8} {v : Option Js}
      (body : Reads marred (.body (kindOf head)) bytes v rest) :
      Reads marred .item (head :: bytes) v rest
  | integer {negative : Bool} {low n : Nat} {bytes rest : List UInt8}
      (argument : Argument low bytes n rest) :
      Reads false (.body (.integer negative low)) bytes
        (some (narrow (if negative then -1 - n else n))) rest
  | text {low : Nat} {bytes s rest : List UInt8} (argument : Argument low bytes s.length (s ++ rest)) :
      Reads false (.body (.text low)) bytes (some (.string (textDecode s))) rest
  | cut {low n : Nat} {bytes s : List UInt8} (argument : Argument low bytes n s)
      (short : s.length < n) :
      Reads true (.body (.text low)) bytes (some (.string (textDecode s))) []
  | array {marred : Bool} {low n : Nat} {bytes more rest : List UInt8} {v : Option Js}
      (argument : Argument low bytes n more) (items : Reads marred (.items n) more v rest) :
      Reads marred (.body (.array low)) bytes v rest
  | map {marred : Bool} {low n : Nat} {bytes more rest : List UInt8} {v : Option Js}
      (argument : Argument low bytes n more)
      (fields : Reads marred (.fields n (some (.object []))) more v rest) :
      Reads marred (.body (.map low)) bytes v rest
  | bool {b : Bool} {bytes : List UInt8} : Reads false (.body (.bool b)) bytes (some (.bool b)) bytes
  | null {bytes : List UInt8} : Reads false (.body .null) bytes (some .null) bytes
  | stray {bytes : List UInt8} : Reads true (.body .closing) bytes (some .broken) bytes
  | close {rest : List UInt8} : Reads false (.body .stream) (0xff :: rest) (some (.array [])) rest
  | streamed {marred marred' : Bool} {bytes more rest : List UInt8} {v vs : Option Js}
      (going : bytes.head? ≠ some 0xff) (first : Reads marred .item bytes v more)
      (others : Reads marred' (.body .stream) more vs rest) :
      Reads (marred || marred') (.body .stream) bytes (pushed v vs) rest
  | noItems {bytes : List UInt8} : Reads false (.items 0) bytes (some (.array [])) bytes
  | items {marred marred' : Bool} {n : Nat} {bytes more rest : List UInt8} {v vs : Option Js}
      (first : Reads marred .item bytes v more) (others : Reads marred' (.items n) more vs rest) :
      Reads (marred || marred') (.items (n + 1)) bytes (pushed v vs) rest
  | noFields {out : Option Js} {bytes : List UInt8} : Reads false (.fields 0 out) bytes out bytes
  | fields {marred marred' marred'' : Bool} {n : Nat} {bytes middle more rest : List UInt8}
      {k v out filled : Option Js} (key : Reads marred .item bytes k middle)
      (value : Reads marred' .item middle v more)
      (others : Reads marred'' (.fields n (assigned k v out)) more filled rest) :
      Reads (marred || marred' || marred'') (.fields (n + 1) out) bytes filled rest

/-- The bytes begin with a well-formed item. -/
def BeginsWell (bytes : List UInt8) : Prop := ∃ v rest, Reads false .item bytes v rest

/-- The bytes are one well-formed item. -/
def WellFormed (bytes : List UInt8) : Prop := ∃ v, Reads false .item bytes v []

/-- The bytes begin with what reads like an item and is none, or with an item that has no value because a
key of its maps cannot name a property. -/
def Slips (bytes : List UInt8) : Prop :=
  (∃ v rest, Reads true .item bytes (some v) rest) ∨ ∃ rest, Reads false .item bytes none rest

/-- There is one way to read what a goal asks for. -/
theorem Reads.unique {marred marred' : Bool} {goal : Goal} {bytes rest rest' : List UInt8}
    {v v' : Option Js} (a : Reads marred goal bytes v rest) (b : Reads marred' goal bytes v' rest') :
    marred = marred' ∧ v = v' ∧ rest = rest' := by
  induction a generalizing marred' v' rest' with
  | item body ih =>
      cases b with
      | item body' => exact ih body'
  | integer argument =>
      cases b with
      | integer argument' =>
          obtain ⟨rfl, rfl⟩ := argument.unique argument'
          exact ⟨rfl, rfl, rfl⟩
  | @text low bytes s rest argument =>
      cases b with
      | text argument' =>
          obtain ⟨size, whole⟩ := argument.unique argument'
          obtain ⟨rfl, rfl⟩ := List.append_inj whole size
          exact ⟨rfl, rfl, rfl⟩
      | cut argument' short =>
          obtain ⟨rfl, rfl⟩ := argument.unique argument'
          rw [List.length_append] at short
          omega
  | cut argument short =>
      cases b with
      | text argument' =>
          obtain ⟨rfl, rfl⟩ := argument.unique argument'
          rw [List.length_append] at short
          omega
      | cut argument' short' =>
          obtain ⟨rfl, rfl⟩ := argument.unique argument'
          exact ⟨rfl, rfl, rfl⟩
  | array argument items ih =>
      cases b with
      | array argument' items' =>
          obtain ⟨rfl, rfl⟩ := argument.unique argument'
          exact ih items'
  | map argument fields ih =>
      cases b with
      | map argument' fields' =>
          obtain ⟨rfl, rfl⟩ := argument.unique argument'
          exact ih fields'
  | bool => cases b with | bool => exact ⟨rfl, rfl, rfl⟩
  | null => cases b with | null => exact ⟨rfl, rfl, rfl⟩
  | stray => cases b with | stray => exact ⟨rfl, rfl, rfl⟩
  | close =>
      cases b with
      | close => exact ⟨rfl, rfl, rfl⟩
      | streamed going _ _ => exact absurd rfl going
  | streamed going first others ih ih' =>
      cases b with
      | close => exact absurd rfl going
      | streamed _ first' others' =>
          obtain ⟨rfl, rfl, rfl⟩ := ih first'
          obtain ⟨rfl, rfl, rfl⟩ := ih' others'
          exact ⟨rfl, rfl, rfl⟩
  | noItems => cases b with | noItems => exact ⟨rfl, rfl, rfl⟩
  | items first others ih ih' =>
      cases b with
      | items first' others' =>
          obtain ⟨rfl, rfl, rfl⟩ := ih first'
          obtain ⟨rfl, rfl, rfl⟩ := ih' others'
          exact ⟨rfl, rfl, rfl⟩
  | noFields => cases b with | noFields => exact ⟨rfl, rfl, rfl⟩
  | fields key value others ih ih' ih'' =>
      cases b with
      | fields key' value' others' =>
          obtain ⟨rfl, rfl, rfl⟩ := ih key'
          obtain ⟨rfl, rfl, rfl⟩ := ih' value'
          obtain ⟨rfl, rfl, rfl⟩ := ih'' others'
          exact ⟨rfl, rfl, rfl⟩

/-- What is behind an item is shorter, and what is behind anything is no longer. -/
theorem Reads.length_le {marred : Bool} {goal : Goal} {bytes rest : List UInt8} {v : Option Js}
    (reads : Reads marred goal bytes v rest) :
    rest.length ≤ bytes.length ∧ (goal = .item → rest.length < bytes.length) := by
  induction reads with
  | item body ih => exact ⟨Nat.le_succ_of_le ih.1, fun _ => Nat.lt_succ_of_le ih.1⟩
  | integer argument => exact ⟨argument.length_le, Goal.noConfusion⟩
  | text argument =>
      have size := argument.length_le
      rw [List.length_append] at size
      exact ⟨by omega, Goal.noConfusion⟩
  | cut _ _ => exact ⟨Nat.zero_le _, Goal.noConfusion⟩
  | array argument _ ih => exact ⟨ih.1.trans argument.length_le, Goal.noConfusion⟩
  | map argument _ ih => exact ⟨ih.1.trans argument.length_le, Goal.noConfusion⟩
  | bool => exact ⟨Nat.le_refl _, Goal.noConfusion⟩
  | null => exact ⟨Nat.le_refl _, Goal.noConfusion⟩
  | stray => exact ⟨Nat.le_refl _, Goal.noConfusion⟩
  | close => exact ⟨Nat.le_succ _, Goal.noConfusion⟩
  | streamed _ _ _ ih ih' => exact ⟨ih'.1.trans ih.1, Goal.noConfusion⟩
  | noItems => exact ⟨Nat.le_refl _, Goal.noConfusion⟩
  | items _ _ ih ih' => exact ⟨ih'.1.trans ih.1, Goal.noConfusion⟩
  | noFields => exact ⟨Nat.le_refl _, Goal.noConfusion⟩
  | fields _ _ _ ih ih' ih'' => exact ⟨ih''.1.trans (ih'.1.trans ih.1), Goal.noConfusion⟩

/-- What is not marred reads the same whatever follows. -/
theorem Reads.extend {goal : Goal} {bytes rest : List UInt8} {v : Option Js} (more : List UInt8)
    (reads : Reads false goal bytes v rest) : Reads false goal (bytes ++ more) v (rest ++ more) := by
  generalize sound : false = marred at reads ⊢
  induction reads with
  | item _ ih => exact .item (ih sound)
  | integer argument => exact .integer (argument.extend more)
  | text argument =>
      have longer := argument.extend more
      rw [List.append_assoc] at longer
      exact .text longer
  | cut _ _ => cases sound
  | array argument _ ih => exact .array (argument.extend more) (ih sound)
  | map argument _ ih => exact .map (argument.extend more) (ih sound)
  | bool => exact .bool
  | null => exact .null
  | stray => cases sound
  | close => exact .close
  | @streamed marred marred' bytes _ _ _ _ going first _ ih ih' =>
      obtain ⟨rfl, rfl⟩ := Bool.or_eq_false_iff.mp sound.symm
      have some := first.length_le.2 rfl
      have same : (bytes ++ more).head? = bytes.head? := by
        cases bytes with
        | nil => cases some
        | cons b bytes => rfl
      exact .streamed (same ▸ going) (ih rfl) (ih' rfl)
  | noItems => exact .noItems
  | items _ _ ih ih' =>
      obtain ⟨rfl, rfl⟩ := Bool.or_eq_false_iff.mp sound.symm
      exact .items (ih rfl) (ih' rfl)
  | noFields => exact .noFields
  | fields _ _ _ ih ih' ih'' =>
      obtain ⟨both, rfl⟩ := Bool.or_eq_false_iff.mp sound.symm
      obtain ⟨rfl, rfl⟩ := Bool.or_eq_false_iff.mp both
      exact .fields (ih rfl) (ih' rfl) (ih'' rfl)

/-- No proper front of a well-formed item begins with one. -/
theorem WellFormed.front {whole bytes : List UInt8} (wellFormed : WellFormed whole)
    (front : bytes <+: whole) (proper : bytes ≠ whole) : ¬ BeginsWell bytes := by
  rintro ⟨v, rest, reads⟩
  obtain ⟨more, rfl⟩ := front
  obtain ⟨v', reads'⟩ := wellFormed
  obtain ⟨-, -, none⟩ := (reads.extend more).unique reads'
  obtain ⟨-, rfl⟩ := List.append_eq_nil_iff.mp none
  exact proper (List.append_nil _).symm

end GyreWard
