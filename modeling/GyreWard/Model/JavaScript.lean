/-
Module: GyreWard.Model.JavaScript
Purpose: What the client's language does with the values the reader builds: `TextDecoder`, a value as
  the name of a property, and assignment to a property.
Trusted boundary: human-reviewed; the language as it is documented, with no bound on the stack or on
  the length of a string
Main exports: JsString, Js, textDecode, isJsSpace, Js.view, propertyKey, assign
-/
import Mathlib.Data.List.Basic
import GyreWard.Model.Wire

namespace GyreWard

/-- A JavaScript string, by its code points. -/
abbrev JsString := List Nat

/-- What the reader makes of a reply.  `heir` is an object whose prototype an assignment to `__proto__`
has set, and `broken` is the `BREAK` symbol. -/
inductive Js where
  | number (n : Int)
  | bigint (n : Int)
  | string (s : JsString)
  | bool (b : Bool)
  | null
  | array (items : List Js)
  | object (fields : List (JsString × Js))
  | heir (parent : Js) (fields : List (JsString × Js))
  | broken
deriving Repr

/-! ### Texts -/

/-- The state of a `TextDecoder` in the middle of a sequence: the code point so far, how many
bytes it still needs, and the bounds on the next one. -/
structure Utf8 where
  point : Nat := 0
  needed : Nat := 0
  lower : Nat := 0x80
  upper : Nat := 0xBF
deriving DecidableEq, Repr

def replacement : Nat := 0xFFFD

/-- A byte at the start of a sequence: a whole code point, the state it opens, or an error. -/
def utf8Lead (b : Nat) : Sum Nat Utf8 :=
  if b < 0x80 then .inl b
  else if 0xC2 ≤ b ∧ b ≤ 0xDF then .inr { point := b &&& 0x1F, needed := 1 }
  else if 0xE0 ≤ b ∧ b ≤ 0xEF then
    .inr { point := b &&& 0xF, needed := 2, lower := if b = 0xE0 then 0xA0 else 0x80
           upper := if b = 0xED then 0x9F else 0xBF }
  else if 0xF0 ≤ b ∧ b ≤ 0xF4 then
    .inr { point := b &&& 0x7, needed := 3, lower := if b = 0xF0 then 0x90 else 0x80
           upper := if b = 0xF4 then 0x8F else 0xBF }
  else .inl replacement

/-- One byte at the start of a sequence, with what it emits and the state after it. -/
def utf8Start (b : Nat) : JsString × Utf8 :=
  match utf8Lead b with
  | .inl point => ([point], {})
  | .inr state => ([], state)

/-- The UTF-8 decoder of the Encoding standard, not fatal: what is not UTF-8 becomes U+FFFD. -/
def utf8Decode : List Nat → Utf8 → JsString
  | [], state => if state.needed = 0 then [] else [replacement]
  | b :: rest, state =>
      if state.needed = 0 then
        let (emitted, state) := utf8Start b
        emitted ++ utf8Decode rest state
      else if state.lower ≤ b ∧ b ≤ state.upper then
        let point := state.point <<< 6 ||| (b &&& 0x3F)
        if state.needed = 1 then point :: utf8Decode rest {}
        else utf8Decode rest { point, needed := state.needed - 1 }
      else
        let (emitted, state) := utf8Start b
        replacement :: (emitted ++ utf8Decode rest state)

/-- `new TextDecoder().decode(bytes)`: a byte order mark at the front is dropped. -/
def textDecode (bytes : List UInt8) : JsString :=
  match utf8Decode (bytes.map UInt8.toNat) {} with
  | 0xFEFF :: rest => rest
  | points => points

/-- The code points of a literal of the client. -/
def jsText (literal : String) : JsString := literal.toList.map Char.toNat

def jsDecimal (n : Int) : JsString := (decimal n).map UInt8.toNat

/-- The white space of `\s`, `trim` and numeric strings, line ends among it. -/
def isJsSpace (c : Nat) : Bool :=
  (9 ≤ c && c ≤ 13) || c == 0x20 || c == 0xA0 || c == 0x1680 || (0x2000 ≤ c && c ≤ 0x200A) ||
    c == 0x2028 || c == 0x2029 || c == 0x202F || c == 0x205F || c == 0x3000 || c == 0xFEFF

/-- `trim`. -/
def jsTrim (s : JsString) : JsString :=
  ((s.dropWhile isJsSpace).reverse.dropWhile isJsSpace).reverse

/-! ### Lengths

An object that inherits from an array is joined as one, up to its `length`, whatever that is. -/

/-- The greatest length `ToLength` returns. -/
def maxLength : Nat := 2 ^ 53 - 1

/-- `ToLength` of an integer. -/
def toLength (n : Int) : Nat := min n.toNat maxLength

/-- The integer part of a quotient rounded to a double, ties to even; what is beyond `maxLength` stays
beyond it. -/
def doubleFloor (num den : Nat) : Nat :=
  let scale := if num < den then 2 ^ 53 else 2 ^ (52 - Nat.log2 (num / den))
  let whole := num * scale / den
  let rest := num * scale % den
  (if den < 2 * rest ∨ (den = 2 * rest ∧ whole % 2 = 1) then whole + 1 else whole) / scale

/-- What a digit counts, in any radix up to sixteen. -/
def digitValue (c : Nat) : Option Nat :=
  if 0x30 ≤ c ∧ c ≤ 0x39 then some (c - 0x30)
  else if 0x41 ≤ c ∧ c ≤ 0x46 then some (c - 0x41 + 10)
  else if 0x61 ≤ c ∧ c ≤ 0x66 then some (c - 0x61 + 10)
  else none

def isRadixDigit (radix c : Nat) : Bool := (digitValue c).any (· < radix)

def digitsValue (radix : Nat) (digits : JsString) : Nat :=
  digits.foldl (fun n c => n * radix + (digitValue c).getD 0) 0

/-- Digits behind `0x`, `0o` or `0b`; anything else is not a number. -/
def radixLength (radix : Nat) (digits : JsString) : Nat :=
  if digits ≠ [] ∧ digits.all (isRadixDigit radix) then toLength (digitsValue radix digits) else 0

/-- The exponent behind a decimal, if it is one. -/
def exponentOf : JsString → Option Int
  | [] => some 0
  | e :: rest =>
      if e = 0x65 ∨ e = 0x45 then
        let (negative, digits) :=
          match rest with
          | 0x2d :: digits => (true, digits)
          | 0x2b :: digits => (false, digits)
          | digits => (false, digits)
        if digits ≠ [] ∧ digits.all (isRadixDigit 10) then
          some (if negative then -(digitsValue 10 digits : Int) else digitsValue 10 digits)
        else none
      else none

/-- A decimal with no sign. -/
def decimalLength (s : JsString) : Nat :=
  if s = jsText "Infinity" then maxLength
  else
    let whole := s.takeWhile (isRadixDigit 10)
    let behind := s.dropWhile (isRadixDigit 10)
    let (fraction, behind) :=
      match behind with
      | 0x2e :: rest => (rest.takeWhile (isRadixDigit 10), rest.dropWhile (isRadixDigit 10))
      | rest => ([], rest)
    if whole ++ fraction = [] then 0
    else
      match exponentOf behind with
      | none => 0
      | some e =>
          let digits := digitsValue 10 (whole ++ fraction)
          let shift := e - fraction.length
          toLength (doubleFloor (digits * 10 ^ shift.toNat) (10 ^ (-shift).toNat))

/-- `ToLength` of a string: what is not a number, or is negative, is a length of 0. -/
def stringLength (s : JsString) : Nat :=
  match jsTrim s with
  | 0x30 :: x :: digits =>
      if x = 0x78 ∨ x = 0x58 then radixLength 16 digits
      else if x = 0x6f ∨ x = 0x4f then radixLength 8 digits
      else if x = 0x62 ∨ x = 0x42 then radixLength 2 digits
      else decimalLength (0x30 :: x :: digits)
  | 0x2d :: _ => 0
  | 0x2b :: rest => decimalLength rest
  | rest => decimalLength rest

/-! ### Conversions -/

/-- What the language makes of a value: its text, its length, and its text as an item of an array.
`none` is a `TypeError`. -/
structure Face where
  text : Option JsString
  length : Option Nat
  item : Option JsString

/-- Where a chain of prototypes ends: in `Object.prototype`, in an array, or in `null`. -/
inductive Base where
  | object
  | array (items : List Face)
  | nothing

/-- A value, with the fields that a chain of prototypes shows, the nearest first. -/
structure View where
  face : Face
  fields : List (JsString × Face)
  base : Base

/-- `Array.prototype.join` with commas, of `n` items. -/
def joined (item : Nat → Option JsString) (n : Nat) : Option JsString :=
  ((List.range n).mapM item).map fun texts => (texts.intersperse (jsText ",")).flatten

/-- An item of an array, or of what inherits from one. -/
def itemText (fields : List (JsString × Face)) (items : List Face) (i : Nat) : Option JsString :=
  match fields.lookup (jsDecimal i) with
  | some face => face.item
  | none =>
    match items[i]? with
    | some face => face.item
    | none => some []

/-- `ToString` of an object.  No field is a function: a `toString` among them leaves `valueOf`, which
gives the object back, and a `join` among them leaves `Object.prototype.toString`. -/
def objectText (fields : List (JsString × Face)) (base : Base) : Option JsString :=
  if (fields.lookup (jsText "toString")).isSome then none
  else
    match base with
    | .nothing => none
    | .object => some (jsText "[object Object]")
    | .array items =>
        if (fields.lookup (jsText "join")).isSome then some (jsText "[object Object]")
        else
          match fields.lookup (jsText "length") with
          | none => joined (itemText fields items) items.length
          | some face => face.length.bind (joined (itemText fields items))

def Face.ofText (text : Option JsString) : Face :=
  { text, length := text.map stringLength, item := text }

def View.ofFace (face : Face) : View := { face, fields := [], base := .nothing }

def View.ofChain (fields : List (JsString × Face)) (base : Base) : View :=
  { face := Face.ofText (objectText fields base), fields, base }

mutual

def Js.view : Js → View
  | .number n => .ofFace { Face.ofText (some (jsDecimal n)) with length := some (toLength n) }
  | .bigint n => .ofFace { Face.ofText (some (jsDecimal n)) with length := none }
  | .string s => .ofFace (Face.ofText (some s))
  | .bool b =>
      .ofFace { Face.ofText (some (jsText (if b then "true" else "false"))) with
        length := some (if b then 1 else 0) }
  | .null => .ofFace { text := some (jsText "null"), length := some 0, item := some [] }
  | .array items => .ofChain [] (.array (itemFaces items))
  | .object fields => .ofChain (fieldFaces fields) .object
  | .heir parent fields => .ofChain (fieldFaces fields ++ parent.view.fields) parent.view.base
  | .broken => .ofFace { text := none, length := none, item := none }

def itemFaces : List Js → List Face
  | [] => []
  | item :: rest => item.view.face :: itemFaces rest

def fieldFaces : List (JsString × Js) → List (JsString × Face)
  | [] => []
  | (key, value) :: rest => (key, value.view.face) :: fieldFaces rest

end

/-! ### Properties -/

/-- The key `out[key]` uses for a value, if it has one.  The symbol is its own key, here one that no
text is. -/
def propertyKey : Js → Option JsString
  | .broken => some [0x110000]
  | key => key.view.face.text

/-- `out[key] = value` in the fields of the object itself. -/
def setField (key : JsString) (value : Js) (fields : List (JsString × Js)) :
    List (JsString × Js) :=
  if fields.any (·.1 == key) then fields.map fun f => if f.1 == key then (key, value) else f
  else fields ++ [(key, value)]

def protoKey : JsString := jsText "__proto__"

/-- Can a value be the prototype of an object? -/
def Js.canBeParent : Js → Bool
  | .null | .array _ | .object _ | .heir _ _ => true
  | _ => false

/-- Does a chain of prototypes inherit the setter of `__proto__`? -/
def Js.rooted (parent : Js) : Bool :=
  match parent.view.base with
  | .nothing => false
  | _ => true

/-- `out[key] = value`.  Where the setter of `__proto__` is inherited, it changes the prototype, or
nothing. -/
def assign (key : JsString) (value : Js) : Js → Js
  | .object fields =>
      if key ≠ protoKey then .object (setField key value fields)
      else if value.canBeParent then .heir value fields
      else .object fields
  | .heir parent fields =>
      if key ≠ protoKey ∨ ¬ parent.rooted then .heir parent (setField key value fields)
      else if value.canBeParent then .heir value fields
      else .heir parent fields
  | out => out

end GyreWard
