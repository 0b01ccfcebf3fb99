/-
Module: GyreWard.Model.Cbor
Purpose: The reply writer (`thirdparty/interactor`, `cbor.c`) and the client's reader
  (`client/src/cbor.js`).
Trusted boundary: human-reviewed translation of the source
Main exports: Cbor, weftCborHead, weftCborInt, weftCborText, narrow, readOne, readValueOr, decode
-/
import GyreWard.Model.JavaScript

namespace GyreWard

/-! ### The writer -/

/-- `weft_cbor_t`: the bytes written so far, the room, and whether it ran out. -/
structure Cbor where
  out : List UInt8
  cap : Nat
  overran : Bool
deriving DecidableEq, Repr

/-- `weft_cbor_to`. -/
def weftCborTo (cap : Nat) : Cbor := { out := [], cap, overran := false }

def weftCborRaw (b : UInt8) (c : Cbor) : Cbor :=
  if c.cap ≤ c.out.length then { c with overran := true } else { c with out := c.out ++ [b] }

/-- A run of `weft_cbor_raw`. -/
def Cbor.write (bytes : List UInt8) (c : Cbor) : Cbor := bytes.foldl (fun c b => weftCborRaw b c) c

/-- The `n` low bytes of `v`, the highest first. -/
def bigEndian : Nat → Nat → List UInt8
  | 0, _ => []
  | n + 1, v => UInt8.ofNat (v >>> (n * 8)) :: bigEndian n v

/-- The bytes of a head: the major type over the argument, which spills into 1, 2, 4 or 8
bytes as it grows. -/
def headBytes (major v : Nat) : List UInt8 :=
  let m := major <<< 5
  if v < 24 then [UInt8.ofNat (m ||| v)]
  else if v ≤ 0xff then UInt8.ofNat (m ||| 24) :: bigEndian 1 v
  else if v ≤ 0xffff then UInt8.ofNat (m ||| 25) :: bigEndian 2 v
  else if v ≤ 0xffffffff then UInt8.ofNat (m ||| 26) :: bigEndian 4 v
  else UInt8.ofNat (m ||| 27) :: bigEndian 8 v

def weftCborHead (major v : Nat) (c : Cbor) : Cbor := c.write (headBytes major v)

/-- What an integer is once it is passed as an `int64_t`. -/
def toInt64 (v : Int) : Int := (v + 2 ^ 63) % 2 ^ 64 - 2 ^ 63

/-- `weft_cbor_int`, of an integer passed as an `int64_t`. -/
def weftCborInt (v : Int) (c : Cbor) : Cbor :=
  let v := toInt64 v
  if v < 0 then weftCborHead 1 (-(v + 1)).toNat c else weftCborHead 0 v.toNat c

/-- What `strlen` sees of a text. -/
def cString (s : Text) : Text := s.takeWhile (· ≠ 0)

def weftCborText (s : Text) (c : Cbor) : Cbor :=
  (weftCborHead 3 (cString s).length c).write (cString s)

def weftCborMap (pairs : Nat) (c : Cbor) : Cbor := weftCborHead 5 pairs c

def weftCborArray (items : Nat) (c : Cbor) : Cbor := weftCborHead 4 items c

def weftCborBool (b : Bool) (c : Cbor) : Cbor := weftCborRaw (if b then 0xf5 else 0xf4) c

def weftCborBreak (c : Cbor) : Cbor := weftCborRaw 0xff c

def weftCborKvInt (k : Text) (v : Int) (c : Cbor) : Cbor := weftCborInt v (weftCborText k c)

/-! ### The reader -/

/-- An argument as `Reader.arg` returns it: a `Number`, or a `BigInt` for eight bytes. -/
inductive Arg where
  | number (n : Nat)
  | bigint (n : Nat)
deriving DecidableEq, Repr

/-- `Number(arg)`. -/
def Arg.value : Arg → Nat
  | .number n => n
  | .bigint n => n

/-- `n` bytes as a number, the highest first. -/
def readBytes : Nat → Nat → List UInt8 → Option (Nat × List UInt8)
  | 0, v, bytes => some (v, bytes)
  | _ + 1, _, [] => none
  | n + 1, v, b :: rest => readBytes n (v * 256 + b.toNat) rest

/-- `Reader.arg`; `none` is an exception, here and below. -/
def readArg (low : Nat) (bytes : List UInt8) : Option (Arg × List UInt8) :=
  if low < 24 then some (.number low, bytes)
  else if low = 24 then (readBytes 1 0 bytes).map fun (v, rest) => (.number v, rest)
  else if low = 25 then (readBytes 2 0 bytes).map fun (v, rest) => (.number v, rest)
  else if low = 26 then (readBytes 4 0 bytes).map fun (v, rest) => (.number v, rest)
  else if low = 27 then (readBytes 8 0 bytes).map fun (v, rest) => (.bigint v, rest)
  else none

/-- `Number.MAX_SAFE_INTEGER`. -/
def maxSafe : Int := 9007199254740991

/-- `narrow`. -/
def narrow (v : Int) : Js := if -maxSafe ≤ v ∧ v ≤ maxSafe then .number v else .bigint v

/-- The loop of a definite array. -/
def readItems (read : List UInt8 → Option (Js × List UInt8)) :
    Nat → List UInt8 → Option (List Js × List UInt8)
  | 0, bytes => some ([], bytes)
  | n + 1, bytes => do
      let (item, rest) ← read bytes
      let (items, rest) ← readItems read n rest
      return (item :: items, rest)

/-- The loop of an indefinite array, which ends at a break.  Every turn reads a byte, so the bytes
that are left bound the turns; `spent` is for a loop that had no turn left. -/
def readUntilBreak (read spent : List UInt8 → Option (Js × List UInt8)) :
    Nat → List UInt8 → Option (List Js × List UInt8)
  | 0, bytes => (spent bytes).map fun (_, rest) => ([], rest)
  | n + 1, bytes => do
      let (item, rest) ← read bytes
      match item with
      | .broken => return ([], rest)
      | item =>
          let (items, rest) ← readUntilBreak read spent n rest
          return (item :: items, rest)

/-- The loop of a map: `out[key] = value`, where the key can name a property. -/
def readFields (read : List UInt8 → Option (Js × List UInt8)) :
    Nat → Js → List UInt8 → Option (Js × List UInt8)
  | 0, out, bytes => some (out, bytes)
  | n + 1, out, bytes => do
      let (key, rest) ← read bytes
      let (value, rest) ← read rest
      let name ← propertyKey key
      readFields read n (assign name value out) rest

/-- `Reader.value`, with `read` for the values inside it.  A subarray past the end of the bytes is the
bytes that are there. -/
def readOne (read spent : List UInt8 → Option (Js × List UInt8)) :
    List UInt8 → Option (Js × List UInt8)
  | [] => none
  | head :: bytes =>
      let major := head.toNat >>> 5
      let low := head.toNat &&& 0x1f
      if head = 0xff then some (.broken, bytes)
      else
        match major with
        | 0 => do
            match ← readArg low bytes with
            | (.bigint v, rest) => return (narrow v, rest)
            | (.number v, rest) => return (.number v, rest)
        | 1 => do
            match ← readArg low bytes with
            | (.bigint v, rest) => return (narrow (-1 - v), rest)
            | (.number v, rest) => return (.number (-1 - v), rest)
        | 3 => do
            let (n, rest) ← readArg low bytes
            return (.string (textDecode (rest.take n.value)), rest.drop n.value)
        | 4 =>
            if low = 31 then do
              let (items, rest) ← readUntilBreak read spent (bytes.length + 1) bytes
              return (.array items, rest)
            else do
              let (n, rest) ← readArg low bytes
              let (items, rest) ← readItems read n.value rest
              return (.array items, rest)
        | 5 => do
            let (n, rest) ← readArg low bytes
            readFields read n.value (.object []) rest
        | 7 =>
            if low = 20 then some (.bool false, bytes)
            else if low = 21 then some (.bool true, bytes)
            else if low = 22 then some (.null, bytes)
            else none
        | _ => none

/-- At most `depth` values inside one another, and `spent` for one that is deeper. -/
def readValueOr (spent : List UInt8 → Option (Js × List UInt8)) :
    Nat → List UInt8 → Option (Js × List UInt8)
  | 0 => spent
  | depth + 1 => readOne (readValueOr spent depth) spent

def readValue : Nat → List UInt8 → Option (Js × List UInt8) := readValueOr fun _ => none

/-- `decode`, with the bytes it did not consume.  A value inside another starts after the head
of the outer one, so the bytes bound the depth. -/
def decode (bytes : List UInt8) : Option (Js × List UInt8) := readValue (bytes.length + 1) bytes

end GyreWard
