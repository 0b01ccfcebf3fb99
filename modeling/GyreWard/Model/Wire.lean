/-
Module: GyreWard.Model.Wire
Purpose: What the ward calls things and where it puts them (`wire.h`), and its budgets
  (`budget.h`, the constants of `queen.c` and `ward.h`).
Trusted boundary: human-reviewed translation of the source
Main exports: Text, Place, wireId, classOwner, uuid8, sparkHome, contractPlace,
  nonphysicalPlace, sparksPerWard, quoted
-/
import Mathlib.Data.Nat.Bitwise

namespace GyreWard

/-- The bytes of a C string, without its terminator. -/
abbrev Text := List UInt8

/-- An ASCII literal of the source. -/
def text (literal : String) : Text := literal.toList.map fun c => UInt8.ofNat c.toNat

/-- `snprintf` into `cap` bytes: what does not fit beside the terminator is cut. -/
def fitted (cap : Nat) (s : Text) : Text := s.take (cap - 1)

/-- `%d`. -/
def decimal (n : Int) : Text :=
  if n < 0 then text "-" ++ (Nat.toDigits 10 n.natAbs).map fun c => UInt8.ofNat c.toNat
  else (Nat.toDigits 10 n.toNat).map fun c => UInt8.ofNat c.toNat

/-! ### Budgets -/

def wardEntities : Nat := 1800
def wardHeadroom : Nat := 400
def wardAuthority : Nat := wardEntities - wardHeadroom

/-- The array bound of `gyre_t`. -/
def maxSparks : Nat := wardAuthority

def boardSize : Nat := 6
def nVenues : Nat := 6
def fixedEntities : Nat := nVenues + 1 + boardSize + 3
def sparksPerWard : Nat := wardAuthority - fixedEntities
def arrivalCycles : Int := 12
def txnMaxParts : Nat := 16
def maxWards : Nat := 8

/-! ### Places -/

/-- A place in micrometres. -/
structure Place where
  x : Int
  y : Int
  z : Int
deriving DecidableEq, Repr, Inhabited

def um (metres : Int) : Int := metres * 1000000

def commonsUm : Int := um 0
def underUm : Int := um (-30)
def nonphysicalUm : Int := um (-60)

/-- Where a Spark stands when it has no contract. -/
def sparkHome (id : Int) : Place :=
  { x := um ((id * 37).tmod 103 - 51)
    y := commonsUm
    z := um ((id * 23).tmod 109 - 54) }

/-- Where the work is. -/
def contractPlace (id : Int) : Place :=
  { x := um ((id * 61).tmod 101 - 50)
    y := if id.tmod 2 ≠ 0 then underUm else commonsUm
    z := um ((id * 47).tmod 101 - 50) }

/-- Where a thing stands when it does not stand anywhere.  The products are `uint32_t`. -/
def nonphysicalPlace (loc : Nat) : Place :=
  { x := um (((loc * 37) % 2 ^ 32 % 103 : Nat) - 51)
    y := nonphysicalUm
    z := um (((loc * 23) % 2 ^ 32 % 109 : Nat) - 54) }

/-! ### Names -/

def wireLocalBits : Nat := 20
def wireLocalMax : Nat := 2 ^ wireLocalBits
def wireWardMax : Nat := 2 ^ (32 - wireLocalBits)

def wireQueen : Nat := 0
def wireVenueBase : Nat := 1
def wireSparkBase : Nat := 0x100
def wireContractBase : Nat := 0x4000

/-- The `CLASS_*` enumeration. -/
inductive WireClass where
  | spark
  | venue
  | contract
  | queen
deriving DecidableEq, Repr

def WireClass.code : WireClass → Nat
  | .spark => 1
  | .venue => 2
  | .contract => 3
  | .queen => 4

/-- The wire name.  `none` is `exit(2)`: a name that does not fit stops the process. -/
def wireId (ward : Int) (loc : Nat) : Option Nat :=
  if ward < 0 ∨ wireWardMax ≤ ward.toNat ∨ wireLocalMax ≤ loc then none
  else some (ward.toNat <<< wireLocalBits ||| loc)

def classOwner (cls : WireClass) (ward : Int) : Nat :=
  cls.code <<< 24 ||| ((ward % 2 ^ 32).toNat &&& 0xffffff)

def mix64 (x : UInt64) : UInt64 :=
  let x := x + 0x9e3779b97f4a7c15
  let x := (x ^^^ (x >>> 30)) * 0xbf58476d1ce4e5b9
  let x := (x ^^^ (x >>> 27)) * 0x94d049bb133111eb
  x ^^^ (x >>> 31)

/-- `%0<width>x`: as many digits as the value has, with zeros in front up to the width. -/
def hexPadded (width n : Nat) : Text :=
  let digits := (Nat.toDigits 16 n).map fun c => UInt8.ofNat c.toNat
  List.replicate (width - digits.length) 48 ++ digits

/-- A UUIDv8 whose high 48 bits are the cycle, in a buffer of 37. -/
def uuid8 (seed : UInt64) (ward cls cycle : Int) (seq : UInt64) : Text :=
  let facts := (UInt64.ofInt ward <<< 40) ^^^ (UInt64.ofInt cls <<< 32) ^^^ seq
  let h := mix64 (seed ^^^ mix64 facts)
  let g := mix64 (h ^^^ 0xd1b54a32d192ed03)
  let ts := (UInt32.ofInt cycle).toUInt64 &&& 0xffffffffffff
  fitted 37 <|
    hexPadded 8 (ts >>> 16).toUInt32.toNat ++ text "-" ++
    hexPadded 4 (ts &&& 0xffff).toUInt32.toNat ++ text "-8" ++
    hexPadded 3 ((h >>> 52) &&& 0xfff).toUInt32.toNat ++ text "-" ++
    hexPadded 4 ((0x8000 : UInt64) ||| ((h >>> 36) &&& 0x3fff)).toUInt32.toNat ++ text "-" ++
    hexPadded 12 (g &&& 0xffffffffffff).toNat

/-! ### Quoting -/

/-- A buffer that a function writes to, by the index of the byte. -/
abbrev Buffer := Nat → UInt8

/-- `out[j] = c`. -/
def Buffer.put (out : Buffer) (j : Nat) (c : UInt8) : Buffer := fun i => if i = j then c else out i

def apostrophe : UInt8 := 0x27

/-- The loop of `quoted`, from byte `j` of `out`; it ends at the terminator of `input`, or where two
more bytes and the terminator may not fit. -/
def quotedLoop (cap : Nat) : Text → Nat → Buffer → Nat × Buffer
  | [], j, out => (j, out)
  | c :: rest, j, out =>
      if c ≠ 0 ∧ j + 2 < cap then
        if c = apostrophe then quotedLoop cap rest (j + 2) ((out.put j apostrophe).put (j + 1) c)
        else quotedLoop cap rest (j + 1) (out.put j c)
      else (j, out)

/-- A name with an apostrophe in it, fit for SQL. -/
def quoted (input : Text) (out : Buffer) (cap : Nat) : Buffer :=
  let (j, out) := quotedLoop cap input 0 out
  out.put j 0

end GyreWard
