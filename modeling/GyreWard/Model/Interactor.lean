/-
Module: GyreWard.Model.Interactor
Purpose: The Queen's interactor (`interactor.c`): a command line in, reply bytes out.
Trusted boundary: human-reviewed translation of the source
Main exports: Command, commandOf, Command.run, wardReply, wardCommand, wardAsk
-/
import GyreWard.Model.Ward
import GyreWard.Model.Cbor

namespace GyreWard

open Lib

/-! ### The command line -/

def slash : UInt8 := 0x2f
def blank : UInt8 := 0x20

/-- A line split as `ward_command` splits it: the verb, the first argument up to the next blank,
and everything after that blank. -/
structure Tokens where
  verb : Text
  arg1 : Option Text
  arg2 : Option Text
deriving DecidableEq, Repr

/-- A word and what stands after the blank that ends it. -/
def splitWord (line : Text) : Text × Option Text :=
  match line.dropWhile (· ≠ blank) with
  | [] => (line, none)
  | _ :: rest => (line.takeWhile (· ≠ blank), some rest)

def tokenise (line : Text) : Tokens :=
  let (verb, rest) := splitWord (line.dropWhile fun c => c == slash || c == blank)
  match rest with
  | none => { verb, arg1 := none, arg2 := none }
  | some rest =>
      let (arg1, rest) := splitWord rest
      { verb, arg1 := some arg1, arg2 := rest }

def isSpace (c : UInt8) : Bool := c == blank || (9 ≤ c && c ≤ 13)

def isDigit (c : UInt8) : Bool := 48 ≤ c && c ≤ 57

/-- The digits at the front of a text, as a number. -/
def leadingDigits (s : Text) : Int :=
  (s.takeWhile isDigit).foldl (fun (n : Int) d => n * 10 + (d.toNat - 48 : Int)) 0

/-- `strtol` clamps to a `long`. -/
def clampLong (v : Int) : Int := max (-(2 ^ 63)) (min (2 ^ 63 - 1) v)

/-- A `long` cast to an `int`. -/
def toInt32 (v : Int) : Int := (v + 2 ^ 31) % 2 ^ 32 - 2 ^ 31

/-- `atoi`: white space, a sign, digits, and whatever follows is not read. -/
def atoi (s : Text) : Int :=
  let s := s.dropWhile isSpace
  let value :=
    match s with
    | 0x2d :: digits => -leadingDigits digits
    | 0x2b :: digits => leadingDigits digits
    | digits => leadingDigits digits
  toInt32 (clampLong value)

/-- The commands, with their arguments read. -/
inductive Command where
  | look
  | cycle (n : Option Int)
  | commission (venue : Option Int)
  | pay (who amount : Option Int)
  | restart
  | quit
  | unknown
deriving DecidableEq, Repr

/-- The command a line asks for. -/
def commandOf (line : Text) : Command :=
  let t := tokenise line
  if t.verb = text "look" ∨ t.verb = [] then .look
  else if t.verb = text "cycle" then .cycle (t.arg1.map atoi)
  else if t.verb = text "commission" then .commission (t.arg1.map atoi)
  else if t.verb = text "pay" then .pay (t.arg1.map atoi) (t.arg2.map atoi)
  else if t.verb = text "restart" then .restart
  else if t.verb = text "quit" then .quit
  else .unknown

/-! ### Commands -/

/-- What a command answers: `ok` and `say`. -/
structure Answer where
  ok : Bool
  say : Text
deriving DecidableEq, Repr

/-- The loop of `/cycle`; what it returns is why it stopped, if it did. -/
def cycleLoop : Nat → Action World (Option Text)
  | 0 => pure none
  | n + 1 => do
      match ← Action.attempt cycle with
      | none => return some (text "the ward stopped mid-cycle")
      | some () =>
        if ← honest then cycleLoop n
        else return some (text "the ward stopped being honest")

/-- The number of cycles `/cycle` runs. -/
def cycleCount (n : Option Int) : Nat :=
  let n := n.getD 1
  let n := if n < 1 then 1 else n
  (if 64 < n then 64 else n).toNat

def runCycle (n : Option Int) : Action World Answer := do
  match ← cycleLoop (cycleCount n) with
  | none => return { ok := true, say := text "the ward moved" }
  | some why => return { ok := false, say := why }

def runCommission (venue : Option Int) : Action World Answer := do
  match ← Action.attempt (buildVenue (venue.getD (-1))) with
  | none =>
      return {
        ok := false
        say := text "no such venue, or it is already built, or the treasury will not reach" }
  | some () => return { ok := true, say := text "commissioned" }

/-- The last Spark of the array with this id. -/
def findSpark (who : Int) (sparks : List Spark) : Option Nat :=
  sparks.zipIdx.foldl (fun found (s, i) => if s.id = who then some i else found) none

def runPay (who amount : Option Int) : Action World Answer := do
  let amount := amount.getD 0
  let g ← Action.read (·.g)
  match findSpark (who.getD (-1)) g.sparks with
  | none =>
      return {
        ok := false, say := text "no such Spark here, or an amount the treasury will not reach" }
  | some i =>
    if amount ≤ 0 ∨ g.treasury < amount then
      return {
        ok := false, say := text "no such Spark here, or an amount the treasury will not reach" }
    else
      match ← Action.attempt (payAlone i amount none) with
      | none => return { ok := false, say := text "the payment landed on neither side" }
      | some () => return { ok := true, say := text "paid" }

/-- The name every served ward is founded under. -/
def liveName : Text := text "gyre-live"

def runRestart : Action World Answer := do
  let g ← Action.read (·.g)
  closeWard
  remember fun _ => Gyre.zero
  match ← Action.attempt (foundWard liveName g.sparks.length g.seed 0) with
  | none =>
      Action.modify fun w => { w with stop := true }
      return { ok := false, say := text "the ward could not be founded again" }
  | some () => return { ok := true, say := text "the ward is founded again" }

/-- What `ward_command` does before it replies. -/
def Command.run : Command → Action World Answer
  | .look => pure { ok := true, say := text "the ward as it stands" }
  | .cycle n => runCycle n
  | .commission venue => runCommission venue
  | .pay who amount => runPay who amount
  | .restart => runRestart
  | .quit => pure { ok := true, say := text "goodbye" }
  | .unknown => pure { ok := false, say := text "no such command" }

/-! ### The reply -/

/-- A column as `say_rows` finds it. -/
inductive SqlValue where
  | text (s : Text)
  | null
  | int (v : Int)
deriving DecidableEq, Repr

def SqlValue.ofOption {α : Type} (f : α → SqlValue) : Option α → SqlValue
  | some a => f a
  | none => .null

/-- `SELECT id, name, cost, built, x, y, z, wire, owner FROM venue`. -/
def VenueRow.columns (v : VenueRow) : List SqlValue :=
  [.int v.id, .text v.name, .int v.cost, .int v.built, .int v.place.x, .int v.place.y,
    .int v.place.z, .int v.wire, .int v.owner]

/-- `SELECT id, kind, payout, risk, taken, outcome, x, y, z, wire, owner FROM board`. -/
def BoardRow.columns (r : BoardRow) : List SqlValue :=
  [.int r.id, .text r.kind, .int r.payout, .int r.risk, .int r.taken,
    .ofOption .text r.outcome, .int r.place.x, .int r.place.y, .int r.place.z,
    .ofOption (fun n => .int (Int.ofNat n)) r.wire, .ofOption (fun n => .int (Int.ofNat n)) r.owner]

def venueColumns : List Text :=
  [text "id", text "name", text "cost", text "built", text "x", text "y", text "z", text "wire",
    text "owner"]

def boardColumns : List Text :=
  [text "id", text "kind", text "payout", text "risk", text "taken", text "outcome", text "x",
    text "y", text "z", text "wire", text "owner"]

/-- A column, written. -/
def sayColumn (value : SqlValue) (c : Cbor) : Cbor :=
  match value with
  | .text s => weftCborText s c
  | .null => weftCborRaw 0xf6 c
  | .int v => weftCborInt v c

/-- One row of `say_rows`. -/
def sayRow (ncols : Nat) (cols : List Text) (c : Cbor) (row : List SqlValue) : Cbor :=
  ((cols.zip row).take ncols).foldl (fun c (name, value) => sayColumn value (weftCborText name c))
    (weftCborMap ncols c)

/-- `say_rows`; `select` is the statement, and a statement that cannot be prepared is an empty
array. -/
def sayRows (key : Text) (select : WardTables → List (List SqlValue)) (ncols : Nat)
    (cols : List Text) (c : Cbor) : Action World Cbor := do
  let c := weftCborText key c
  let prepared ← Action.attempt fallible
  let g ← Action.read (·.g)
  if prepared.isNone ∨ ¬ g.ward.isOpen ∨ ¬ g.ward.now.created then return weftCborArray 0 c
  return weftCborBreak ((select g.ward.now).foldl (sayRow ncols cols) (weftCborRaw 0x9f c))

/-- One Spark of `say_sparks`, given what the two queries returned. -/
def saySpark (s : Spark) (wire owner : Int) (c : Cbor) : Cbor :=
  weftCborKvInt (text "owner") owner <|
  weftCborKvInt (text "wire") wire <|
  weftCborKvInt (text "z") s.place.z <|
  weftCborKvInt (text "y") s.place.y <|
  weftCborKvInt (text "x") s.place.x <|
  weftCborKvInt (text "wear") s.wear <|
  weftCborKvInt (text "purse") s.purse <|
  weftCborKvInt (text "id") s.id <|
  weftCborMap 8 c

/-- The loop of `say_sparks`, over the Sparks from place `i` of the array. -/
def saySparkLoop : List Spark → Nat → Cbor → Action World Cbor
  | [], _, c => pure c
  | s :: rest, i, c => do
      let wire ← scalarSpark i (selectSpark fun r => Int.ofNat r.wire)
      let owner ← scalarSpark i (selectSpark fun r => Int.ofNat r.owner)
      saySparkLoop rest (i + 1) (saySpark s wire owner c)

/-- `say_sparks`. -/
def saySparks (c : Cbor) : Action World Cbor := do
  let g ← Action.read (·.g)
  saySparkLoop g.sparks 0 (weftCborArray g.sparks.length (weftCborText (text "sparks") c))

/-- The eight scalars of `say_ward`. -/
def sayScalars (g : Gyre) (c : Cbor) : Cbor :=
  weftCborKvInt (text "room") (wardRoom g) <|
  weftCborKvInt (text "sparks") g.nsparks <|
  weftCborKvInt (text "spent") g.spent <|
  weftCborKvInt (text "retired") g.retired <|
  weftCborKvInt (text "issued") g.issued <|
  weftCborKvInt (text "debt") g.debt <|
  weftCborKvInt (text "treasury") g.treasury <|
  weftCborKvInt (text "cycle") g.cycle <|
  weftCborMap 8 (weftCborText (text "ward") c)

/-- `say_ward`. -/
def sayWard (c : Cbor) : Action World Cbor := do
  let g ← Action.read (·.g)
  let c ← sayRows (text "venues") (fun t => t.venue.map VenueRow.columns) 9 venueColumns
    (sayScalars g c)
  let c ← sayRows (text "board") (fun t => t.board.map BoardRow.columns) 11 boardColumns c
  saySparks c

/-- The head of the reply: the map, `ok`, `say` and `honest`. -/
def sayAnswer (a : Answer) (honest : Bool) (c : Cbor) : Cbor :=
  weftCborBool honest <|
  weftCborText (text "honest") <|
  weftCborText a.say <|
  weftCborText (text "say") <|
  weftCborBool a.ok <|
  weftCborText (text "ok") <|
  weftCborMap 7 c

/-- `g->ward ? !honest(g, "a command") : 0`. -/
def replyHonest : Action World Bool := do
  if ← Action.read (·.g.ward.isOpen) then honest else pure false

/-- The reply `ward_command` writes once the command has run. -/
def wardReply (a : Answer) (c : Cbor) : Action World Cbor := do
  let h ← replyHonest
  sayWard (sayAnswer a h c)

/-- `ward_command`. -/
def wardCommand (line : Text) (c : Cbor) : Action World Cbor := do
  let a ← (commandOf line).run
  wardReply a c

/-- `WARD_COMMAND_MAX`. -/
def wardCommandMax : Nat := 512

/-- `WARD_REPLY_MAX`. -/
def wardReplyMax : Nat := 262144

/-- The copy of the command that `ward_ask` may own. -/
def ownedLine (command : Text) : Text := fitted wardCommandMax command

/-- `ward_ask`: the reply, empty when it does not fit. -/
def wardAsk (command : Text) (cap : Nat) : Action World (List UInt8) := do
  let c ← wardCommand (ownedLine command) (weftCborTo cap)
  return if c.overran then [] else c.out

end GyreWard
