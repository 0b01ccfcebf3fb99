/-
Module: GyreWard.Model.Game
Purpose: More than one ward (`shard` in `queen.c`): the wards a game is founded with, the calls that
  move them, `migrate`, `honest_across` and `named_apart`.
Trusted boundary: human-reviewed translation of the source
Main exports: Passage, migrate, honestAcross, namedApart, Game, Play, Game.play, shard, Shards, Plays
-/
import GyreWard.Lib.Capped
import GyreWard.Lib.Neighbours
import GyreWard.Model.Ward

namespace GyreWard

open Lib

/-! ### Migration -/

/-- What `migrate` runs over: the ward a Spark leaves, the ward they go to, and the plane under
both. -/
structure Passage where
  leaving : Gyre
  entering : Gyre
  plane : Plane

/-- A call on `from`. -/
def onLeaving {α : Type} (x : Action World α) : Action Passage α := fun p =>
  let (result, w) := x { g := p.leaving, plane := p.plane }
  (result, { p with leaving := w.g, plane := w.plane })

/-- A call on `to`. -/
def onEntering {α : Type} (x : Action World α) : Action Passage α := fun p =>
  let (result, w) := x { g := p.entering, plane := p.plane }
  (result, { p with entering := w.g, plane := w.plane })

/-- What a ward accounts for, when scrip comes with a Spark. -/
def Gyre.issue (amount : Int) (g : Gyre) : Gyre := { g with issued := g.issued + amount }

/-- What a ward accounts for, when salvage comes with a Spark. -/
def Gyre.hold (items : Int) (g : Gyre) : Gyre := { g with found := g.found + items }

/-- The Spark at place `i` of the array changes wards, and their open database with them. -/
def Passage.move (i : Nat) (p : Passage) : Passage :=
  match p.leaving.sparks[i]? with
  | some s =>
      { p with
        leaving := { p.leaving with sparks := p.leaving.sparks.eraseIdx i }
        entering := { p.entering with sparks := p.entering.sparks ++ [s] } }
  | none => p

/-- `migrate`. -/
def migrate (idx : Int) : Action Passage Unit := do
  let p ← Action.read id
  if idx < 0 ∨ p.leaving.nsparks ≤ idx then Action.fail
  if maxSparks ≤ p.entering.sparks.length then Action.fail
  match p.leaving.sparks[idx.toNat]? with
  | none => Action.fail
  | some s => do
    onLeaving (remember (Gyre.issue (-s.purse)))
    onEntering (remember (Gyre.issue s.purse))
    let carried ← onLeaving (scalarSpark idx.toNat countHeld)
    onLeaving (remember (Gyre.hold (-carried)))
    onEntering (remember (Gyre.hold carried))
    onLeaving (book .departed (-s.purse) s.id)
    onEntering (book .arrived s.purse s.id)
    let wire ← onEntering (wireIdOrExit p.entering.wardNo (sparkLocal s.id))
    onLeaving (runSpark idx.toNat (updateSparkWire s.id wire (classOwner .spark p.entering.wardNo)))
    Action.modify (Passage.move idx.toNat)

/-! ### Every ward at once -/

/-- A call on one ward of several. -/
def onPlane {α : Type} (g : Gyre) (x : Action World α) : Action Plane α := fun plane =>
  let (result, w) := x { g, plane }
  (result, w.plane)

/-- What `honest_across` adds up: what the wards hold, and what they issued. -/
def sumAcross : List Gyre → Action Plane (Int × Int)
  | [] => pure (0, 0)
  | g :: rest => do
      let pursed ← onPlane g purses
      let later ← sumAcross rest
      return (g.treasury + pursed + g.retired + g.spent + later.1, g.issued + later.2)

/-- `honest_across`: `true` when it returns 0. -/
def honestAcross (wards : List Gyre) : Action Plane Bool := do
  let sums ← sumAcross wards
  return sums.1 = sums.2

/-! ### Names across wards -/

/-- `CAP`. -/
def namedCap : Nat := 8192

/-- A value read into a `uint32_t`. -/
def toUInt32 (v : Int) : Nat := (v % 2 ^ 32).toNat

/-- One of the two statements of `gather_wires`; one that cannot be prepared is an error. -/
def gatherTable (column : WardTables → List Int) (out : List Nat) : Action World (List Nat) := do
  fallible
  let g ← Action.read (·.g)
  if ¬ g.ward.isOpen ∨ ¬ g.ward.now.created then Action.fail
  return ((column g.ward.now).map toUInt32).foldl (push namedCap) out

/-- The loop of `gather_wires` over the Sparks. -/
def gatherSparkWires : List Nat → List Nat → Action World (List Nat)
  | [], out => pure out
  | i :: rest, out =>
      if out.length < namedCap then do
        let wire ← scalarSpark i (selectSpark fun r => Int.ofNat r.wire)
        gatherSparkWires rest (out ++ [toUInt32 wire])
      else pure out

/-- `gather_wires`.  A contract that has no name yet is `NULL`, which reads as 0. -/
def gatherWires (out : List Nat) : Action World (List Nat) := do
  let out ← gatherTable (fun t => t.venue.map fun v => Int.ofNat v.wire) out
  let out ← gatherTable (fun t => t.board.map fun r => Int.ofNat (r.wire.getD 0)) out
  let n ← Action.read (·.g.sparks.length)
  gatherSparkWires (List.range n) out

/-- `by_wire`. -/
def byWire (x y : Nat) : Int := (if y < x then 1 else 0) - (if x < y then 1 else 0)

/-- The first loop of `named_apart`. -/
def gatherAll : List Gyre → List Nat → Action Plane (List Nat)
  | [], all => pure all
  | g :: rest, all => do
      let all ← onPlane g (gatherWires all)
      gatherAll rest all

/-- `named_apart`, when there is memory for it: `true` when it returns 0. -/
def namedApart (wards : List Gyre) : Action Plane Bool := do
  match ← Action.attempt (gatherAll wards []) with
  | none => return false
  | some all => return apart (all.mergeSort fun x y => decide (byWire x y ≤ 0))

/-! ### A game -/

/-- The wards of a game, over one store plane. -/
structure Game where
  wards : List Gyre
  plane : Plane

/-- A call that moves the game. -/
inductive Play where
  | cycle (ward : Nat)
  | build (ward : Nat) (venue : Int)
  | pay (ward spark : Nat) (amount : Int) (item : Option (Text × Text))
  | migrate (leaving entering : Nat) (idx : Int)
deriving Repr

/-- A call on one ward, when it succeeds. -/
def Game.onWard (i : Nat) (x : Action World Unit) (game : Game) : Option Game :=
  match game.wards[i]? with
  | none => none
  | some g =>
      match x { g, plane := game.plane } with
      | (.ret _, w) => some { wards := game.wards.set i w.g, plane := w.plane }
      | _ => none

/-- A migration between two wards, when it succeeds. -/
def Game.onWards (i j : Nat) (x : Action Passage Unit) (game : Game) : Option Game :=
  match game.wards[i]?, game.wards[j]? with
  | some leaving, some entering =>
      match x { leaving, entering, plane := game.plane } with
      | (.ret _, p) =>
          some { wards := (game.wards.set i p.leaving).set j p.entering, plane := p.plane }
      | _ => none
  | _, _ => none

/-- The game after a call that succeeds.  A Spark migrates between two different wards. -/
def Game.play (game : Game) : Play → Option Game
  | .cycle i => game.onWard i cycle
  | .build i venue => game.onWard i (buildVenue venue)
  | .pay i spark amount item => game.onWard i (payAlone spark amount item)
  | .migrate i j idx => if i = j then none else game.onWards i j (GyreWard.migrate idx)

/-! ### Founding a game -/

/-- `gyre-shard-<i>`, in a buffer of 32. -/
def shardName (i : Nat) : Text := fitted 32 (text "gyre-shard-" ++ decimal i)

/-- The loop of `shard` that founds the wards, one behind another. -/
def foundShards (nsparks : Nat) (seed : UInt64) : List Nat → Nat → Game → Option Game
  | [], _, game => some game
  | i :: rest, placed, game =>
      let take := min (nsparks - placed) sparksPerWard
      match foundWard (shardName i) take (seed + UInt64.ofNat i) placed
          { g := Gyre.zero, plane := game.plane } with
      | (.ret _, w) =>
          foundShards nsparks seed rest (placed + take)
            { wards := game.wards ++ [w.g], plane := w.plane }
      | _ => none

/-- The game `shard` founds: as many wards as it takes, the Sparks split between them. -/
def shard (nsparks : Nat) (seed : UInt64) (plane : Plane) : Option Game :=
  let nwards := (nsparks + sparksPerWard - 1) / sparksPerWard
  if maxWards < nwards then none
  else foundShards nsparks seed (List.range nwards) 0 { wards := [], plane }

/-- Wards founded as `shard` founds them: under its names, on bases a ward apart, no more of them
than it has room for.  How many Sparks a ward is founded with, and its seed, are free. -/
inductive Shards : Game → Prop where
  | none (plane : Plane) : Shards { wards := [], plane }
  | ward {game : Game} {n : Nat} {seed : UInt64} {w : World} (before : Shards game)
      (few : game.wards.length < maxWards) (fits : n ≤ sparksPerWard)
      (founded : foundWard (shardName game.wards.length) n seed
        ((game.wards.length * sparksPerWard : Nat) : Int) { g := Gyre.zero, plane := game.plane } =
        (.ret (), w)) :
      Shards { wards := game.wards ++ [w.g], plane := w.plane }

/-- The games that come of it, by calls that succeed and that `meets` admits. -/
inductive Plays (meets : Game → Play → Prop) : Game → Prop where
  | founded {game : Game} (shards : Shards game) : Plays meets game
  | played {game game' : Game} {call : Play} (before : Plays meets game) (admitted : meets game call)
      (succeeds : game.play call = some game') : Plays meets game'

end GyreWard
