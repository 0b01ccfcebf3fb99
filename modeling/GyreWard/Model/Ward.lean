/-
Module: GyreWard.Model.Ward
Purpose: The Queen's ward (`queen.c`): founding it, building in it, paying in it, and the cycle.
Trusted boundary: human-reviewed translation of the source
Main exports: foundWard, joinWard, buildVenue, commission, postBoard, choose, groupJoin, groupCommit,
  pay, payAlone, cycle, honest, closeWard
-/
import GyreWard.Model.Store
import GyreWard.Model.Planner

namespace GyreWard

open Lib

/-- `venue_t`, with its place from `VENUE_PLACES`.  The texts of the effects are never read. -/
structure Venue where
  name : Text
  cost : Int
  place : Place
deriving DecidableEq, Repr

/-- `VENUES` and `VENUE_PLACES`. -/
def venues : List Venue :=
  [ { name := text "Cycle's End Tavern", cost := 120, place := ⟨um (-20), commonsUm, um 10⟩ },
    { name := text "Splicer's Den", cost := 200, place := ⟨um 0, commonsUm, um 18⟩ },
    { name := text "Transit Rails", cost := 260, place := ⟨um 20, commonsUm, um 10⟩ },
    { name := text "Exchange Plaza", cost := 340, place := ⟨um (-20), underUm, um (-10)⟩ },
    { name := text "Chapel of the Backup", cost := 420, place := ⟨um 0, underUm, um (-18)⟩ },
    { name := text "Broadcast Row", cost := 500, place := ⟨um 20, underUm, um (-10)⟩ } ]

/-- `KINDS`. -/
def kinds : List Text :=
  [ text "scavenge", text "hack", text "repair", text "delivery", text "survey",
    text "courier", text "listening", text "salvage", text "decommission" ]

/-! ### Founding -/

/-- `open_db` on the ward's name: the open and the two pragmas may each fail. -/
def openWard (name : Text) : Action World Unit := do
  remember fun g => { g with ward := Conn.null {} }
  let tick ← Action.read (·.plane.tick)
  fallible
  fallible
  fallible
  let disk ← Action.read (·.plane.wardDisk)
  remember fun g => { g with ward := { name, isOpen := true, now := disk tick name, saved := none } }

/-- `wire_id`, whose failure is `exit(2)`. -/
def wireIdOrExit (ward : Int) (loc : Nat) : Action World Nat :=
  match wireId ward loc with
  | some wire => pure wire
  | none => Action.halt

/-- The name of a Spark's database. -/
def sparkName (dbPrefix : Text) (id : Int) : Text :=
  fitted 128 (dbPrefix ++ text "-spark-" ++ decimal id ++ text ".db")

/-- `WIRE_SPARK_BASE + (uint32_t)id`. -/
def sparkLocal (id : Int) : Nat := (wireSparkBase + (id % 2 ^ 32).toNat) % 2 ^ 32

/-- The row `join_ward` inserts for a new Spark. -/
def sparkRow (id : Int) (wire owner : Nat) : SparkRow :=
  { id, purse := 0, wear := 0, cycles := 0, place := sparkHome id, wire, owner }

/-- The tables of a Spark who has just joined: what `DROP`, `CREATE` and `INSERT` make of
whatever stood under the name before. -/
def foundSpark (row : SparkRow) (t : SparkTables) : Option SparkTables :=
  (dropSpark t >>= createSpark) >>= insertSpark row

/-- `join_ward`.  The slot past the last Spark counts once `nsparks` does. -/
def joinWard (id : Int) : Action World Unit := do
  let g ← Action.read (·.g)
  if maxSparks ≤ g.sparks.length ∨ sparksPerWard ≤ g.sparks.length then Action.fail
  let name := sparkName g.dbPrefix id
  let tick ← Action.read (·.plane.tick)
  -- the open and its two pragmas, then `DROP` and `CREATE`
  fallible
  fallible
  fallible
  fallible
  fallible
  let wire ← wireIdOrExit g.wardNo (sparkLocal id)
  fallible
  let disk ← Action.read (·.plane.sparkDisk)
  match foundSpark (sparkRow id wire (classOwner .spark g.wardNo)) (disk tick name) with
  | some tables =>
      remember fun g =>
        { g with
          sparks := g.sparks ++
            [{ db := { name, isOpen := true, now := tables, saved := none }
               id, purse := 0, wear := 0, place := sparkHome id }] }
  | none => Action.fail

/-- The `INSERT INTO venue` of venue `i`. -/
def foundVenue (i : Nat) (v : Venue) : Action World Unit := do
  let ward ← Action.read (·.g.wardNo)
  let wire ← wireIdOrExit ward (wireVenueBase + i)
  runWard (insertVenue
    { id := i, name := v.name, cost := v.cost, built := 0, place := v.place, wire
      owner := classOwner .venue ward })

/-- The books a ward opens with.  `spent` is left as the caller zeroed it. -/
def Gyre.opened (seed : UInt64) (g : Gyre) : Gyre :=
  { g with
    treasury := 300, debt := 4000, issued := 300, retired := 0, cycle := 0, found := 0, seq := 0
    seed := seed, rng := rngSeed seed }

/-- `found_ward`. -/
def foundWard (dbPrefix : Text) (nsparks : Nat) (seed : UInt64) (base : Int) :
    Action World Unit := do
  openWard (fitted 128 (dbPrefix ++ text "-ward.db"))
  remember fun g =>
    { g with dbPrefix := fitted 64 dbPrefix, wardNo := base.tdiv sparksPerWard }
  runWard dropWard
  runWard createWard
  Action.forEach venues.zipIdx fun (v, i) => foundVenue i v
  remember (Gyre.opened seed)
  let g ← Action.read (·.g)
  let wire ← wireIdOrExit g.wardNo wireQueen
  runWard (insertWard
    { cycle := 0, treasury := g.treasury, debt := g.debt, issued := g.issued, retired := 0
      place := nonphysicalPlace wireQueen, wire, owner := classOwner .queen g.wardNo })
  Action.forEach (List.range nsparks) fun i => joinWard (base + i)

/-- `close_ward`. -/
def closeWard : Action World Unit :=
  remember fun g =>
    { g with
      ward := { g.ward with isOpen := false }
      sparks := g.sparks.map fun s => { s with db := { s.db with isOpen := false } } }

/-! ### Building -/

/-- `ward_room`. -/
def wardRoom (g : Gyre) : Int :=
  let room : Int := (min maxSparks sparksPerWard : Nat) - g.nsparks
  if 0 < room then room else 0

/-- `built`. -/
def built (venue : Int) : Action World Bool := do
  return (← scalarWard (selectBuilt venue)) ≠ 0

/-- The scrip a venue takes out of the ward. -/
def Gyre.spend (cost : Int) (g : Gyre) : Gyre :=
  { g with treasury := g.treasury - cost, spent := g.spent + cost }

/-- `INSERT INTO ledger(cycle, what, amount, spark)` at the ward's cycle. -/
def book (what : Entry) (amount spark : Int) : Action World Unit := do
  let cycle ← Action.read (·.g.cycle)
  runWard (insertLedger { cycle, what, amount, spark })

/-- `build_venue`. -/
def buildVenue (i : Int) : Action World Unit := do
  if i < 0 ∨ (nVenues : Int) ≤ i then Action.fail
  match venues[i.toNat]? with
  | none => Action.fail
  | some v =>
    if (← Action.read (·.g.treasury)) < v.cost then Action.fail
    if ← built i then Action.fail
    remember (Gyre.spend v.cost)
    let cycle ← Action.read (·.g.cycle)
    runWard (updateBuilt i cycle)
    book .commission (-v.cost) (-1)

/-- The most worn Frame, as `commission` finds it. -/
def worstWear (sparks : List Spark) : Int :=
  sparks.foldl (fun worst s => if worst < s.wear then s.wear else worst) 0

/-- The `built` column as the planner sees it, venue by venue. -/
def viewBuilt : List Nat → Action World (List Int)
  | [] => pure []
  | i :: rest => do
      let b ← scalarWard (selectBuilt i)
      return b :: (← viewBuilt rest)

/-- The view `commission` hands to the planner. -/
def wardView : Action World WardView := do
  let g ← Action.read (·.g)
  let built ← viewBuilt (List.range nVenues)
  return {
    cycle := g.cycle
    treasury := g.treasury
    debt := g.debt
    nsparks := g.nsparks
    reserve := 25 * g.nsparks
    built := fun v => built.getD v.index 0
    cost := fun v => (venues[v.index]?.map (·.cost)).getD 0
    worstWear := worstWear g.sparks
    roomToGrow := wardRoom g }

/-- What `commission` answers: a venue she built, `-1` for holding, `-2` for no plan. -/
def commission : Action World Int := do
  let view ← wardView
  -- the planner may refuse, and the plane says when
  match ← Action.attempt fallible with
  | none => return -2
  | some () =>
    match queenPlan (← Action.read (·.plane.late)) view with
    | none => return -2
    | some i =>
      if i < 0 ∨ (nVenues : Int) ≤ i then return -1
      match ← Action.attempt (buildVenue i) with
      | some () => return i
      | none => return -1

/-! ### The board -/

/-- `rng_below`, and the loop that never ends. -/
def draw (n : UInt32) : Action World Int := do
  match rngBelow (← Action.read (·.g.rng)) n with
  | some (v, r) =>
      remember fun g => { g with rng := r }
      return v.toNat
  | none => Action.halt

/-- One contract of `post_board`: the row, then its wire name. -/
def postContract (i : Nat) : Action World Unit := do
  let kind ← draw 9
  let risk := 10 + (← draw 55)
  let payout := 18 + risk.tdiv 2 + (← draw 20)
  let payout := if ← built 3 then payout + payout.tdiv 4 else payout
  let g ← Action.read (·.g)
  let place := contractPlace (g.cycle * boardSize + i)
  let row := nextRowid g.ward.now.board
  runWard (insertBoard g.cycle (kinds.getD kind.toNat []) payout risk place)
  let wire ← wireIdOrExit g.wardNo (wireContractBase + row)
  runWard (updateContractWire row wire (classOwner .contract g.wardNo))

/-- `post_board`. -/
def postBoard : Action World Unit := do
  let n := boardSize + if ← built 2 then 3 else 0
  runWard deleteBoard
  Action.forEach (List.range n) postContract

def intMin : Int := -2147483648

/-- The best contract for a Spark of this nerve: the first of the largest score. -/
def bestContract (nerve : Int) (rows : List BoardRow) : Int × Int :=
  rows.foldl
    (fun (best, bestScore) r =>
      let score := (r.payout * nerve).tdiv 100 - r.risk
      if bestScore < score then (r.id, score) else (best, bestScore))
    (-1, intMin)

/-- The contracts nobody has taken, or no rows at all. -/
def openContracts (g : Gyre) : Option (List BoardRow) :=
  if g.ward.isOpen && g.ward.now.created then
    some (g.ward.now.board.filter fun r => r.taken == -1)
  else none

/-- `choose`, for the Spark at place `i` of the array.  `-1` is no contract, and also an error. -/
def choose (i : Nat) : Action World Int := do
  match ← Action.attempt fallible with
  | none => return -1
  | some () =>
    match ← Action.read fun w => (openContracts w.g, w.g.sparks[i]?) with
    | (some rows, some s) =>
        let rested := if ← built 0 then 25 else 0
        let backed := if ← built 4 then 20 else 0
        let best := (bestContract (100 - s.wear + rested + backed) rows).1
        if best < 0 then return best
        match ← Action.attempt (runWard (updateTaken best.toNat s.id)) with
        | some () => return best
        | none => return -1
    | _ => return -1

/-! ### Groups -/

/-- `BEGIN` on a participant. -/
def sqlBegin : Handle → Action World Unit
  | .ward => do fallible; update (Gyre.onWard Conn.begin)
  | .spark i => do fallible; update (Gyre.onSpark i Conn.begin)

/-- `COMMIT` on a participant. -/
def sqlCommit : Handle → Action World Unit
  | .ward => do fallible; update (Gyre.onWard Conn.commit)
  | .spark i => do fallible; update (Gyre.onSpark i Conn.commit)

/-- `ROLLBACK` on a participant. -/
def sqlRollback : Handle → Action World Unit
  | .ward => remember fun g => { g with ward := g.ward.rollback }
  | .spark i => remember (Gyre.setSpark i fun s => { s with db := s.db.rollback })

/-- `group_join`. -/
def groupJoin (h : Handle) : Action World Unit := do
  let grp ← Action.read (·.grp)
  if h ∈ grp.dbs then pure ()
  else if txnMaxParts ≤ grp.dbs.length then Action.fail
  else
    weftTxnJoin h grp.txn
    sqlBegin h
    Action.modify <| World.setGroup fun grp => { grp with dbs := grp.dbs ++ [h] }

/-- `group_begin`. -/
def groupBegin : Action World Unit := do
  Action.modify <| World.setGroup fun _ => {}
  let txn ← weftTxnBegin
  Action.modify <| World.setGroup fun grp => { grp with txn := txn }
  groupJoin .ward

/-- `group_abort`. -/
def groupAbort : Action World Unit := do
  let grp ← Action.read (·.grp)
  Action.forEach grp.dbs sqlRollback
  weftTxnAbort grp.txn

/-- `group_commit`. -/
def groupCommit : Action World Unit := do
  let grp ← Action.read (·.grp)
  Action.onFail (Action.forEach grp.dbs sqlCommit) groupAbort
  weftTxnCommit grp.txn

/-! ### Paying -/

/-- A payment in memory. -/
def Gyre.paid (i : Nat) (amount : Int) (g : Gyre) : Gyre :=
  { g with treasury := g.treasury - amount }.setSpark i fun s => { s with purse := s.purse + amount }

/-- `pay`, to the Spark at place `i` of the array; `item` and its kind when there is one. -/
def pay (i : Nat) (amount : Int) (item : Option (Text × Text)) : Action World Unit := do
  groupJoin (.spark i)
  let id ← Action.read fun w => (w.g.sparks[i]?.map (·.id)).getD 0
  book .wages (-amount) id
  runSpark i (updatePurse id amount)
  match item with
  | some (name, kind) =>
      let cycle ← Action.read (·.g.cycle)
      runSpark i (insertHeld { item := name, kind, cycle })
  | none => pure ()
  remember (Gyre.paid i amount)

/-- `pay_alone`. -/
def payAlone (i : Nat) (amount : Int) (item : Option (Text × Text)) : Action World Unit := do
  groupBegin
  Action.onFail (pay i amount item) groupAbort
  -- the scrip `pay` moved in memory is put back when the group does not land
  Action.onFail groupCommit (remember (Gyre.paid i (-amount)))

/-! ### One cycle -/

/-- Salvage is the one thing that makes scrip. -/
def Gyre.earn (amount : Int) (g : Gyre) : Gyre :=
  { g with
    treasury := g.treasury + amount, issued := g.issued + amount
    seq := g.seq + 1, found := g.found + 1 }

/-- A Frame's wear after a contract. -/
def wornBy (won repaired : Bool) (wear : Int) : Int :=
  let wear := wear + (if won then 2 else 5) - 1
  let wear := if repaired ∧ 0 < wear then wear - 4 else wear
  let wear := if wear < 0 then 0 else wear
  if 90 < wear then 90 else wear

def Gyre.setWear (i : Nat) (f : Int → Int) (g : Gyre) : Gyre :=
  g.setSpark i fun s => { s with wear := f s.wear }

def Gyre.movePlace (i : Nat) (f : Place → Place) (g : Gyre) : Gyre :=
  g.setSpark i fun s => { s with place := f s.place }

/-- The winning branch: income, a name for the salvage, and the ledger row. -/
def keepContract (payout sparkId : Int) : Action World Text := do
  let g ← Action.read (·.g)
  remember (Gyre.earn payout)
  book .salvage payout sparkId
  return uuid8 g.seed g.wardNo WireClass.contract.code g.cycle g.seq

/-- The share of a contract its Spark is paid. -/
def wageOf (won : Bool) (earned : Int) : Int := if won then earned.tdiv 2 else 4

/-- The Spark at place `i` goes to the contract, and their row says where they are. -/
def goToWork (i id : Nat) : Action World Unit := do
  let x ← scalar64Ward (selectContract id (·.place.x))
  remember (Gyre.movePlace i fun p => { p with x := x })
  let y ← scalar64Ward (selectContract id (·.place.y))
  remember (Gyre.movePlace i fun p => { p with y := y })
  let z ← scalar64Ward (selectContract id (·.place.z))
  remember (Gyre.movePlace i fun p => { p with z := z })
  groupJoin (.spark i)
  let g ← Action.read (·.g)
  match g.sparks[i]? with
  | some s => runSpark i (updateWork s.id s.wear g.cycle s.place)
  | none => pure ()

/-- What a contract does to the Spark at place `i` once its income is booked: wear, the outcome on
the board, the wage if the treasury reaches, and the way to the work. -/
def settleContract (i id : Nat) (won : Bool) (earned : Int) (item : Option Text) :
    Action World Unit := do
  let repaired ← built 1
  remember (Gyre.setWear i (wornBy won repaired))
  runWard (updateOutcome id (text (if won then "kept" else "lost")))
  let wage := wageOf won earned
  if 0 < wage ∧ wage ≤ (← Action.read (·.g.treasury)) then
    pay i wage (item.map fun name => (name, text "salvage"))
  goToWork i id

/-- A contract that the Spark at place `i` took, worked out. -/
def workContract (i : Nat) (s : Spark) (id : Nat) : Action World Unit := do
  let payout ← scalarWard (selectContract id (·.payout))
  let risk ← scalarWard (selectContract id (·.risk))
  let roll ← draw 100
  let won : Bool := risk ≤ roll
  let earned := if won then payout else 0
  let item ← if won then some <$> keepContract payout s.id else pure none
  settleContract i id won earned item

/-- The body of the loop over the Sparks. -/
def sparkTurn (i : Nat) : Action World Unit := do
  let id ← choose i
  if id < 0 then pure ()
  else
    match ← Action.read (·.g.sparks[i]?) with
    | some s => workContract i s id.toNat
    | none => pure ()

/-- What the creditor takes of a treasury. -/
def clockPayment (g : Gyre) : Int :=
  let paid := g.treasury.tdiv 6
  if g.debt < paid then g.debt else paid

def Gyre.compound (g : Gyre) : Gyre := { g with debt := g.debt + g.debt.tdiv 100 }

def Gyre.retire (paid : Int) (g : Gyre) : Gyre :=
  { g with treasury := g.treasury - paid, debt := g.debt - paid, retired := g.retired + paid }

/-- The Debt Clock: it compounds first and is paid second. -/
def debtClock : Action World Unit := do
  remember Gyre.compound
  let paid ← Action.read fun w => clockPayment w.g
  if 0 < paid then
    remember (Gyre.retire paid)
    book .debt (-paid) (-1)

/-- What stands between `group_begin` and `group_commit`; returns whether a Spark arrives. -/
def cycleWrites : Action World Bool := do
  if (← commission) = -2 then Action.fail
  postBoard
  let n ← Action.read (·.g.sparks.length)
  Action.forEach (List.range n) sparkTurn
  debtClock
  let row ← built 5
  let g ← Action.read (·.g)
  runWard (updateWard g.cycle g.treasury g.debt g.issued g.retired)
  return row ∧ g.sparks.length < sparksPerWard ∧ g.cycle.tmod arrivalCycles = 0

/-- `cycle`. -/
def cycle : Action World Unit := do
  remember fun g => { g with cycle := g.cycle + 1 }
  groupBegin
  let arriving ← Action.onFail cycleWrites groupAbort
  groupCommit
  if arriving then
    let g ← Action.read (·.g)
    joinWard (g.wardNo * sparksPerWard + g.nsparks)

/-! ### What the ward must never do -/

/-- The sum of a query over the Sparks' databases. -/
def sumSparks (query : SparkTables → Option Int) : List Nat → Action World Int
  | [] => pure 0
  | i :: rest => do
      let v ← scalarSpark i query
      return v + (← sumSparks query rest)

/-- `purses`. -/
def purses : Action World Int := do
  let n ← Action.read (·.g.sparks.length)
  sumSparks (selectSpark (·.purse)) (List.range n)

/-- `honest`: `true` when it returns 0. -/
def honest : Action World Bool := do
  let g ← Action.read (·.g)
  let held := g.treasury + (← purses) + g.retired + g.spent
  if held ≠ g.issued then return false
  let items ← sumSparks countHeld (List.range g.sparks.length)
  return items ≤ g.found

end GyreWard
