/-
Module: GyreWard.Abstract.Till
Purpose: What a ward is for, as an account book: the moves scrip can make, each with its row in the
  ledger, and what every sequence of them keeps.
Trusted boundary: the abstract statement of the component's purpose; the faithful model refines it
Main exports: Purse, Till, Till.Step, Till.Balanced, Till.Step.balanced, Till.Steps.balanced
-/
import GyreWard.Model.Ward
import Mathlib.Algebra.BigOperators.Group.List.Basic
import Mathlib.Logic.Relation

namespace GyreWard

/-! ### Sums -/

/-- A change at one place changes a sum by what it changes there. -/
theorem sum_map_modify {α M : Type} [AddCommMonoid M] {g : α → M} {f : α → α} {x : α} {gain : M}
    (gains : g (f x) = g x + gain) :
    ∀ {items : List α} {i : Nat}, items[i]? = some x →
      ((items.modify i f).map g).sum = (items.map g).sum + gain
  | [], _, there => nomatch there
  | _ :: rest, 0, there => by
      obtain rfl := Option.some.inj there
      simp only [List.modify_zero_cons, List.map_cons, List.sum_cons, gains]
      exact add_right_comm _ _ _
  | _ :: rest, i + 1, there => by
      have inRest : ((rest.modify i f).map g).sum = (rest.map g).sum + gain :=
        sum_map_modify gains there
      simp only [List.modify_succ_cons, List.map_cons, List.sum_cons, inRest]
      exact (add_assoc _ _ _).symm

/-! ### Sums over a ledger -/

/-- The amounts of the rows that `p` picks, together. -/
def sumOf (p : LedgerRow → Bool) (rows : List LedgerRow) : Int :=
  ((rows.filter p).map (·.amount)).sum

theorem sumOf_append (p : LedgerRow → Bool) (rows : List LedgerRow) (row : LedgerRow) :
    sumOf p (rows ++ [row]) = sumOf p rows + if p row then row.amount else 0 := by
  cases picked : p row with
  | true => simp [sumOf, List.filter_append, picked]
  | false => simp [sumOf, List.filter_append, picked]

/-- The amounts of all rows. -/
def total (rows : List LedgerRow) : Int := sumOf (fun _ => true) rows

/-- The amounts of the rows of one kind. -/
def sumFor (what : Entry) (rows : List LedgerRow) : Int := sumOf (fun row => row.what = what) rows

/-- The amounts of the wages of one Spark. -/
def wagesOf (spark : Int) (rows : List LedgerRow) : Int :=
  sumOf (fun row => row.what = .wages ∧ row.spark = spark) rows

/-- The number of rows of one kind. -/
def countFor (what : Entry) (rows : List LedgerRow) : Nat := rows.countP fun row => row.what = what

section Rows

variable (rows : List LedgerRow) (row : LedgerRow)

@[simp] theorem total_append : total (rows ++ [row]) = total rows + row.amount :=
  sumOf_append _ rows row

@[simp] theorem sumFor_append (what : Entry) :
    sumFor what (rows ++ [row]) = sumFor what rows + if row.what = what then row.amount else 0 := by
  simp [sumFor, sumOf_append]

@[simp] theorem wagesOf_append (spark : Int) :
    wagesOf spark (rows ++ [row]) =
      wagesOf spark rows + if row.what = .wages ∧ row.spark = spark then row.amount else 0 := by
  simp [wagesOf, sumOf_append]

@[simp] theorem countFor_append (what : Entry) :
    countFor what (rows ++ [row]) = countFor what rows + if row.what = what then 1 else 0 := by
  simp [countFor]

/-- A Spark whom no wages name has earned nothing. -/
theorem wagesOf_nobody {spark : Int} (unnamed : ∀ row ∈ rows, row.what = .wages → row.spark ≠ spark) :
    wagesOf spark rows = 0 := by
  have nothing : rows.filter (fun row => row.what = .wages ∧ row.spark = spark) = [] := by
    apply List.filter_eq_nil_iff.mpr
    intro row mem
    simpa using unnamed row mem
  rw [wagesOf, sumOf, nothing]
  rfl

end Rows

/-! ### The account book -/

/-- One Spark's side of the book: who they are, what they carry, what their own database says of
them, and how many things they hold. -/
structure Purse where
  id : Int
  purse : Int
  rows : List (Int × Int)
  held : Nat
deriving DecidableEq, Repr

/-- The figures a ward shows of itself. -/
structure Figures where
  cycle : Int
  treasury : Int
  debt : Int
  issued : Int
  retired : Int
deriving DecidableEq, Repr

/-- A ward as an account book.  `standing` says that the ward's own database can be read; `shown` is
what its own table shows, `venues` has the cycle each venue was built in, and `offers` the contracts
of the board with what they pay. -/
structure Till where
  cycle : Int
  treasury : Int
  debt : Int
  issued : Int
  retired : Int
  spent : Int
  found : Int
  wardNo : Int
  standing : Bool
  shown : List Figures
  venues : List (Int × Int)
  ledger : List LedgerRow
  offers : List (Nat × Int)
  purses : List Purse
deriving DecidableEq, Repr

/-- A Spark is paid, on their own side. -/
def Purse.paid (amount : Int) (items : Nat) (p : Purse) : Purse :=
  { p with
    purse := p.purse + amount
    rows := p.rows.map fun r => if r.1 = p.id then (r.1, r.2 + amount) else r
    held := p.held + items }

namespace Till

/-- A row at the end of the ledger. -/
def book (what : Entry) (amount spark : Int) (b : Till) : Till :=
  { b with ledger := b.ledger ++ [{ cycle := b.cycle, what, amount, spark }] }

/-- A cycle is counted. -/
def count (b : Till) : Till := { b with cycle := b.cycle + 1 }

/-- What the book says of a venue. -/
def built (i : Int) (b : Till) : Option Int := (b.venues.find? fun (v : Int × Int) => v.1 == i).map (·.2)

/-- A venue is paid for, and marked with the cycle. -/
def build (i cost : Int) (b : Till) : Till :=
  book .commission (-cost) (-1)
    { b with
      treasury := b.treasury - cost, spent := b.spent + cost
      venues := b.venues.map fun v => if v.1 = i then (v.1, b.cycle) else v }

/-- The board is posted. -/
def post (offers : List (Nat × Int)) (b : Till) : Till := { b with offers := offers }

/-- Salvage comes in. -/
def earn (amount spark : Int) (b : Till) : Till :=
  book .salvage amount spark
    { b with
      treasury := b.treasury + amount, issued := b.issued + amount, found := b.found + 1 }

/-- The Spark at place `i` is paid, and given things to hold. -/
def pay (i : Nat) (amount : Int) (items : Nat) (b : Till) : Till :=
  book .wages (-amount) ((b.purses[i]?.map (·.id)).getD 0)
    { b with
      treasury := b.treasury - amount
      purses := b.purses.modify i (Purse.paid amount items) }

/-- The debt compounds. -/
def compound (b : Till) : Till := { b with debt := b.debt + b.debt.tdiv 100 }

/-- Scrip goes to the creditor. -/
def retire (amount : Int) (b : Till) : Till :=
  book .debt (-amount) (-1)
    { b with
      treasury := b.treasury - amount, debt := b.debt - amount, retired := b.retired + amount }

/-- What the creditor takes. -/
def due (b : Till) : Int := if b.debt < b.treasury.tdiv 6 then b.debt else b.treasury.tdiv 6

/-- The Debt Clock. -/
def clock (b : Till) : Till :=
  if 0 < b.compound.due then b.compound.retire b.compound.due else b.compound

/-- The figures as they are. -/
def figures (b : Till) : Figures :=
  { cycle := b.cycle, treasury := b.treasury, debt := b.debt, issued := b.issued
    retired := b.retired }

/-- The ward's own table is brought up to date. -/
def publish (b : Till) : Till := { b with shown := b.shown.map fun _ => b.figures }

/-- The name of the next Spark to arrive. -/
def nextId (b : Till) : Int := b.wardNo * sparksPerWard + b.purses.length

/-- A Spark comes with nothing. -/
def arrive (id : Int) (b : Till) : Till :=
  { b with purses := b.purses ++ [{ id, purse := 0, rows := [(id, 0)], held := 0 }] }

/-- There is no reason to refuse venue `i`, which is `v`. -/
structure CanBuild (i : Int) (v : Venue) (b : Till) : Prop where
  listed : GyreWard.venues[i.toNat]? = some v
  lower : 0 ≤ i
  affordable : v.cost ≤ b.treasury
  unbuilt : b.built i = some 0

/-- The moves of the book. -/
inductive Step : Till → Till → Prop where
  | count {b : Till} : Step b b.count
  | build {b : Till} {i : Int} {v : Venue} (can : b.CanBuild i v) : Step b (b.build i v.cost)
  | post {b : Till} {offers : List (Nat × Int)} (fair : ∀ o ∈ offers, 18 ≤ o.2) :
      Step b (b.post offers)
  | pay {b : Till} {i : Nat} {p : Purse} {amount : Int} (there : b.purses[i]? = some p)
      (something : 0 < amount) (reached : amount ≤ b.treasury) : Step b (b.pay i amount 0)
  | keep {b : Till} {i : Nat} {p : Purse} {amount : Int} (there : b.purses[i]? = some p)
      (fair : 18 ≤ amount) : Step b ((b.earn amount p.id).pay i (amount.tdiv 2) 1)
  | clock {b : Till} : Step b b.clock
  | publish {b : Till} : Step b b.publish
  | arrive {b : Till} : Step b (b.arrive b.nextId)

/-- A book that has just been opened, for `n` Sparks. -/
def fresh (n : Nat) : Till :=
  { cycle := 0, treasury := 300, debt := 4000, issued := 300, retired := 0, spent := 0, found := 0
    wardNo := 0, standing := true
    shown := [{ cycle := 0, treasury := 300, debt := 4000, issued := 300, retired := 0 }]
    venues := (List.range nVenues).map fun (i : Nat) => ((i : Int), 0)
    ledger := [], offers := []
    purses := (List.range n).map fun (i : Nat) =>
      { id := i, purse := 0, rows := [((i : Int), 0)], held := 0 } }

/-- Any number of moves. -/
abbrev Steps : Till → Till → Prop := Relation.ReflTransGen Step

/-! ### What the moves keep -/

/-- The ward's own accounts agree with the ledger, and nobody is owed more than there is. -/
structure Accounts (b : Till) : Prop where
  treasury : b.treasury = 300 + total b.ledger
  entries : total b.ledger =
    sumFor .commission b.ledger + sumFor .wages b.ledger + sumFor .salvage b.ledger +
      sumFor .debt b.ledger
  spent : b.spent = -sumFor .commission b.ledger
  retired : b.retired = -sumFor .debt b.ledger
  issued : b.issued = 300 + sumFor .salvage b.ledger
  found : b.found = countFor .salvage b.ledger
  solvent : 0 ≤ b.treasury
  owed : 0 ≤ b.debt

/-- One Spark's purse agrees with their own database and with the ledger. -/
structure Carries (ledger : List LedgerRow) (p : Purse) : Prop where
  row : p.rows = [(p.id, p.purse)]
  wages : p.purse = -wagesOf p.id ledger
  solvent : 0 ≤ p.purse

/-- The Sparks' side of the book agrees with the ledger, but for `owing` things that have been
found and are in nobody's hands yet. -/
structure Pockets (owing : Nat) (b : Till) : Prop where
  home : b.wardNo = 0
  named : ∀ (i : Nat) (p : Purse), b.purses[i]? = some p → p.id = i
  carries : ∀ p ∈ b.purses, Carries b.ledger p
  paid : ∀ row ∈ b.ledger, row.what = .wages → row.spark < b.purses.length
  sum : (b.purses.map (·.purse)).sum = -sumFor .wages b.ledger
  held : ((b.purses.map (·.held)).sum + owing : Nat) = b.found

/-- The book balances. -/
structure Balanced (b : Till) : Prop where
  accounts : Accounts b
  pockets : Pockets 0 b

section Accounts

variable {b : Till} {amount spark : Int}

theorem Accounts.build (accounts : Accounts b) (i : Int) (affordable : amount ≤ b.treasury) :
    Accounts (b.build i amount) := by
  obtain ⟨treasury, entries, spent, retired, issued, found, solvent, owed⟩ := accounts
  constructor <;> simp [Till.build, Till.book] <;> omega

theorem Accounts.earn (accounts : Accounts b) (fair : 0 ≤ amount) :
    Accounts (b.earn amount spark) := by
  obtain ⟨treasury, entries, spent, retired, issued, found, solvent, owed⟩ := accounts
  constructor <;> simp [Till.earn, Till.book] <;> omega

theorem Accounts.pay (accounts : Accounts b) (i items : Nat) (reached : amount ≤ b.treasury) :
    Accounts (b.pay i amount items) := by
  obtain ⟨treasury, entries, spent, retired, issued, found, solvent, owed⟩ := accounts
  constructor <;> simp [Till.pay, Till.book] <;> omega

theorem Accounts.clock (accounts : Accounts b) : Accounts b.clock := by
  obtain ⟨treasury, entries, spent, retired, issued, found, solvent, owed⟩ := accounts
  have grown : 0 ≤ b.compound.debt := by
    change 0 ≤ b.debt + b.debt.tdiv 100
    have interest := Int.tdiv_nonneg owed (b := 100) (by decide)
    omega
  have compounded : Accounts b.compound :=
    ⟨treasury, entries, spent, retired, issued, found, solvent, grown⟩
  unfold Till.clock
  split
  · have share : b.compound.treasury.tdiv 6 ≤ b.compound.treasury :=
      Int.tdiv_le_self 6 solvent
    have bound : b.compound.due ≤ b.compound.debt ∧ b.compound.due ≤ b.compound.treasury := by
      unfold Till.due
      split <;> omega
    obtain ⟨treasury, entries, spent, retired, issued, found, solvent, owed⟩ := compounded
    constructor <;> simp [Till.retire, Till.book] <;> omega
  · exact compounded

end Accounts

section Pockets

variable {b : Till} {k : Nat}

/-- A ledger row that is no wage leaves the Sparks' side as it was. -/
theorem Pockets.book (pockets : Pockets k b) {what : Entry} (other : what ≠ .wages)
    (amount spark : Int) : Pockets k (b.book what amount spark) where
  home := pockets.home
  named := pockets.named
  carries := by
    intro p mem
    obtain ⟨row, wages, solvent⟩ := pockets.carries p mem
    exact ⟨row, by simp [Till.book, other, wages], solvent⟩
  paid := by
    intro row mem isWages
    rcases List.mem_append.mp mem with before | here
    · exact pockets.paid row before isWages
    · obtain rfl := List.mem_singleton.mp here
      exact absurd isWages other
  sum := by simp [Till.book, other, pockets.sum]
  held := pockets.held

/-- Changes that are none of the Sparks' business. -/
theorem Pockets.of_same (pockets : Pockets k b) {b' : Till} (home : b'.wardNo = b.wardNo)
    (purses : b'.purses = b.purses) (ledger : b'.ledger = b.ledger)
    (found : b'.found = b.found) : Pockets k b' := by
  obtain ⟨home', named, carries, paid, sum, held⟩ := pockets
  constructor
  · rw [home, home']
  · rwa [purses]
  · rwa [purses, ledger]
  · rwa [purses, ledger]
  · rwa [purses, ledger]
  · rwa [purses, found]

theorem Pockets.earn (pockets : Pockets k b) (amount spark : Int) :
    Pockets (k + 1) (b.earn amount spark) := by
  refine Pockets.book (b := { b with
    treasury := b.treasury + amount, issued := b.issued + amount, found := b.found + 1 })
    ?_ (by decide) amount spark
  obtain ⟨home, named, carries, paid, sum, held⟩ := pockets
  refine ⟨home, named, carries, paid, sum, ?_⟩
  push_cast at held ⊢
  omega

/-- A payment is in the purse, in the Spark's own database and in the ledger, and what comes with
it is in their hands. -/
theorem Pockets.pay {i n : Nat} {p : Purse} {amount : Int} (pockets : Pockets (k + n) b)
    (there : b.purses[i]? = some p) (fair : 0 ≤ amount) : Pockets k (b.pay i amount n) := by
  obtain ⟨home, named, carries, paid, sum, held⟩ := pockets
  have id : p.id = i := named i p there
  have name : (b.purses[i]?.map (·.id)).getD 0 = p.id := by rw [there]; rfl
  constructor
  · exact home
  · intro j q at_j
    change (b.purses.modify i _)[j]? = some q at at_j
    rw [List.getElem?_modify] at at_j
    obtain ⟨q', there', rfl⟩ := Option.map_eq_some_iff.mp at_j
    split
    · exact named j q' there'
    · exact named j q' there'
  · intro q mem
    obtain ⟨j, at_j⟩ := List.mem_iff_getElem?.mp mem
    change (b.purses.modify i _)[j]? = some q at at_j
    rw [List.getElem?_modify] at at_j
    obtain ⟨q', there', rfl⟩ := Option.map_eq_some_iff.mp at_j
    obtain ⟨row, wages, solvent⟩ := carries q' (List.mem_of_getElem? there')
    have id' : q'.id = j := named j q' there'
    change Carries (b.ledger ++ [_]) _
    rw [name]
    split
    · rename_i same
      subst same
      obtain rfl : p = q' := Option.some.inj (there.symm.trans there')
      constructor
      · simp [Purse.paid, row]
      · simp [Purse.paid, wages]
        omega
      · exact Int.add_nonneg solvent fair
    · rename_i other
      have notTheirs : p.id ≠ q'.id := by omega
      exact ⟨row, by simp [wages, notTheirs], solvent⟩
  · intro row mem isWages
    change row ∈ b.ledger ++ [_] at mem
    change row.spark < ((b.purses.modify i _).length : Int)
    rw [List.length_modify]
    rcases List.mem_append.mp mem with before | here
    · exact paid row before isWages
    · obtain rfl := List.mem_singleton.mp here
      change (b.purses[i]?.map (·.id)).getD 0 < (b.purses.length : Int)
      rw [name, id]
      exact Int.ofNat_lt.mpr (List.getElem?_eq_some_iff.mp there).1
  · have gained := sum_map_modify (g := Purse.purse) (f := Purse.paid amount n) rfl there
    change ((b.purses.modify i _).map (·.purse)).sum = -sumFor .wages (b.ledger ++ [_])
    rw [gained, sum, sumFor_append]
    simp only [reduceIte]
    omega
  · have gained := sum_map_modify (g := Purse.held) (f := Purse.paid amount n) rfl there
    change (((b.purses.modify i _).map (·.held)).sum + k : Nat) = b.found
    rw [gained, ← held, Nat.add_assoc, Nat.add_comm n k]

/-- Whoever arrives brings nothing, and nobody has been paid in their name. -/
theorem Pockets.arrive (pockets : Pockets k b) : Pockets k (b.arrive b.nextId) := by
  obtain ⟨home, named, carries, paid, sum, held⟩ := pockets
  have next : b.nextId = b.purses.length := by
    rw [Till.nextId, home]
    omega
  constructor
  · exact home
  · intro j q at_j
    rcases Nat.lt_or_ge j b.purses.length with before | after
    · rw [Till.arrive, List.getElem?_append_left before] at at_j
      exact named j q at_j
    · rw [Till.arrive, List.getElem?_append_right after] at at_j
      obtain ⟨place, rfl⟩ := List.getElem?_eq_some_iff.mp at_j
      have last : j = b.purses.length := by
        simp at place
        omega
      simp [next, last]
  · intro q mem
    rcases List.mem_append.mp mem with before | here
    · exact carries q before
    · obtain rfl := List.mem_singleton.mp here
      have nothing : wagesOf b.nextId b.ledger = 0 := by
        apply wagesOf_nobody
        intro row mem isWages same
        have bound := paid row mem isWages
        omega
      exact ⟨rfl, by simp [Till.arrive, nothing], Int.le_refl 0⟩
  · intro row mem isWages
    have bound := paid row mem isWages
    simp only [Till.arrive, List.length_append, List.length_singleton]
    push_cast
    omega
  · simp [Till.arrive, sum]
  · simpa [Till.arrive] using held

end Pockets

/-- Every move keeps the book balanced. -/
theorem Step.balanced {b b' : Till} (step : Step b b') (balanced : Balanced b) : Balanced b' := by
  obtain ⟨accounts, pockets⟩ := balanced
  cases step with
  | count =>
      obtain ⟨treasury, entries, spent, retired, issued, found, solvent, owed⟩ := accounts
      exact ⟨⟨treasury, entries, spent, retired, issued, found, solvent, owed⟩,
        pockets.of_same rfl rfl rfl rfl⟩
  | build can =>
      refine ⟨accounts.build _ can.affordable, ?_⟩
      refine Pockets.book ?_ (by decide) _ _
      exact pockets.of_same rfl rfl rfl rfl
  | post fair =>
      obtain ⟨treasury, entries, spent, retired, issued, found, solvent, owed⟩ := accounts
      exact ⟨⟨treasury, entries, spent, retired, issued, found, solvent, owed⟩,
        pockets.of_same rfl rfl rfl rfl⟩
  | pay there something reached =>
      exact ⟨accounts.pay _ _ reached, pockets.pay there (Int.le_of_lt something)⟩
  | @keep i p amount there fair =>
      have share : amount.tdiv 2 ≤ amount := Int.tdiv_le_self 2 (by omega)
      have positive : 0 ≤ amount.tdiv 2 := Int.tdiv_nonneg (by omega) (by decide)
      have earned : Accounts (b.earn amount p.id) := accounts.earn (by omega)
      -- the treasury has just been raised by more than the wage
      have reached : amount.tdiv 2 ≤ (b.earn amount p.id).treasury := by
        change amount.tdiv 2 ≤ b.treasury + amount
        have solvent := accounts.solvent
        omega
      exact ⟨earned.pay _ _ reached, (pockets.earn amount p.id).pay there positive⟩
  | clock =>
      refine ⟨accounts.clock, ?_⟩
      have compounded : Pockets 0 b.compound := pockets.of_same rfl rfl rfl rfl
      unfold Till.clock
      split
      · refine Pockets.book ?_ (by decide) _ _
        exact compounded.of_same rfl rfl rfl rfl
      · exact compounded
  | publish =>
      obtain ⟨treasury, entries, spent, retired, issued, found, solvent, owed⟩ := accounts
      exact ⟨⟨treasury, entries, spent, retired, issued, found, solvent, owed⟩,
        pockets.of_same rfl rfl rfl rfl⟩
  | arrive =>
      obtain ⟨treasury, entries, spent, retired, issued, found, solvent, owed⟩ := accounts
      exact ⟨⟨treasury, entries, spent, retired, issued, found, solvent, owed⟩, pockets.arrive⟩

/-- Whether the ward's own database can be read does not change. -/
theorem Steps.standing {b b' : Till} (steps : Steps b b') : b'.standing = b.standing := by
  induction steps with
  | refl => rfl
  | tail _ step ih =>
      rw [← ih]
      cases step with
      | clock =>
          unfold Till.clock
          split <;> rfl
      | _ => rfl

/-- However the book moves, it stays balanced. -/
theorem Steps.balanced {b b' : Till} (steps : Steps b b') (balanced : Balanced b) :
    Balanced b' := by
  induction steps with
  | refl => exact balanced
  | tail _ step ih => exact step.balanced ih

/-- A book that has just been opened is balanced. -/
theorem balanced_fresh (n : Nat) : Balanced (fresh n) := by
  have named : ∀ (i : Nat) (p : Purse), (fresh n).purses[i]? = some p → p.id = i := by
    intro i p at_i
    obtain ⟨k, at_k, rfl⟩ := Option.map_eq_some_iff.mp (List.getElem?_map.symm.trans at_i)
    obtain ⟨place, rfl⟩ := List.getElem?_eq_some_iff.mp at_k
    rw [List.getElem_range]
  have carries : ∀ p ∈ (fresh n).purses, Carries [] p := by
    intro p mem
    obtain ⟨k, -, rfl⟩ := List.mem_map.mp mem
    exact ⟨rfl, rfl, Int.le_refl 0⟩
  have nothing : ((fresh n).purses.map (·.purse)).sum = 0 := by
    simp [fresh, Function.comp_def]
  have empty : ((fresh n).purses.map (·.held)).sum = 0 := by
    simp [fresh, Function.comp_def]
  constructor
  · exact ⟨rfl, rfl, rfl, rfl, rfl, rfl, Int.natCast_nonneg 300, Int.natCast_nonneg 4000⟩
  · exact ⟨rfl, named, carries, fun row mem => absurd mem List.not_mem_nil, nothing, by
      rw [empty]
      rfl⟩

end Till

end GyreWard
