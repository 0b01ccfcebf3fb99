/-
Module: GyreWard.Proofs.Arguments
Purpose: The numbers in a command line, as a player means them, against what the ward does: when an argument
  that is no number is turned down.
Trusted boundary: human-reviewed spec (`numberOf`, `asked`, `Heeds`)
Main exports: numberOf, atoi_eq, asked, Heeds, Command.Declined, turnedDown_of_declined,
  declined_of_turnedDown, a_malformed_argument_is_turned_down_iff
-/
import Mathlib.Algebra.Group.Int.Defs
import GyreWard.Proofs.AllOrNothing
import GyreWard.Proofs.CommandLine
import GyreWard.Proofs.Commissions
import GyreWard.Proofs.FailedCycle
import GyreWard.Proofs.Served

namespace GyreWard

open Lib
open Lib.Action (wp)

/-! ### Numbers -/

/-- A sign, and what follows it. -/
def signed : Text → Int × Text
  | 0x2d :: digits => (-1, digits)
  | 0x2b :: digits => (1, digits)
  | digits => (1, digits)

def decimalValue (digits : Text) : Int := digits.foldl (fun n d => 10 * n + (d.toNat - 48 : Int)) 0

/-- The number that a text is, when it is a sign or none, digits and nothing else, and fits an `int`. -/
def numberOf (s : Text) : Option Int :=
  let value := (signed s).1 * decimalValue (signed s).2
  if (signed s).2 ≠ [] ∧ (signed s).2.all isDigit ∧ -(2 ^ 31) ≤ value ∧ value < 2 ^ 31 then
    some value
  else none

theorem leadingDigits_all {digits : Text} (all : ∀ d ∈ digits, isDigit d = true) :
    leadingDigits digits = decimalValue digits := by
  have whole : digits.takeWhile isDigit = digits := by
    have front : (digits ++ []).takeWhile isDigit = digits ++ [].takeWhile isDigit :=
      List.takeWhile_append_of_pos all
    rw [List.append_nil, List.takeWhile_nil, List.append_nil] at front
    exact front
  have turn : (fun (n : Int) (d : UInt8) => n * 10 + (d.toNat - 48 : Int)) =
      fun n d => 10 * n + (d.toNat - 48 : Int) := by
    funext n d
    rw [Int.mul_comm]
  rw [leadingDigits, whole, turn, decimalValue]

theorem signed_other {c : UInt8} {rest : Text} (minus : c ≠ 0x2d) (plus : c ≠ 0x2b) :
    signed (c :: rest) = (1, c :: rest) := by
  unfold signed
  split
  · next same => exact absurd (List.cons.inj same).1 minus
  · next same => exact absurd (List.cons.inj same).1 plus
  · rfl

/-- `atoi` of a text that begins with no white space. -/
theorem atoi_signed {c : UInt8} {rest : Text} (plain : isSpace c = false) :
    atoi (c :: rest) =
      toInt32 (clampLong ((signed (c :: rest)).1 * leadingDigits (signed (c :: rest)).2)) := by
  have front : (c :: rest).dropWhile isSpace = c :: rest :=
    List.dropWhile_cons_of_neg (Bool.not_eq_true _ ▸ plain)
  unfold atoi
  rw [front]
  dsimp only
  by_cases minus : c = 0x2d
  · rw [minus]
    change toInt32 (clampLong (-leadingDigits rest)) = toInt32 (clampLong (-1 * leadingDigits rest))
    rw [Int.neg_one_mul]
  · by_cases plus : c = 0x2b
    · rw [plus]
      change toInt32 (clampLong (leadingDigits rest)) = toInt32 (clampLong (1 * leadingDigits rest))
      rw [Int.one_mul]
    · rw [signed_other minus plus, Int.one_mul]
      split
      · next same => exact absurd (List.cons.inj same).1 minus
      · next same => exact absurd (List.cons.inj same).1 plus
      · rfl

/-- A number begins with no white space. -/
theorem signed_plain {c : UInt8} {rest : Text}
    (all : ∀ d ∈ (signed (c :: rest)).2, isDigit d = true) : isSpace c = false := by
  by_cases minus : c = 0x2d
  · rw [minus]
    decide
  · by_cases plus : c = 0x2b
    · rw [plus]
      decide
    · rw [signed_other minus plus] at all
      exact (digit_not_sign (all c List.mem_cons_self)).1

/-- `atoi` reads a number as it is. -/
theorem atoi_eq {s : Text} {v : Int} (number : numberOf s = some v) : atoi s = v := by
  unfold numberOf at number
  dsimp only at number
  split at number
  · next well =>
      obtain ⟨some, whole, low, high⟩ := well
      have all := List.all_eq_true.mp whole
      obtain rfl := Option.some.inj number
      cases s with
      | nil => exact absurd rfl some
      | cons c rest =>
          rw [atoi_signed (signed_plain all), leadingDigits_all all, toInt32_clampLong ⟨low, high⟩]
  · cases number

/-! ### Commands as they are meant -/

/-- An argument that is absent, or a number. -/
def argument : Option Text → Option (Option Int)
  | none => some none
  | some s => (numberOf s).map some

/-- The command a line asks for, when its arguments are numbers. -/
def asked (line : Text) : Option Command :=
  let t := tokenise line
  if t.verb = text "cycle" then (argument t.arg1).map .cycle
  else if t.verb = text "commission" then (argument t.arg1).map .commission
  else if t.verb = text "pay" then
    (argument t.arg1).bind fun who => (argument t.arg2).map fun amount => .pay who amount
  else some (commandOf line)

theorem argument_eq {a : Option Text} {n : Option Int} (number : argument a = some n) :
    a.map atoi = n := by
  cases a with
  | none => exact Option.some.inj number
  | some s =>
      obtain ⟨v, value, rfl⟩ := Option.map_eq_some_iff.mp number
      exact congrArg some (atoi_eq value)

/-- The three verbs whose arguments are numbers. -/
inductive Numeric (line : Text) : Prop where
  | cycle (verb : commandOf line = .cycle ((tokenise line).arg1.map atoi))
      (means : asked line = (argument (tokenise line).arg1).map .cycle)
  | commission (verb : commandOf line = .commission ((tokenise line).arg1.map atoi))
      (means : asked line = (argument (tokenise line).arg1).map .commission)
  | pay (verb : commandOf line = .pay ((tokenise line).arg1.map atoi) ((tokenise line).arg2.map atoi))
      (means : asked line = (argument (tokenise line).arg1).bind fun who =>
        (argument (tokenise line).arg2).map fun amount => .pay who amount)

/-- A line has one of these verbs, or is taken as it is read. -/
theorem numeric_or_asked (line : Text) : Numeric line ∨ asked line = some (commandOf line) := by
  by_cases cycle : (tokenise line).verb = text "cycle"
  · refine .inl (.cycle ?_ ?_)
    · rw [commandOf, cycle]
      rfl
    · exact if_pos cycle
  · by_cases commission : (tokenise line).verb = text "commission"
    · refine .inl (.commission ?_ ?_)
      · rw [commandOf, commission]
        rfl
      · rw [asked, if_neg cycle, if_pos commission]
    · by_cases pay : (tokenise line).verb = text "pay"
      · refine .inl (.pay ?_ ?_)
        · rw [commandOf, pay]
          rfl
        · rw [asked, if_neg cycle, if_neg commission, if_pos pay]
      · right
        rw [asked, if_neg cycle, if_neg commission, if_neg pay]

/-- A command whose arguments are numbers is read as it is meant. -/
theorem commandOf_asked {line : Text} {command : Command} (means : asked line = some command) :
    commandOf line = command := by
  rcases numeric_or_asked line with (⟨verb, same⟩ | ⟨verb, same⟩ | ⟨verb, same⟩) | same
  · rw [same] at means
    obtain ⟨n, number, rfl⟩ := Option.map_eq_some_iff.mp means
    rw [verb, argument_eq number]
  · rw [same] at means
    obtain ⟨n, number, rfl⟩ := Option.map_eq_some_iff.mp means
    rw [verb, argument_eq number]
  · rw [same] at means
    obtain ⟨who, number, rest⟩ := Option.bind_eq_some_iff.mp means
    obtain ⟨amount, number', rfl⟩ := Option.map_eq_some_iff.mp rest
    rw [verb, argument_eq number, argument_eq number']
  · rw [same] at means
    exact Option.some.inj means

/-! ### What the ward must do -/

/-- The command is answered with an error, and the ward and its databases are as they were. -/
def TurnedDown (w : World) (line : Text) : Prop :=
  ∃ answer middle, (commandOf line).run w = (.ret answer, middle) ∧ answer.ok = false ∧
    ∀ c, wardCommand line c w = wardReply answer c middle ∧ (wardCommand line c w).2.g = w.g

/-- With numbers for its arguments a command does what was asked; with anything else it is turned down. -/
structure Heeds (w : World) (line : Text) : Prop where
  obeyed : ∀ command, asked line = some command → ∀ c,
    wardCommand line c w = (command.run >>= fun a => wardReply a c) w
  clamped : ∀ n, asked line = some (.cycle (some n)) → cycleCount (some n) = (max 1 (min 64 n)).toNat
  turnedDown : asked line = none → TurnedDown w line

/-- What a command, as it is read, is refused for before anything is done: a venue that is not offered; or a
payment to nobody, of nothing, of more than there is, or that the plane fails early. -/
def Command.Declined (w : World) : Command → Prop
  | .commission venue => ∀ v, ¬ Offered (venue.getD (-1)) v w
  | .pay who amount => ∀ i, findSpark (who.getD (-1)) w.g.sparks = some i → 0 < amount.getD 0 →
      amount.getD 0 ≤ w.g.treasury → w.plane.locked = false ∧ FaultBefore 8 w
  | _ => False

/-! ### What it does -/

section Runs

variable {w : World}

/-- A loop of cycles counts, however it ends. -/
theorem cycleLoop_counts (n : Nat) (w : World) :
    w.g.cycle ≤ (cycleLoop n w).2.g.cycle ∧ (0 < n → w.g.cycle < (cycleLoop n w).2.g.cycle) := by
  induction n generalizing w with
  | zero => exact ⟨Int.le_refl _, fun some => absurd some (Nat.lt_irrefl 0)⟩
  | succ n ih =>
      have counted := cycle_counts w
      have later : w.g.cycle < (cycleLoop (n + 1) w).2.g.cycle := by
        rw [cycleLoop, Action.bind_apply]
        unfold Action.attempt
        rcases ran : cycle w with ⟨_ | _ | _, middle⟩
        · rw [ran] at counted
          dsimp only at counted ⊢
          rw [Action.bind_apply]
          rcases checked : honest middle with ⟨fair | _ | _, after⟩
          · have same := asks_honest.same_g checked
            cases fair with
            | true =>
                have more := (ih after).1
                rw [same] at more
                exact Int.lt_of_lt_of_le (by omega) more
            | false =>
                change w.g.cycle < after.g.cycle
                rw [same]
                omega
          · have same := asks_honest.same_g checked
            change w.g.cycle < after.g.cycle
            rw [same]
            omega
          · have same := asks_honest.same_g checked
            change w.g.cycle < after.g.cycle
            rw [same]
            omega
        · rw [ran] at counted
          dsimp only at counted
          change w.g.cycle < middle.g.cycle
          omega
        · rw [ran] at counted
          dsimp only at counted
          change w.g.cycle < middle.g.cycle
          omega
      exact ⟨Int.le_of_lt later, fun _ => later⟩

/-- `/cycle` counts. -/
theorem runCycle_counts {n : Option Int} {answer : Answer} {middle : World}
    (ran : runCycle n w = (.ret answer, middle)) : w.g.cycle < middle.g.cycle := by
  have some : 0 < cycleCount n := by
    unfold cycleCount
    dsimp only
    split
    · omega
    · omega
  obtain ⟨why, after, looped, told⟩ := Action.bind_eq_ret ran
  have counted := (cycleLoop_counts (cycleCount n) w).2 some
  rw [looped] at counted
  cases why with
  | none =>
      obtain ⟨-, rfl⟩ := Action.pure_eq_ret told
      exact counted
  | some _ =>
      obtain ⟨-, rfl⟩ := Action.pure_eq_ret told
      exact counted

/-- A commission that is not offered is refused. -/
theorem runCommission_declined {venue : Option Int} (declined : ∀ v, ¬ Offered (venue.getD (-1)) v w) :
    ∃ answer middle, runCommission venue w = (.ret answer, middle) ∧ answer.ok = false ∧ middle.g = w.g := by
  obtain ⟨n, declines⟩ := buildVenue_declines declined
  have tried : Action.attempt (buildVenue (venue.getD (-1))) w = (.ret none, w.after n) := by
    unfold Action.attempt
    rw [declines]
  refine ⟨_, _, Action.bind_ret tried, rfl, rfl⟩

/-- One that is offered takes scrip. -/
theorem runCommission_spends {venue : Option Int} {v : Venue} (offered : Offered (venue.getD (-1)) v w)
    {answer : Answer} {middle : World} (ran : runCommission venue w = (.ret answer, middle)) :
    middle.g ≠ w.g := by
  have cost := cost_pos offered.can.listed
  have buys := buildVenue_buys offered
  have treasury : (buildVenue (venue.getD (-1)) w).2.g.treasury = w.g.treasury - v.cost := by
    rw [buys]
    split
    · rfl
    · split
      · rfl
      · rfl
  obtain ⟨came, after, tried, told⟩ := Action.bind_eq_ret ran
  have same : middle = after := by
    cases came with
    | none => exact (Action.pure_eq_ret told).2.symm
    | some _ => exact (Action.pure_eq_ret told).2.symm
  have ended : (buildVenue (venue.getD (-1)) w).2 = after := by
    rcases Action.attempt_eq_ret tried with ⟨_, _, bought⟩ | ⟨_, refused⟩
    · rw [bought]
    · rw [refused]
  rw [ended, ← same] at treasury
  intro unchanged
  rw [unchanged] at treasury
  omega

/-- A payment that is declined is refused. -/
theorem runPay_declined (reached : Reached w) {who amount : Option Int}
    (declined : (Command.pay who amount).Declined w) :
    ∃ answer middle, runPay who amount w = (.ret answer, middle) ∧ answer.ok = false ∧
      middle.g = w.g := by
  unfold runPay
  rw [Action.bind_ret (Action.read_apply _ _)]
  cases found : findSpark (who.getD (-1)) w.g.sparks with
  | none => exact ⟨_, _, rfl, rfl, rfl⟩
  | some i =>
      dsimp only
      by_cases refused : amount.getD 0 ≤ 0 ∨ w.g.treasury < amount.getD 0
      · rw [if_pos refused]
        exact ⟨_, _, rfl, rfl, rfl⟩
      · rw [if_neg refused]
        have here : i < w.g.sparks.length := findSpark_lt found
        obtain ⟨s, r, ready⟩ := reached.sound.payReady here
        obtain ⟨free, early⟩ := declined i found (by omega) (by omega)
        have outcome := payAlone_outcome (amount.getD 0) ready
        have returns := payAlone_returns free i (amount.getD 0)
        rcases ran : payAlone i (amount.getD 0) none w with ⟨_ | _ | _, after⟩
        · obtain ⟨j, before, word⟩ := early
          rw [(Action.wp_ret outcome ran).2 j (by omega)] at word
          cases word
        · have tried : Action.attempt (payAlone i (amount.getD 0) none) w = (.ret none, after) := by
            unfold Action.attempt
            rw [ran]
          refine ⟨_, _, Action.bind_ret tried, rfl, ?_⟩
          rcases (Action.wp_err outcome ran).early_or_late ready.here with ⟨-, same⟩ | ⟨clean, -⟩
          · exact same
          · obtain ⟨j, before, word⟩ := early
            rw [clean j before] at word
            cases word
        · rw [ran] at returns
          exact absurd rfl returns

/-- One that is not is made, or leaves something of itself behind. -/
theorem runPay_moves (reached : Reached w) {who amount : Option Int}
    (undeclined : ¬ (Command.pay who amount).Declined w) {answer : Answer} {middle : World}
    (ran : runPay who amount w = (.ret answer, middle)) (refused : answer.ok = false) :
    middle.g ≠ w.g := by
  intro unchanged
  apply undeclined
  intro i found some within
  have here : i < w.g.sparks.length := findSpark_lt found
  obtain ⟨s, r, ready⟩ := reached.sound.payReady here
  have outcome := payAlone_outcome (amount.getD 0) ready
  have fine : ¬ (amount.getD 0 ≤ 0 ∨ w.g.treasury < amount.getD 0) := by omega
  unfold runPay at ran
  rw [Action.bind_ret (Action.read_apply _ _), found] at ran
  dsimp only at ran
  rw [if_neg fine] at ran
  obtain ⟨came, after, tried, told⟩ := Action.bind_eq_ret ran
  rcases Action.attempt_eq_ret tried with ⟨_, rfl, -⟩ | ⟨rfl, stopped⟩
  · obtain ⟨rfl, -⟩ := Action.pure_eq_ret told
    cases refused
  · obtain ⟨-, rfl⟩ := Action.pure_eq_ret told
    have free : w.plane.locked = false := by
      cases locked : w.plane.locked with
      | false => rfl
      | true =>
          have waits : (payAlone i (amount.getD 0) none w).1 = .halt := by
            change ((groupBegin >>= fun _ => payGroup i (amount.getD 0) none) w).1 = .halt
            rw [Action.bind_apply, groupBegin_eq, locked]
            rfl
          rw [stopped] at waits
          cases waits
    rcases (Action.wp_err outcome stopped).early_or_late ready.here with ⟨early, -⟩ | ⟨-, -, changed⟩
    · exact ⟨free, early⟩
    · exact absurd (congrArg (Gyre.account i) unchanged) changed

/-- A command that is declined is turned down. -/
theorem turnedDown_of_declined (reached : Reached w) {line : Text}
    (declined : (commandOf line).Declined w) : TurnedDown w line := by
  have answered : ∃ answer middle, (commandOf line).run w = (.ret answer, middle) ∧
      answer.ok = false ∧ middle.g = w.g := by
    cases command : commandOf line with
    | commission venue =>
        rw [command] at declined
        exact runCommission_declined declined
    | pay who amount =>
        rw [command] at declined
        exact runPay_declined reached declined
    | _ =>
        rw [command] at declined
        cases declined
  obtain ⟨answer, middle, ran, refused, same⟩ := answered
  refine ⟨answer, middle, ran, refused, ?_⟩
  intro c
  have replied : wardCommand line c w = wardReply answer c middle := Action.bind_ret ran
  refine ⟨replied, ?_⟩
  rw [replied]
  obtain ⟨n, after⟩ := asks_wardReply answer c middle
  rw [after, World.after_g, same]

/-- A command with a number for an argument that is turned down was declined. -/
theorem declined_of_turnedDown (reached : Reached w) {line : Text} (numeric : Numeric line)
    (down : TurnedDown w line) : (commandOf line).Declined w := by
  obtain ⟨answer, middle, ran, refused, whole⟩ := down
  have same : middle.g = w.g := by
    obtain ⟨replied, unchanged⟩ := whole (weftCborTo wardReplyMax)
    obtain ⟨n, after⟩ := asks_wardReply answer (weftCborTo wardReplyMax) middle
    rw [replied, after, World.after_g] at unchanged
    exact unchanged
  cases numeric with
  | cycle verb _ =>
      rw [verb] at ran
      have counted := runCycle_counts ran
      rw [same] at counted
      exact absurd counted (Int.lt_irrefl _)
  | commission verb _ =>
      rw [verb] at ran ⊢
      intro v offered
      exact runCommission_spends offered ran same
  | pay verb _ =>
      rw [verb] at ran ⊢
      by_contra undeclined
      exact runPay_moves reached undeclined ran refused same

end Runs

/-- In every world the service comes through: a command line is heeded exactly when its arguments are
numbers, or what `atoi` makes of them is declined. -/
theorem a_malformed_argument_is_turned_down_iff (w : World) (reached : Reached w) (line : Text) :
    Heeds w line ↔ (asked line).isSome = true ∨ (commandOf line).Declined w := by
  have obeyed : ∀ command, asked line = some command → ∀ c,
      wardCommand line c w = (command.run >>= fun a => wardReply a c) w := by
    intro command means c
    rw [wardCommand, commandOf_asked means]
  have clamped : ∀ n, asked line = some (.cycle (some n)) →
      cycleCount (some n) = (max 1 (min 64 n)).toNat := by
    intro n _
    unfold cycleCount
    dsimp only [Option.getD_some]
    split
    · split
      · omega
      · omega
    · split
      · omega
      · omega
  cases means : asked line with
  | some command =>
      have heeds : Heeds w line :=
        { obeyed, clamped
          turnedDown := fun none => by
            rw [means] at none
            cases none }
      exact ⟨fun _ => .inl rfl, fun _ => heeds⟩
  | none =>
      have numeric : Numeric line := by
        rcases numeric_or_asked line with numeric | same
        · exact numeric
        · rw [means] at same
          cases same
      constructor
      · intro heeds
        exact .inr (declined_of_turnedDown reached numeric (heeds.turnedDown means))
      · rintro (some | declined)
        · cases some
        · exact { obeyed, clamped, turnedDown := fun _ => turnedDown_of_declined reached declined }

/-- A ward without Sparks that has just been founded. -/
theorem reached_youngWard : Reached (World.founded 0 1 fun _ => false) :=
  .founded (founds_fresh (by decide +kernel))

/-- `/commission 9x` asks for no venue there is. -/
theorem an_unknown_venue_is_turned_down :
    asked (text "commission 9x") = none ∧
      Heeds (World.founded 0 1 fun _ => false) (text "commission 9x") := by
  have command : commandOf (text "commission 9x") = .commission (some 9) := by decide +kernel
  have declined : (commandOf (text "commission 9x")).Declined (World.founded 0 1 fun _ => false) := by
    rw [command]
    intro v offered
    exact absurd offered.can.upper (by decide)
  exact ⟨by decide +kernel,
    (a_malformed_argument_is_turned_down_iff _ reached_youngWard _).mpr (.inr declined)⟩

/-- `/commission abc` builds the first venue. -/
theorem letters_build_the_tavern :
    ¬ ∀ w, Reached w → ∀ line, Heeds w line := by
  intro claim
  have heeds := claim _ reached_youngWard (text "commission abc")
  obtain ⟨answer, middle, ran, refused, -⟩ := heeds.turnedDown (by decide +kernel)
  have built : ((commandOf (text "commission abc")).run (World.founded 0 1 fun _ => false)).1 =
      .ret { ok := true, say := text "commissioned" } := by decide +kernel
  rw [ran] at built
  obtain rfl := Result.ret.inj built
  cases refused

end GyreWard
