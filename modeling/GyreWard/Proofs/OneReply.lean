/-
Module: GyreWard.Proofs.OneReply
Purpose: A ward fits in one reply, and a reply comes whole or not at all.
Trusted boundary: none
Main exports: unfailing_command, unfailing_gatherReply, wardAsk_of, a_ward_fits_in_one_reply
-/
import GyreWard.Proofs.Fitting

namespace GyreWard

open Lib
open Lib.Action (Unfailing)

/-! ### Commands answer -/

theorem unfailing_scalarOr (missing : Int) (query : Gyre → Option Int) :
    Unfailing (scalarOr missing query) := by
  apply Unfailing.bind (.attempt _)
  intro answered
  cases answered with
  | some _ => exact .read _
  | none => exact .pure _

theorem unfailing_sumSparks (query : SparkTables → Option Int) :
    ∀ places : List Nat, Unfailing (sumSparks query places)
  | [] => .pure _
  | _ :: rest =>
      .bind (unfailing_scalarOr _ _) fun _ => .bind (unfailing_sumSparks query rest) fun _ => .pure _

theorem unfailing_honest : Unfailing honest := by
  apply Unfailing.bind (.read _)
  intro g
  apply Unfailing.bind (.bind (.read _) fun _ => unfailing_sumSparks _ _)
  intro purses
  exact .ite (.pure _) (.bind (unfailing_sumSparks _ _) fun _ => .pure _)

theorem unfailing_cycleLoop (n : Nat) : Unfailing (cycleLoop n) := by
  induction n with
  | zero => exact .pure _
  | succ n ih =>
      apply Unfailing.bind (.attempt _)
      intro cycled
      cases cycled with
      | none => exact .pure _
      | some _ => exact .bind unfailing_honest fun _ => .ite ih (.pure _)

/-- A command answers, whatever fails on the way. -/
theorem unfailing_command (command : Command) : Unfailing command.run := by
  cases command with
  | look => exact .pure _
  | cycle n =>
      apply Unfailing.bind (unfailing_cycleLoop _)
      intro why
      cases why with
      | none => exact .pure _
      | some _ => exact .pure _
  | commission venue =>
      apply Unfailing.bind (.attempt _)
      intro built
      cases built with
      | none => exact .pure _
      | some _ => exact .pure _
  | pay who amount =>
      apply Unfailing.bind (.read _)
      intro g
      cases findSpark (who.getD (-1)) g.sparks with
      | none => exact .pure _
      | some i =>
          apply Unfailing.ite (.pure _)
          apply Unfailing.bind (.attempt _)
          intro paid
          cases paid with
          | none => exact .pure _
          | some _ => exact .pure _
  | restart =>
      apply Unfailing.bind (.read _)
      intro g
      apply Unfailing.bind (.modify _)
      intro _
      apply Unfailing.bind (.modify _)
      intro _
      apply Unfailing.bind (.attempt _)
      intro founded
      cases founded with
      | none => exact .bind (.modify _) fun _ => .pure _
      | some _ => exact .pure _
  | quit => exact .pure _
  | unknown => exact .pure _

theorem unfailing_gatherRows {ρ : Type} (rows : WardTables → List ρ) :
    Unfailing (gatherRows rows) :=
  .bind (.attempt _) fun _ => .bind (.read _) fun _ => .ite (.pure _) (.pure _)

theorem unfailing_gatherSparks :
    ∀ (sparks : List Spark) (i : Nat), Unfailing (gatherSparks sparks i)
  | [], _ => .pure _
  | _ :: rest, i =>
      .bind (unfailing_scalarOr _ _) fun _ => .bind (unfailing_scalarOr _ _) fun _ =>
        .bind (unfailing_gatherSparks rest (i + 1)) fun _ => .pure _

theorem unfailing_gatherReply (a : Answer) : Unfailing (gatherReply a) := by
  apply Unfailing.bind (.bind (.read _) fun _ => .ite unfailing_honest (.pure _))
  intro honest
  apply Unfailing.bind (.read _)
  intro ward
  apply Unfailing.bind (unfailing_gatherRows _)
  intro venues
  apply Unfailing.bind (unfailing_gatherRows _)
  intro board
  apply Unfailing.bind (.read _)
  intro g
  exact .bind (unfailing_gatherSparks _ _) fun _ => .pure _

/-! ### The reply -/

/-- What `ward_ask` returns of a reply: all of it, or nothing. -/
def Reply.sent (r : Reply) (cap : Nat) : List UInt8 := if r.bytes.length ≤ cap then r.bytes else []

theorem write_sent (r : Reply) (cap : Nat) :
    (if (r.write (weftCborTo cap)).overran then [] else (r.write (weftCborTo cap)).out) =
      r.sent cap := by
  rw [writes_reply r]
  unfold Reply.sent
  by_cases room : r.bytes.length ≤ cap
  · have fits : ((weftCborTo cap).write r.bytes).overran = false :=
      Cbor.write_fits r.bytes rfl (by rw [weftCborTo, List.length_nil, Nat.zero_add]; exact room)
    obtain ⟨-, out, -⟩ := Cbor.write_out r.bytes fits
    rw [fits, if_neg Bool.false_ne_true, if_pos room, out]
    rfl
  · have lost : ((weftCborTo cap).write r.bytes).overran = true := by
      cases overran : ((weftCborTo cap).write r.bytes).overran with
      | true => rfl
      | false =>
          obtain ⟨-, -, short⟩ := Cbor.write_out r.bytes overran
          have fits := short (Nat.zero_le _)
          rw [weftCborTo, List.length_nil, Nat.zero_add] at fits
          exact absurd fits room
    rw [lost, if_pos rfl, if_neg room]

/-- The reply does not depend on the room there is for it. -/
theorem wardAsk_of {command : Text} {w middle w' : World} {a : Answer} {r : Reply}
    (ran : (commandOf (ownedLine command)).run w = (.ret a, middle))
    (gathered : gatherReply a middle = (.ret r, w')) (cap : Nat) :
    wardAsk command cap w = (.ret (r.sent cap), w') := by
  have replied : wardReply a (weftCborTo cap) middle = (.ret (r.write (weftCborTo cap)), w') := by
    rw [wardReply_eq, Action.bind_ret gathered]
    rfl
  have commanded : wardCommand (ownedLine command) (weftCborTo cap) w =
      (.ret (r.write (weftCborTo cap)), w') := by
    unfold wardCommand
    rw [Action.bind_ret ran]
    exact replied
  unfold wardAsk
  rw [Action.bind_ret commanded, ← write_sent r cap]
  rfl

theorem sayings_brief : ∀ s ∈ sayings, s.length ≤ 80 := by decide

theorem Reply.Of.fits {r : Reply} {a : Answer} {w : World} (read : r.Of a w)
    (say : a.say ∈ sayings) (fitting : Fitting w) : r.Fits where
  say := by
    rw [read.answer]
    exact sayings_brief a.say say
  venues := by
    intro rows found
    rcases read.venues with missing | there
    · rw [missing] at found
      cases found
    · rw [there] at found
      obtain rfl := Option.some.inj found
      exact ⟨fitting.tables.now.venues, fitting.tables.now.names⟩
  board := by
    intro rows found
    rcases read.board with missing | there
    · rw [missing] at found
      cases found
    · rw [there] at found
      obtain rfl := Option.some.inj found
      have fits := fitting.tables.now
      exact ⟨fits.contracts, fun c mem => ⟨fits.kinds c mem, fits.outcomes c mem⟩⟩
  sparks := by
    have count := congrArg List.length read.sparks
    rw [List.length_map] at count
    rw [count]
    exact fitting.sparks

theorem Reply.bytes_ne_nil (r : Reply) : r.bytes ≠ [] := by
  intro none
  have lengths := congrArg List.length none
  unfold Reply.bytes at lengths
  rw [List.length_append, List.length_nil] at lengths
  have head : (headBytes 5 7).length = 1 := rfl
  omega

/-- A service serves wards of the size it founds, over a store that holds a ward's tables.  Every ward
of that size, whatever its accounts, purses, wear and places, is written in a reply shorter than the
room for one, so a command that comes back never comes back empty.  With less room it comes back
empty exactly when the reply is longer than that, and whole otherwise. -/
theorem a_ward_fits_in_one_reply (w : World) (stored : Stored liveName w) :
    (Reached w → Fitting w) ∧
      (Fitting w → ∀ command : Text,
        (∀ cap, (wardAsk command cap w).1 = .halt) ∨
          ∃ full w', full ≠ [] ∧ full.length < wardReplyMax ∧
            ∀ cap, wardAsk command cap w = (.ret (if full.length ≤ cap then full else []), w')) := by
  constructor
  · intro reached
    exact reached.fits stored
  intro fitting command
  cases ran : (commandOf (ownedLine command)).run w with
  | mk result middle =>
      cases result with
      | fail => exact absurd (congrArg Prod.fst ran) (unfailing_command _ w)
      | halt =>
          apply Or.inl
          intro cap
          unfold wardAsk wardCommand
          rw [Action.bind_apply, Action.bind_apply, ran]
      | ret a =>
          cases gathered : gatherReply a middle with
          | mk result w' =>
              cases result with
              | fail => exact absurd (congrArg Prod.fst gathered) (unfailing_gatherReply a middle)
              | halt =>
                  apply Or.inl
                  intro cap
                  unfold wardAsk wardCommand
                  rw [Action.bind_apply, Action.bind_ret ran, wardReply_eq, Action.bind_apply,
                    gathered]
              | ret r =>
                  have fits := Action.wp_ret (wp_command_fits stored fitting _) ran
                  have say := command_sayings _ _ _ _ ran
                  apply Or.inr
                  apply Exists.intro r.bytes
                  apply Exists.intro w'
                  constructor
                  · exact r.bytes_ne_nil
                  constructor
                  · exact Reply.length_bytes_lt ((gatherReply_of gathered).fits say fits)
                  · intro cap
                    exact wardAsk_of ran gathered cap

theorem small_ward_fits_in_one_reply :
    ∃ full w', full ≠ [] ∧ full.length < wardReplyMax ∧
      ∀ cap, wardAsk (text "look") cap smallWard = (.ret (if full.length ≤ cap then full else []), w') := by
  have stored : Stored liveName smallWard := fun _ => .empty false
  have fitting : Fitting smallWard := by
    constructor
    · exact Nat.le_of_ble_eq_true rfl
    constructor
    · exact
        { venues := Nat.zero_le _
          names := fun _ mem => by cases mem
          contracts := Nat.le_of_ble_eq_true rfl
          kinds := by decide
          outcomes := by
            intro r mem s told
            obtain rfl := List.mem_singleton.mp mem
            cases told }
    · intro t saved
      cases saved
  have came : (wardAsk (text "look") 0 smallWard).1 = .ret [] := by decide +kernel
  rcases (a_ward_fits_in_one_reply smallWard stored).2 fitting (text "look") with halts | answers
  · have never := came.symm.trans (halts 0)
    cases never
  · exact answers

end GyreWard
