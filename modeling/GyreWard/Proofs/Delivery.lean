/-
Module: GyreWard.Proofs.Delivery
Purpose: A reply on its way out: whatever room picoquic gives, whatever it withholds, and whatever the
  other streams do, the bytes provided are the reply's, in order, and the FIN comes with the last.
Trusted boundary: none
Main exports: providedOn, Provides, Sending, Sending.next, Sending.run, replies_are_delivered_whole
-/
import GyreWard.Proofs.LongCommand

namespace GyreWard

open Lib

/-- The bytes that an outcome hands to picoquic. -/
def Outcome.bytes : Outcome → List UInt8
  | .provided _ _ bytes _ => bytes
  | .asked .. => []

/-- The bytes provided on a stream. -/
def providedOn (id : UInt64) (outcomes : List Outcome) : List UInt8 :=
  (outcomesOn id outcomes).flatMap Outcome.bytes

theorem providedOn_append (id : UInt64) (first second : List Outcome) :
    providedOn id (first ++ second) = providedOn id first ++ providedOn id second := by
  unfold providedOn outcomesOn
  rw [List.filter_append, List.flatMap_append]

theorem providedOn_one (cnx : Nat) (id : UInt64) (bytes : List UInt8) (fin : Bool) :
    providedOn id [.provided cnx id bytes fin] = bytes := by
  simp [providedOn, outcomesOn, Outcome.bytes, Outcome.streamId]

/-- What a call for `length` bytes does for a stream that has `left` to send and was provided the
bytes `done` of it. -/
inductive Provides (left done : List UInt8) (length : Nat) (c : Call) (w : Session) : Prop where
  /-- It asks for what is next of the reply, with the FIN when that is the end of it, and provides
  this if it gets a buffer. -/
  | going (bytes : List UInt8) (unfinished : done ≠ left)
      (next : bytes = (left.drop done.length).take length)
      (asks : requested c w = some
        { nbBytes := bytes.length
          isFin := decide (done ++ bytes = left)
          isStillActive := decide (done ++ bytes ≠ left) })
      (provides : c.granted = true → (wtSessionCallback c w).2 =
        [.provided c.cnx c.streamId bytes (decide (done ++ bytes = left))])
      (keeps : c.granted = false → wtSessionCallback c w = (w, []))
  /-- Nothing is left, and nothing is sent. -/
  | ended (finished : done = left)
      (asks : requested c w = some { nbBytes := 0, isFin := false, isStillActive := false })
      (nothing : wtSessionCallback c w = (w, []))

/-! ### The seat of a stream that is sending -/

/-- The seat of a stream that has `left` to send and was provided the bytes `done` of it. -/
inductive Sending (left done : List UInt8) : Option Seat → Prop where
  | going {line : Text} {reply rest : List UInt8} {sent : Nat} (unfinished : rest ≠ [])
      (split : done ++ rest = left) (unsent : reply.drop sent = rest) :
      Sending left done (some { line, reply := some reply, replySent := sent })
  | ended (finished : done = left) : Sending left done none

section Step

variable {left done : List UInt8} {w : Session} {c : Call} {id : UInt64} {length : Nat}

/-- What is taken of the rest is all of it exactly when there is room for it. -/
theorem whole_iff_room {rest : List UInt8} (split : done ++ rest = left) (length : Nat) :
    done ++ rest.take length = left ↔ rest.length ≤ length := by
  rw [← split, List.append_cancel_left_eq, List.take_eq_self_iff]

/-- `take`, as `provide_data` computes it, is what fits. -/
theorem take_fits (rest : List UInt8) (length : Nat) :
    (if rest.length < length then rest.length else length) = (rest.take length).length := by
  rw [List.length_take]
  split <;> omega

theorem more_iff (rest : List UInt8) (length : Nat) :
    (rest.take length).length < rest.length ↔ ¬ rest.length ≤ length := by
  rw [List.length_take]
  omega

/-- A request for data, in terms of what of the reply is unsent. -/
theorem drained_rest {line : Text} {reply rest : List UInt8} {sent : Nat}
    (unsent : reply.drop sent = rest) (given : c.granted = true) :
    c.drained length { line, reply := some reply, replySent := sent } =
      if rest.length ≤ length then (none, [.provided c.cnx c.streamId (rest.take length) true])
      else (some { line, reply := some reply, replySent := sent + length },
        [.provided c.cnx c.streamId (rest.take length) false]) := by
  have count : reply.length - sent = rest.length := by rw [← unsent, List.length_drop]
  unfold Call.drained
  dsimp only
  rw [count, unsent, take_fits, given]
  by_cases room : rest.length ≤ length
  · have all : rest.take length = rest := List.take_of_length_le room
    simp [room, all]
  · have some_fits : (rest.take length).length = length := by
      rw [List.length_take]
      omega
    simp [room, some_fits, Nat.lt_of_not_le room]

/-- What a call for data asks for, in terms of what of the reply is unsent. -/
theorem requested_rest {line : Text} {reply rest : List UInt8} {sent : Nat}
    (held : w.find c.streamId = some { line, reply := some reply, replySent := sent })
    (wants : c.event = .provideData length) (unsent : reply.drop sent = rest) :
    requested c w = some
      { nbBytes := (rest.take length).length
        isFin := decide (rest.length ≤ length)
        isStillActive := decide (¬ rest.length ≤ length) } := by
  have count : reply.length - sent = rest.length := by rw [← unsent, List.length_drop]
  unfold requested
  rw [wants]
  dsimp only
  rw [held]
  dsimp only
  rw [count]
  simp only [take_fits, more_iff, decide_not, Bool.not_not]

/-- A call for data on a stream without a seat does nothing. -/
theorem unseated_call (unheld : w.find c.streamId = none) (wants : c.event = .provideData length) :
    wtSessionCallback c w = (w, []) ∧
      requested c w = some { nbBytes := 0, isFin := false, isStillActive := false } := by
  constructor
  · unfold wtSessionCallback
    rw [wants]
    dsimp only
    rw [unheld]
  · unfold requested
    rw [wants]
    dsimp only
    rw [unheld]

/-- A call for data that gets no buffer does nothing. -/
theorem withheld_call (wants : c.event = .provideData length) (withheld : c.granted = false) :
    wtSessionCallback c w = (w, []) := by
  unfold wtSessionCallback provide
  rw [wants]
  dsimp only
  split
  · rw [withheld]
    rfl
  · rfl

/-- Nothing is provided by no outcome. -/
theorem Sending.same {held : Option Seat} (sending : Sending left done held) :
    Sending left (done ++ providedOn id []) held := by
  have none : providedOn id [] = [] := rfl
  rw [none, List.append_nil]
  exact sending

/-- A call for data does its part, and leaves a seat that is sending the rest. -/
theorem Sending.next (sending : Sending left done (w.find c.streamId))
    (wants : c.event = .provideData length) (sound : w.Sound) :
    Provides left done length c w ∧
      Sending left (done ++ providedOn c.streamId (wtSessionCallback c w).2)
        ((wtSessionCallback c w).1.find c.streamId) := by
  generalize held : w.find c.streamId = seat at sending
  cases sending with
  | ended finished =>
      have ⟨nothing, asks⟩ := unseated_call held wants
      constructor
      · exact .ended finished asks nothing
      · rw [nothing, held]
        exact (Sending.ended finished).same
  | @going line reply rest sent unfinished split unsent =>
      have next : rest.take length = (left.drop done.length).take length := by
        rw [← split, List.drop_left]
      have notYet : done ≠ left := by
        intro same
        have nothing : rest = [] := by simpa [same] using split
        exact unfinished nothing
      have asks := requested_rest held wants unsent
      simp only [← whole_iff_room split length] at asks
      cases granted : c.granted with
      | false =>
          have nothing := withheld_call (w := w) wants granted
          constructor
          · apply Provides.going _ notYet next asks
            · intro given
              rw [granted] at given
              cases given
            · exact fun _ => nothing
          · rw [nothing, held]
            exact (Sending.going unfinished split unsent).same
      | true =>
          have seat := find_wtSessionCallback c sound c.streamId
          have shown := wtSessionCallback_outcomes c sound
          rw [if_pos rfl] at seat
          unfold Call.onSeat at seat shown
          rw [wants, held] at seat shown
          dsimp only at seat shown
          rw [drained_rest unsent granted] at seat shown
          by_cases room : rest.length ≤ length
          · have whole := (whole_iff_room split length).mpr room
            rw [if_pos room] at seat shown
            constructor
            · apply Provides.going _ notYet next asks
              · intro _
                rw [shown, decide_eq_true whole]
              · intro withheld
                rw [granted] at withheld
                cases withheld
            · rw [seat, shown]
              apply Sending.ended
              rw [providedOn_one]
              exact whole
          · have more : ¬ done ++ rest.take length = left := fun whole =>
              room ((whole_iff_room split length).mp whole)
            rw [if_neg room] at seat shown
            constructor
            · apply Provides.going _ notYet next asks
              · intro _
                rw [shown, decide_eq_false more]
              · intro withheld
                rw [granted] at withheld
                cases withheld
            · rw [seat, shown]
              refine @Sending.going _ _ line reply (rest.drop length) _ ?_ ?_ ?_
              · intro nothing
                exact room (List.drop_eq_nil_iff.mp nothing)
              · rw [providedOn_one, List.append_assoc, List.take_append_drop]
                exact split
              · rw [← List.drop_drop, unsent]

end Step

/-! ### A run of calls -/

/-- What has been provided is a prefix of what there was to send. -/
theorem Sending.initial {left done : List UInt8} {held : Option Seat}
    (sending : Sending left done held) : done <+: left := by
  cases sending with
  | going _ split _ => exact ⟨_, split⟩
  | ended finished => exact ⟨[], by rw [finished, List.append_nil]⟩

/-- Calls on the stream only ask it for data. -/
def OnlyDraws (id : UInt64) (calls : List Call) : Prop :=
  ∀ c ∈ calls, c.streamId = id → ∃ length, c.event = .provideData length

/-- A stream that is sending goes on sending, whatever is called in between. -/
theorem Sending.run {left done : List UInt8} {id : UInt64} {calls : List Call} {w : Session}
    (sending : Sending left done (w.find id)) (sound : w.Sound) (draws : OnlyDraws id calls) :
    Sending left (done ++ providedOn id (runCalls calls w).2) ((runCalls calls w).1.find id) := by
  induction calls generalizing w done with
  | nil => exact sending.same
  | cons c rest ih =>
      have later : OnlyDraws id rest := fun c' mem => draws c' (List.mem_cons_of_mem _ mem)
      have now : Sending left (done ++ providedOn id (wtSessionCallback c w).2)
          ((wtSessionCallback c w).1.find id) := by
        by_cases mine : c.streamId = id
        · have ⟨length, wants⟩ := draws c (List.mem_cons_self ..) mine
          subst mine
          exact (sending.next wants sound).2
        · have ⟨same, quiet⟩ := other_stream sound mine
          have none : providedOn id (wtSessionCallback c w).2 = [] := by rw [providedOn, quiet]; rfl
          rw [same, none, List.append_nil]
          exact sending
      have after := ih now (wtSessionCallback_sound c sound) later
      change Sending left (done ++ providedOn id ((wtSessionCallback c w).2 ++
        (runCalls rest (wtSessionCallback c w).1).2)) _
      rw [providedOn_append, ← List.append_assoc]
      exact after

/-- A stream whose seat holds a reply is provided the reply, in order, whatever else is called: each
call for data provides what is next of it and fits, a call that gets no buffer changes nothing, and
the FIN comes with the last byte and is the last thing sent.  The reply counts from its first byte
that is unsent, which is its first when the FIN of the command has just been answered. -/
theorem replies_are_delivered_whole (w : Session) (sound : w.Sound) (id : UInt64) (s : Seat)
    (reply : List UInt8) (held : w.find id = some s) (answered : s.reply = some reply)
    (unsent : s.replySent < reply.length) (calls : List Call) (draws : OnlyDraws id calls) :
    providedOn id (runCalls calls w).2 <+: reply.drop s.replySent ∧
      ∀ before c after length, calls = before ++ c :: after → c.streamId = id →
        c.event = .provideData length →
        Provides (reply.drop s.replySent) (providedOn id (runCalls before w).2) length c
          (runCalls before w).1 := by
  have start : Sending (reply.drop s.replySent) [] (w.find id) := by
    rw [held]
    obtain ⟨line, _, sent⟩ := s
    obtain rfl : _ = some reply := answered
    have some_left : reply.drop sent ≠ [] := by
      intro nothing
      have short := List.drop_eq_nil_iff.mp nothing
      exact Nat.lt_irrefl _ (Nat.lt_of_lt_of_le unsent short)
    exact .going some_left (List.nil_append _) rfl
  constructor
  · exact (start.run sound draws).initial
  · intro before c after length split mine wants
    have first : OnlyDraws id before := by
      intro c' mem
      apply draws c'
      rw [split]
      exact List.mem_append_left _ mem
    have sending := start.run sound first
    rw [List.nil_append] at sending
    subst mine
    exact (sending.next wants (runCalls_sound before sound)).1

/-- A session that has just been answered three bytes on stream 4. -/
def answeredSession : Session :=
  (wtSessionCallback
    { cnx := 0, streamId := 4, event := .postFin (text "look"), answer := fun _ => [1, 2, 3] }
    Session.opened).1

/-- Stream 4 is asked for data with no room, then without a buffer, then for two bytes; stream 8
sends something, and stream 4 is asked for two bytes twice more. -/
def fiveDraws : List Call :=
  [ { cnx := 0, streamId := 4, event := .provideData 0 },
    { cnx := 0, streamId := 4, event := .provideData 2, granted := false },
    { cnx := 0, streamId := 4, event := .provideData 2 },
    { cnx := 0, streamId := 8, event := .postData (text "cycle") },
    { cnx := 0, streamId := 4, event := .provideData 2 },
    { cnx := 0, streamId := 4, event := .provideData 2 } ]

theorem three_bytes_are_delivered_whole :
    providedOn 4 (runCalls fiveDraws answeredSession).2 <+: [1, 2, 3] ∧
      ∀ before c after length, fiveDraws = before ++ c :: after → c.streamId = 4 →
        c.event = .provideData length →
        Provides [1, 2, 3] (providedOn 4 (runCalls before answeredSession).2) length c
          (runCalls before answeredSession).1 := by
  have sound : answeredSession.Sound := wtSessionCallback_sound _ Session.opened_sound
  have held : answeredSession.find 4 =
      some { line := text "look", reply := some [1, 2, 3], replySent := 0 } := by
    decide +kernel
  have draws : OnlyDraws 4 fiveDraws := by
    intro c mem mine
    simp only [fiveDraws, List.mem_cons, List.not_mem_nil, or_false] at mem
    rcases mem with rfl | rfl | rfl | rfl | rfl | rfl
    · exact ⟨0, rfl⟩
    · exact ⟨2, rfl⟩
    · exact ⟨2, rfl⟩
    · cases mine
    · exact ⟨2, rfl⟩
    · exact ⟨2, rfl⟩
  exact replies_are_delivered_whole answeredSession sound 4 _ _ held rfl (by decide) fiveDraws draws

/-- All three are delivered, and the FIN with the third. -/
example : (runCalls fiveDraws answeredSession).2 =
    [.provided 0 4 [] false, .provided 0 4 [1, 2] false, .provided 0 4 [3] true] := by
  decide +kernel

end GyreWard
