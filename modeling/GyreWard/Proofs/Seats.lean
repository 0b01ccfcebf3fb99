/-
Module: GyreWard.Proofs.Seats
Purpose: A session as the map from stream ids to seats it stands for, and what a call does to it.
Trusted boundary: none
Main exports: Call.onSeat, wtSessionCallback_outcomes, find_wtSessionCallback, Session.Sound,
  runCalls_append, runCalls_sound
-/
import GyreWard.Model.Transport

namespace GyreWard

open Lib

/-! ### One call, as its own stream sees it -/

/-- The seat a chunk is stored in: the stream's own, or a free one. -/
def seatFor (taken : Bool) (bytes : List UInt8) : Option Seat → Option Seat
  | some s => some (s.store bytes)
  | none => if taken then none else some (Seat.empty.store bytes)

/-- What a FIN makes of a seat. -/
def Call.finished (c : Call) (s : Seat) : Option Seat × List Outcome :=
  if !c.granted then (none, [])
  else
    let command := cString s.line
    let reply := c.answer command
    if reply.length = 0 then (none, [.asked c.cnx c.streamId command reply])
    else
      (some { s with reply := some reply, replySent := 0 },
        [.asked c.cnx c.streamId command reply])

/-- What a request for data makes of a seat. -/
def Call.drained (c : Call) (length : Nat) (s : Seat) : Option Seat × List Outcome :=
  match s.reply with
  | none => (some s, [])
  | some reply =>
      let left := reply.length - s.replySent
      let take := if left < length then left else length
      if !c.granted then (some s, [])
      else if take < left then
        (some { s with replySent := s.replySent + take },
          [.provided c.cnx c.streamId ((reply.drop s.replySent).take take) false])
      else (none, [.provided c.cnx c.streamId ((reply.drop s.replySent).take take) true])

/-- A call as a step of the seat under its stream id; `taken` says that no seat is free. -/
def Call.onSeat (c : Call) (taken : Bool) (held : Option Seat) : Option Seat × List Outcome :=
  match c.event with
  | .postData bytes => (seatFor taken bytes held, [])
  | .postFin bytes =>
      match seatFor taken bytes held with
      | some s => c.finished s
      | none => (none, [])
  | .provideData length =>
      match held with
      | some s => c.drained length s
      | none => (none, [])
  | .reset => (none, [])
  | .stopSending => (none, [])
  | .other => (held, [])

/-- The array holds the seats it is declared with, no two of them for one stream. -/
structure Session.Sound (w : Session) : Prop where
  size : w.length = wtMaxStreams
  proper : w.Proper

theorem Session.opened_sound : Session.opened.Sound where
  size := List.length_replicate
  proper := Slots.proper_free _

theorem Session.find_opened (id : UInt64) : Session.opened.find id = none :=
  Slots.find_free _ _

namespace Session.Sound

variable {w : Session}

theorem release (sound : w.Sound) (id : UInt64) : Session.Sound (w.release id) where
  size := by rw [Slots.length_release, sound.size]
  proper := sound.proper.release

theorem change (sound : w.Sound) (id : UInt64) (f : Seat → Seat) :
    Session.Sound (w.change id f) where
  size := by rw [Slots.length_change, sound.size]
  proper := sound.proper.change

theorem make (sound : w.Sound) (id : UInt64) : (streamMake id w).Sound := by
  unfold streamMake
  split
  · exact sound
  · rename_i unheld
    exact ⟨by rw [Slots.length_claim, sound.size], sound.proper.claim unheld⟩

end Session.Sound

/-- `stream_find` with `make` finds the stream's seat, else a free one. -/
theorem find_streamMake (id id' : UInt64) (w : Session) :
    (streamMake id w).find id' =
      if id' = id then
        (w.find id).or (if w.full then none else some Seat.empty)
      else w.find id' := by
  unfold streamMake
  by_cases same : id' = id
  · subst same
    cases held : w.find id' with
    | some s => simp [held]
    | none =>
        cases taken : w.full with
        | true => simp [Slots.claim_of_full taken, held]
        | false => simp [Slots.find_claim held taken]
  · cases held : w.find id with
    | some s => simp [same]
    | none =>
        cases taken : w.full with
        | true => simp [Slots.claim_of_full taken, same]
        | false => simp [Slots.find_claim held taken, same]

/-- After a chunk the stream's seat is the one it is stored in. -/
theorem find_stored (id id' : UInt64) (bytes : List UInt8) (w : Session) :
    ((streamMake id w).change id (Seat.store bytes)).find id' =
      if id' = id then seatFor w.full bytes (w.find id) else w.find id' := by
  rw [Slots.find_change]
  by_cases same : id' = id
  · rw [if_pos same, if_pos same, find_streamMake, if_pos rfl]
    cases held : w.find id with
    | some s => rfl
    | none => cases taken : w.full <;> rfl
  · rw [if_neg same, if_neg same, find_streamMake, if_neg same]

/-- A FIN on a session whose seat for the stream is `s`. -/
theorem finish_onSeat {c : Call} {s : Seat} {w : Session} (sound : w.Sound)
    (held : w.find c.streamId = some s) :
    (finish c s w).2 = (c.finished s).2 ∧
      ∀ id, (finish c s w).1.find id =
        if id = c.streamId then (c.finished s).1 else w.find id := by
  unfold finish Call.finished
  cases c.granted with
  | false => exact ⟨rfl, Slots.find_release sound.proper⟩
  | true =>
      by_cases silent : (c.answer (cString s.line)).length = 0
      · simp only [silent, Bool.not_true, Bool.false_eq_true, ↓reduceIte, true_and]
        exact Slots.find_release sound.proper
      · simp only [silent, Bool.not_true, Bool.false_eq_true, ↓reduceIte, true_and]
        intro id
        rw [Slots.find_change, held]
        rfl

/-- A request for data on a session whose seat for the stream holds a reply. -/
theorem provide_onSeat {c : Call} {length sent : Nat} {line : Text} {reply : List UInt8}
    {w : Session} (sound : w.Sound)
    (held : w.find c.streamId = some { line, reply := some reply, replySent := sent }) :
    (provide c length reply sent w).2 =
        (c.drained length { line, reply := some reply, replySent := sent }).2 ∧
      ∀ id, (provide c length reply sent w).1.find id =
        if id = c.streamId then
          (c.drained length { line, reply := some reply, replySent := sent }).1
        else w.find id := by
  unfold provide Call.drained
  cases c.granted with
  | false =>
      refine ⟨rfl, fun id => ?_⟩
      by_cases same : id = c.streamId
      · simp [same, held]
      · simp [same]
  | true =>
      by_cases more : (if reply.length - sent < length then reply.length - sent else length)
          < reply.length - sent
      · simp only [more, Bool.not_true, Bool.false_eq_true, ↓reduceIte, true_and]
        intro id
        rw [Slots.find_change, held]
        rfl
      · simp only [more, Bool.not_true, Bool.false_eq_true, ↓reduceIte, true_and]
        exact Slots.find_release sound.proper

/-- A session refines the map from stream ids to seats: a call does to the seat under its id
what `onSeat` says, shows what `onSeat` says, and leaves every other seat alone. -/
theorem wtSessionCallback_onSeat (c : Call) {w : Session} (sound : w.Sound) :
    (wtSessionCallback c w).2 = (c.onSeat w.full (w.find c.streamId)).2 ∧
      ∀ id, (wtSessionCallback c w).1.find id =
        if id = c.streamId then (c.onSeat w.full (w.find c.streamId)).1 else w.find id := by
  have stored : ∀ bytes, Session.Sound ((streamMake c.streamId w).change c.streamId
      (Seat.store bytes)) :=
    fun bytes => (sound.make _).change _ _
  unfold wtSessionCallback Call.onSeat
  cases c.event with
  | postData bytes =>
      have seat := find_stored c.streamId c.streamId bytes w
      rw [if_pos rfl] at seat
      unfold post
      cases made : seatFor w.full bytes (w.find c.streamId) with
      | none => simp [seat, made, find_stored]
      | some s => simp [seat, made, find_stored]
  | postFin bytes =>
      have seat := find_stored c.streamId c.streamId bytes w
      rw [if_pos rfl] at seat
      unfold post
      cases made : seatFor w.full bytes (w.find c.streamId) with
      | none => simp [seat, made, find_stored]
      | some s =>
          rw [made] at seat
          obtain ⟨shown, seats⟩ := finish_onSeat (stored bytes) seat
          simp only [seat, made, ↓reduceIte]
          refine ⟨shown, fun id => ?_⟩
          rw [seats, find_stored]
          split <;> rfl
  | provideData length =>
      cases held : w.find c.streamId with
      | none =>
          refine ⟨rfl, fun id => ?_⟩
          by_cases same : id = c.streamId
          · simp [same, held]
          · simp [same]
      | some s =>
          obtain ⟨line, reply, sent⟩ := s
          cases reply with
          | none =>
              refine ⟨rfl, fun id => ?_⟩
              by_cases same : id = c.streamId
              · simp [same, held, Call.drained]
              · simp [same]
          | some reply => exact provide_onSeat sound held
  | reset => exact ⟨rfl, Slots.find_release sound.proper⟩
  | stopSending => exact ⟨rfl, Slots.find_release sound.proper⟩
  | other =>
      refine ⟨rfl, fun id => ?_⟩
      by_cases same : id = c.streamId
      · simp [same]
      · simp [same]

theorem wtSessionCallback_outcomes (c : Call) {w : Session} (sound : w.Sound) :
    (wtSessionCallback c w).2 = (c.onSeat w.full (w.find c.streamId)).2 :=
  (wtSessionCallback_onSeat c sound).1

theorem find_wtSessionCallback (c : Call) {w : Session} (sound : w.Sound) (id : UInt64) :
    (wtSessionCallback c w).1.find id =
      if id = c.streamId then (c.onSeat w.full (w.find c.streamId)).1 else w.find id :=
  (wtSessionCallback_onSeat c sound).2 id

theorem wtSessionCallback_sound (c : Call) {w : Session} (sound : w.Sound) :
    (wtSessionCallback c w).1.Sound := by
  have posted : ∀ bytes fin, (post c bytes fin w).1.Sound := by
    intro bytes fin
    have stored := (sound.make c.streamId).change c.streamId (Seat.store bytes)
    unfold post finish
    dsimp only
    repeat' split
    all_goals first | exact stored | exact stored.release _ | exact stored.change _ _
  unfold wtSessionCallback provide
  dsimp only
  repeat' split
  all_goals
    first
    | exact posted _ _
    | exact sound
    | exact sound.release _
    | exact sound.change _ _

/-! ### Runs -/

theorem runCalls_append (before after : List Call) (w : Session) :
    runCalls (before ++ after) w =
      ((runCalls after (runCalls before w).1).1,
        (runCalls before w).2 ++ (runCalls after (runCalls before w).1).2) := by
  induction before generalizing w with
  | nil => rfl
  | cons c rest ih => simp [runCalls, ih]

theorem runCalls_sound (calls : List Call) {w : Session} (sound : w.Sound) :
    (runCalls calls w).1.Sound := by
  induction calls generalizing w with
  | nil => exact sound
  | cons c rest ih => exact ih (wtSessionCallback_sound c sound)

/-- Every outcome of a call is on the call's connection and stream. -/
theorem onSeat_outcome_of {c : Call} {taken : Bool} {held : Option Seat} {o : Outcome}
    (shown : o ∈ (c.onSeat taken held).2) : o.cnx = c.cnx ∧ o.streamId = c.streamId := by
  have finished : ∀ s, o ∈ (c.finished s).2 → o.cnx = c.cnx ∧ o.streamId = c.streamId := by
    intro s
    unfold Call.finished
    dsimp only
    repeat' split
    all_goals
      intro mem
      simp only [List.not_mem_nil, List.mem_singleton] at mem
    all_goals
      subst mem
      exact ⟨rfl, rfl⟩
  have drained : ∀ length s, o ∈ (c.drained length s).2 → o.cnx = c.cnx ∧ o.streamId = c.streamId := by
    intro length s
    unfold Call.drained
    dsimp only
    repeat' split
    all_goals
      intro mem
      simp only [List.not_mem_nil, List.mem_singleton] at mem
    all_goals
      subst mem
      exact ⟨rfl, rfl⟩
  unfold Call.onSeat at shown
  repeat' split at shown
  all_goals first | exact finished _ shown | exact drained _ _ shown | simp at shown

end GyreWard
