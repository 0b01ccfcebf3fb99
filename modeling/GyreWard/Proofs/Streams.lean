/-
Module: GyreWard.Proofs.Streams
Purpose: What becomes of many streams at once: when each command is run whole, and when each seat
  comes back.
Trusted boundary: none
Main exports: sentOn, commandsOn, Orderly, Unbroken, commands_are_whole, Watch, watch,
  seats_come_back
-/
import GyreWard.Proofs.Interference
import GyreWard.Proofs.LongCommand

namespace GyreWard

open Lib

/-! ### What a stream sends -/

/-- The bytes an event brings. -/
def Event.bytes : Event → List UInt8
  | .postData bytes => bytes
  | .postFin bytes => bytes
  | _ => []

def Event.isFin : Event → Bool
  | .postFin _ => true
  | _ => false

/-- All the bytes a stream has sent. -/
def sentOn (id : UInt64) (calls : List Call) : Text :=
  (onStream id calls).flatMap fun c => c.event.bytes

/-- The commands of a stream that were handed to `weft_ask`. -/
def commandsOn (id : UInt64) (outcomes : List Outcome) : List Text :=
  outcomes.filterMap fun
    | .asked _ id' command _ => if id' = id then some command else none
    | .provided .. => none

/-- Has the stream sent its FIN? -/
def finned (id : UInt64) (calls : List Call) : Bool :=
  (onStream id calls).any fun c => c.event.isFin

/-- The streams of one connection: a command of at most 511 bytes on each, without a NUL, its
chunks in order, and nothing after its FIN. -/
structure Orderly (cnx : Nat) (calls : List Call) : Prop where
  single : ∀ c ∈ calls, c.cnx = cnx
  short : ∀ id, (sentOn id calls).length < wardCommandMax
  clean : ∀ id, 0 ∉ sentOn id calls
  closed : ∀ before c after, calls = before ++ c :: after → c.makes = true →
    finned c.streamId before = false

/-- A chunk that takes a free seat is the first of its stream, but for line ends. -/
def Unbroken (before : List Call) (c : Call) : Prop :=
  c.makes = true → (sessionAfter before).find c.streamId = none →
    (sessionAfter before).full = false → stripped (sentOn c.streamId before) = []

section Streams

variable {id : UInt64} {before : List Call} {c : Call}

theorem onStream_concat (id : UInt64) (before : List Call) (c : Call) :
    onStream id (before ++ [c]) = onStream id before ++ if c.streamId = id then [c] else [] := by
  unfold onStream
  rw [List.filter_append]
  by_cases mine : c.streamId = id <;> simp [mine]

theorem sentOn_concat (id : UInt64) (before : List Call) (c : Call) :
    sentOn id (before ++ [c]) =
      sentOn id before ++ if c.streamId = id then c.event.bytes else [] := by
  unfold sentOn
  rw [onStream_concat, List.flatMap_append]
  by_cases mine : c.streamId = id <;> simp [mine]

theorem finned_concat (id : UInt64) (before : List Call) (c : Call) :
    finned id (before ++ [c]) = (finned id before || decide (c.streamId = id) && c.event.isFin) := by
  unfold finned
  rw [onStream_concat, List.any_append]
  by_cases mine : c.streamId = id <;> simp [mine]

theorem commandsOn_append (id : UInt64) (first second : List Outcome) :
    commandsOn id (first ++ second) = commandsOn id first ++ commandsOn id second :=
  List.filterMap_append

/-- What is orderly in the end was orderly all along. -/
theorem Orderly.earlier {cnx : Nat} (orderly : Orderly cnx (before ++ [c])) :
    Orderly cnx before where
  single := fun c mem => orderly.single c (List.mem_append_left _ mem)
  short := by
    intro id
    have whole := orderly.short id
    rw [sentOn_concat, List.length_append] at whole
    exact Nat.lt_of_le_of_lt (Nat.le_add_right ..) whole
  clean := by
    intro id zero
    apply orderly.clean id
    rw [sentOn_concat]
    exact List.mem_append_left _ zero
  closed := by
    intro first c' after split
    apply orderly.closed first c' (after ++ [c])
    rw [split, List.append_assoc]
    rfl

/-! ### Whole commands -/

/-- What the session knows of a stream: its seat holds all it has sent, and the command it asked,
if any, is all it has sent. -/
structure Followed (id : UInt64) (calls : List Call) : Prop where
  seat : ∀ s, (sessionAfter calls).find id = some s → s.line = stripped (sentOn id calls)
  asked : commandsOn id (outcomesOf calls) = [] ∨
    finned id calls = true ∧ commandsOn id (outcomesOf calls) = [stripped (sentOn id calls)]

theorem followed_nil (id : UInt64) : Followed id [] where
  seat := by
    intro s held
    rw [show (sessionAfter []).find id = none from Session.find_opened id] at held
    cases held
  asked := Or.inl rfl

/-- A stream nobody called about is followed as before. -/
theorem Followed.other (followed : Followed id before) (other : c.streamId ≠ id) :
    Followed id (before ++ [c]) := by
  obtain ⟨same, nothing⟩ := other_stream (sessionAfter_sound before) other
  have sent : sentOn id (before ++ [c]) = sentOn id before := by
    rw [sentOn_concat, if_neg other, List.append_nil]
  have quiet : commandsOn id (wtSessionCallback c (sessionAfter before)).2 = [] := by
    apply List.filterMap_eq_nil_iff.mpr
    intro o shown
    have elsewhere := List.filter_eq_nil_iff.mp nothing o shown
    cases o with
    | asked cnx id' command reply => exact if_neg (by simpa [Outcome.streamId] using elsewhere)
    | provided => rfl
  have asked : commandsOn id (outcomesOf (before ++ [c])) = commandsOn id (outcomesOf before) := by
    rw [outcomesOf_concat, commandsOn_append, quiet, List.append_nil]
  constructor
  · rw [sessionAfter_concat, same, sent]
    exact followed.seat
  · rw [asked, sent]
    rcases followed.asked with none_yet | ⟨fin, command⟩
    · exact Or.inl none_yet
    · refine Or.inr ⟨?_, command⟩
      rw [finned_concat, fin]
      rfl

/-- A chunk is stored behind all the stream has sent before. -/
theorem line_of_seatFor (followed : Followed c.streamId before) (makes : c.makes = true)
    (unbroken : Unbroken before c)
    (short : (sentOn c.streamId before ++ c.event.bytes).length < wardCommandMax) {s : Seat}
    (seated : seatFor (sessionAfter before).full c.event.bytes
      ((sessionAfter before).find c.streamId) = some s) :
    s.line = stripped (sentOn c.streamId before ++ c.event.bytes) := by
  have fits : (stripped (sentOn c.streamId before ++ c.event.bytes)).length ≤ wtLineMax :=
    Nat.le_of_lt (Nat.lt_of_le_of_lt (List.length_filter_le ..) short)
  have stored : ∀ line, line = stripped (sentOn c.streamId before) →
      c.event.bytes.foldl storeByte line =
        stripped (sentOn c.streamId before ++ c.event.bytes) := by
    rintro line rfl
    rw [stripped_append, List.length_append] at fits
    rw [storeBytes_eq _ _ (Nat.le_trans (Nat.le_add_right ..) fits), stripped_append]
    apply List.take_of_length_le
    rw [List.length_append]
    exact fits
  cases held : (sessionAfter before).find c.streamId with
  | some s' =>
      rw [held] at seated
      obtain rfl := Option.some.inj seated
      exact stored _ (followed.seat s' held)
  | none =>
      rw [held] at seated
      cases taken : (sessionAfter before).full with
      | true => simp [seatFor, taken] at seated
      | false =>
          rw [taken] at seated
          obtain rfl : Seat.empty.store c.event.bytes = s := Option.some.inj seated
          exact stored [] (unbroken makes held taken).symm

/-- A FIN leaves what its seat holds, and hands it over. -/
theorem finished_line {s s' : Seat} (left : (c.finished s).1 = some s') : s'.line = s.line := by
  unfold Call.finished at left
  dsimp only at left
  split at left
  · cases left
  · split at left
    · cases left
    · obtain rfl := Option.some.inj left
      rfl

/-- A request for data changes nothing of a command. -/
theorem drained_line {length : Nat} {s s' : Seat} (left : (c.drained length s).1 = some s') :
    s'.line = s.line := by
  unfold Call.drained at left
  dsimp only at left
  repeat' split at left
  all_goals cases left
  all_goals rfl

/-- A request for data hands no command over. -/
theorem commandsOn_drained (id : UInt64) (length : Nat) (s : Seat) :
    commandsOn id (c.drained length s).2 = [] := by
  unfold Call.drained
  dsimp only
  repeat' split
  all_goals rfl

/-- What a stream's own call leaves in its seat, and what it tells, when the stream is followed one call further. -/
structure Furthers (before : List Call) (c : Call) (after : Option Seat × List Outcome) : Prop where
  seat : ∀ s, after.1 = some s → s.line = stripped (sentOn c.streamId before ++ c.event.bytes)
  asked : commandsOn c.streamId (outcomesOf before) ++ commandsOn c.streamId after.2 = [] ∨
    finned c.streamId (before ++ [c]) = true ∧
      commandsOn c.streamId (outcomesOf before) ++ commandsOn c.streamId after.2 =
        [stripped (sentOn c.streamId before ++ c.event.bytes)]

/-- A call that is no chunk neither adds to what was sent nor hands anything over. -/
theorem Followed.furthers_unchanged (followed : Followed c.streamId before) {after : Option Seat × List Outcome}
    (nothing : c.event.bytes = []) (quiet : commandsOn c.streamId after.2 = [])
    (seats : ∀ s, after.1 = some s → ∃ s', (sessionAfter before).find c.streamId = some s' ∧ s.line = s'.line) :
    Furthers before c after := by
  constructor
  · intro s left
    obtain ⟨s', held, same⟩ := seats s left
    rw [same, nothing, List.append_nil]
    exact followed.seat s' held
  · rw [nothing, quiet, List.append_nil, List.append_nil]
    rcases followed.asked with none_yet | ⟨fin, command⟩
    · exact Or.inl none_yet
    · refine Or.inr ⟨?_, command⟩
      rw [finned_concat, fin]
      rfl

/-- A stream that still sends chunks has not been answered yet. -/
theorem Followed.silent {cnx : Nat} (followed : Followed c.streamId before)
    (orderly : Orderly cnx (before ++ [c])) (makes : c.makes = true) :
    commandsOn c.streamId (outcomesOf before) = [] := by
  rcases followed.asked with none_yet | ⟨fin, -⟩
  · exact none_yet
  · have open_yet := orderly.closed before c [] rfl makes
    rw [fin] at open_yet
    cases open_yet

/-- The chunk with the FIN hands over what the seat holds, which is all that was sent. -/
theorem furthers_finished {bytes : List UInt8} {s : Seat}
    (silent : commandsOn c.streamId (outcomesOf before) = []) (event : c.event = .postFin bytes)
    (clean : (0 : UInt8) ∉ sentOn c.streamId before ++ c.event.bytes)
    (line : s.line = stripped (sentOn c.streamId before ++ c.event.bytes)) :
    Furthers before c (c.finished s) := by
  constructor
  · exact fun s' left => (finished_line left).trans line
  · rw [silent, List.nil_append, finished_outcomes]
    cases c.granted with
    | false => exact Or.inl rfl
    | true =>
        have whole : cString s.line = s.line := by
          apply List.takeWhile_eq_self_iff.mpr
          intro b mem
          rw [line] at mem
          have sent := List.mem_of_mem_filter mem
          simpa using fun zero : b = 0 => clean (zero ▸ sent)
        refine Or.inr ⟨?_, ?_⟩
        · rw [finned_concat, event]
          simp [Event.isFin]
        · rw [whole, line]
          simp [commandsOn]

/-- A stream's own call. -/
theorem Followed.own {cnx : Nat} (followed : Followed c.streamId before)
    (orderly : Orderly cnx (before ++ [c])) (unbroken : Unbroken before c) :
    Followed c.streamId (before ++ [c]) := by
  have sound := sessionAfter_sound before
  have sent : sentOn c.streamId (before ++ [c]) =
      sentOn c.streamId before ++ c.event.bytes := by
    rw [sentOn_concat, if_pos rfl]
  have short := orderly.short c.streamId
  have clean := orderly.clean c.streamId
  rw [sent] at short clean
  suffices furthers : Furthers before c
      (c.onSeat (sessionAfter before).full ((sessionAfter before).find c.streamId)) by
    constructor
    · rw [sessionAfter_concat, find_wtSessionCallback c sound, if_pos rfl, sent]
      exact furthers.seat
    · rw [outcomesOf_concat, commandsOn_append, wtSessionCallback_outcomes c sound, sent]
      exact furthers.asked
  have stores := fun makes s => line_of_seatFor followed makes unbroken short (s := s)
  unfold Call.onSeat
  cases event : c.event with
  | postData bytes =>
      have makes : c.makes = true := by simp [Call.makes, event]
      rw [event] at stores
      refine ⟨?_, Or.inl ?_⟩
      · rw [event]
        exact fun s => stores makes s
      · rw [followed.silent orderly makes]
        rfl
  | postFin bytes =>
      have makes : c.makes = true := by simp [Call.makes, event]
      have silent := followed.silent orderly makes
      dsimp only
      cases seated : seatFor (sessionAfter before).full bytes
          ((sessionAfter before).find c.streamId) with
      | none =>
          refine ⟨nofun, Or.inl ?_⟩
          rw [silent]
          rfl
      | some s =>
          apply furthers_finished silent event clean
          apply stores makes s
          rw [event]
          exact seated
  | provideData length =>
      have nothing : c.event.bytes = [] := by rw [event]; rfl
      cases held : (sessionAfter before).find c.streamId with
      | none => exact followed.furthers_unchanged nothing rfl nofun
      | some s =>
          apply followed.furthers_unchanged nothing (commandsOn_drained _ length s)
          exact fun s' left => ⟨s, held, drained_line left⟩
  | reset => exact followed.furthers_unchanged (by rw [event]; rfl) rfl nofun
  | stopSending => exact followed.furthers_unchanged (by rw [event]; rfl) rfl nofun
  | other => exact followed.furthers_unchanged (by rw [event]; rfl) rfl fun s held => ⟨s, held, rfl⟩

end Streams

/-- Over a run in which no chunk but a stream's first takes a free seat, each stream's command is
handed over at most once, after its FIN, and whole: by induction on the run, its last call one of
the stream's own or another's. -/
theorem commands_are_whole (cnx : Nat) (calls : List Call) (orderly : Orderly cnx calls)
    (unbroken : ∀ before c after, calls = before ++ c :: after → Unbroken before c) (id : UInt64) :
    commandsOn id (outcomesOf calls) = [] ∨
      finned id calls = true ∧ commandsOn id (outcomesOf calls) = [stripped (sentOn id calls)] := by
  suffices followed : Followed id calls from followed.asked
  induction calls using List.reverseRecOn with
  | nil => exact followed_nil id
  | append_singleton calls c ih =>
      have earlier : ∀ before c' after, calls = before ++ c' :: after → Unbroken before c' := by
        intro before c' after split
        exact unbroken before c' (after ++ [c]) (by simp [split])
      have followed := ih orderly.earlier earlier
      by_cases mine : c.streamId = id
      · subst mine
        exact followed.own orderly (unbroken calls c [] rfl)
      · exact followed.other mine

/-- What holds of each place of a list holds of every way to split it. -/
theorem each_split {α : Type} {P : List α → α → Prop} {items : List α}
    (each : ∀ (i : Nat) (inside : i < items.length), P (items.take i) (items.get ⟨i, inside⟩)) :
    ∀ before a after, items = before ++ a :: after → P before a := by
  rintro before a after rfl
  have here := each before.length (by simp)
  simpa using here

instance (before : List Call) (c : Call) : Decidable (Unbroken before c) :=
  inferInstanceAs (Decidable (_ → _ → _ → _))

theorem sentOn_elsewhere {id : UInt64} {calls : List Call}
    (absent : ∀ c ∈ calls, c.streamId ≠ id) : sentOn id calls = [] := by
  have nothing : onStream id calls = [] := by
    apply List.filter_eq_nil_iff.mpr
    intro c mem
    simpa using absent c mem
  rw [sentOn, nothing]
  rfl

/-- A client that uses one stream is orderly if that stream is. -/
theorem orderly_of_one {cnx : Nat} (id : UInt64) {calls : List Call}
    (one : ∀ c ∈ calls, c.cnx = cnx ∧ c.streamId = id)
    (short : (sentOn id calls).length < wardCommandMax) (clean : 0 ∉ sentOn id calls)
    (closed : ∀ (i : Nat) (inside : i < calls.length),
      (calls.get ⟨i, inside⟩).makes = true → finned id (calls.take i) = false) :
    Orderly cnx calls := by
  have elsewhere : ∀ id', id' ≠ id → sentOn id' calls = [] := fun id' other =>
    sentOn_elsewhere fun c mem same => other (same.symm.trans (one c mem).2)
  refine ⟨fun c mem => (one c mem).1, fun id' => ?_, fun id' => ?_, ?_⟩
  · by_cases same : id' = id
    · exact same ▸ short
    · rw [elsewhere id' same]
      exact Nat.zero_lt_succ _
  · by_cases same : id' = id
    · exact same ▸ clean
    · rw [elsewhere id' same]
      exact List.not_mem_nil
  · apply each_split
    intro i inside makes
    rw [(one _ (List.get_mem ..)).2]
    exact closed i inside makes

/-- `cycle 2` in two chunks. -/
def chunkedCommand : List Call :=
  [{ cnx := 0, streamId := 4, event := .postData (text "cyc"), answer := fun _ => [0xa0] },
    { cnx := 0, streamId := 4, event := .postFin (text "le 2"), answer := fun _ => [0xa0] }]

theorem chunked_command_is_whole :
    commandsOn 4 (outcomesOf chunkedCommand) = [] ∨
      finned 4 chunkedCommand = true ∧
        commandsOn 4 (outcomesOf chunkedCommand) = [stripped (sentOn 4 chunkedCommand)] :=
  commands_are_whole 0 chunkedCommand
    (orderly_of_one 4 (by simp [chunkedCommand]) (by decide +kernel) (by decide +kernel)
      (by decide +kernel))
    (each_split (by decide +kernel)) 4

/-- `do not restart`, and in the middle of it the client wants no reply any more. -/
def stoppedCommand : List Call :=
  [{ cnx := 0, streamId := 4, event := .postData (text "do not ") },
    { cnx := 0, streamId := 4, event := .stopSending },
    { cnx := 0, streamId := 4, event := .postFin (text "restart") }]

/-- The end of a command on a stream the client had stopped listening to restarts the ward. -/
theorem stopped_command_runs_its_end :
    ¬ ∀ (cnx : Nat) (calls : List Call), Orderly cnx calls → ∀ id,
      commandsOn id (outcomesOf calls) = [] ∨
        finned id calls = true ∧
          commandsOn id (outcomesOf calls) = [stripped (sentOn id calls)] := by
  intro claim
  have orderly : Orderly 0 stoppedCommand :=
    orderly_of_one 4 (by simp [stoppedCommand]) (by decide +kernel) (by decide +kernel)
      (by decide +kernel)
  have ran : commandsOn 4 (outcomesOf stoppedCommand) = [text "restart"] := by decide +kernel
  have sent : stripped (sentOn 4 stoppedCommand) = text "do not restart" := by decide +kernel
  rcases claim 0 stoppedCommand orderly 4 with nothing | ⟨-, whole⟩
  · rw [ran] at nothing
    cases nothing
  · rw [ran, sent] at whole
    revert whole
    decide +kernel

/-! ### Seats that come back -/

/-- Does what happened seat its stream? -/
def Happening.seats (h : Happening) (w : Session) : Bool :=
  h.toCall.makes && ((w.find h.toCall.streamId).isSome || !w.full)

/-- Is this the end of the stream: it is reset, or told to stop, or cleared, or the last of its
reply is provided, or its FIN is answered by silence? -/
def Happening.ends (h : Happening) (w : Session) : Bool :=
  match h with
  | .cleared .. => true
  | .call c =>
      match c.event with
      | .reset => true
      | .stopSending => true
      | .provideData _ =>
          (wtSessionCallback c w).2.any fun
            | .provided _ _ _ fin => fin
            | .asked .. => false
      | .postFin _ => ((wtSessionCallback c w).1.find c.streamId).isNone
      | _ => false

/-- A stream, told apart by its connection and its id. -/
def Happening.stream (h : Happening) : Nat × UInt64 := (h.toCall.cnx, h.toCall.streamId)

/-- The session beside the streams that got a seat and have not ended since. -/
structure Watch where
  session : Session
  streams : List (Nat × UInt64)

def Watch.next (v : Watch) (h : Happening) : Watch :=
  { session := (wtSessionCallback h.toCall v.session).1
    streams :=
      if h.ends v.session then v.streams.filter (· ≠ h.stream)
      else if h.seats v.session then h.stream :: v.streams
      else v.streams }

def watch (happenings : List Happening) : Watch :=
  happenings.foldl Watch.next { session := Session.opened, streams := [] }

/-- Every seat is some stream's that has not ended. -/
structure Watch.Claimed (v : Watch) : Prop where
  sound : v.session.Sound
  seat : ∀ id, v.session.find id ≠ none → ∃ cnx, (cnx, id) ∈ v.streams

section Seats

variable {v : Watch} {h : Happening}

theorem claimed_opened : Watch.Claimed { session := Session.opened, streams := [] } where
  sound := Session.opened_sound
  seat := fun id held => absurd (Session.find_opened id) held

/-- A stream other than the one something happened to stays as it was. -/
theorem mem_next {stream : Nat × UInt64} (mem : stream ∈ v.streams)
    (lasting : stream = h.stream → h.ends v.session = false) : stream ∈ (v.next h).streams := by
  unfold Watch.next
  dsimp only
  split
  · rename_i ends
    refine List.mem_filter.mpr ⟨mem, ?_⟩
    rw [decide_eq_true_eq]
    intro same
    rw [lasting same] at ends
    cases ends
  · split
    · exact List.mem_cons_of_mem _ mem
    · exact mem

/-- The last bytes of a reply free the seat. -/
theorem drained_last {c : Call} {length : Nat} {s s' : Seat}
    (left : (c.drained length s).1 = some s') :
    ((c.drained length s).2.any fun
      | .provided _ _ _ fin => fin
      | .asked .. => false) = false := by
  unfold Call.drained at left ⊢
  cases answered : s.reply with
  | none => rfl
  | some reply =>
      simp only [answered] at left ⊢
      cases granted : c.granted with
      | false => rfl
      | true =>
          by_cases more : (if reply.length - s.replySent < length then reply.length - s.replySent
              else length) < reply.length - s.replySent
          · simp only [more, Bool.not_true, Bool.false_eq_true, ↓reduceIte]
            rfl
          · simp only [granted, more, Bool.not_true, Bool.false_eq_true, ↓reduceIte] at left
            cases left

/-- What leaves a seat under its id does not end its stream. -/
theorem ends_of_seat (claimed : v.Claimed)
    (kept : ∀ cnx id, h = .cleared cnx id → v.session.find id = none)
    (left : (v.next h).session.find h.toCall.streamId ≠ none) : h.ends v.session = false := by
  have sound := claimed.sound
  have after : (v.next h).session.find h.toCall.streamId =
      (h.toCall.onSeat v.session.full (v.session.find h.toCall.streamId)).1 := by
    change (wtSessionCallback h.toCall v.session).1.find _ = _
    rw [find_wtSessionCallback h.toCall sound, if_pos rfl]
  cases h with
  | cleared cnx id =>
      rw [after] at left
      exact absurd (kept cnx id rfl) left
  | call c =>
      have shown := wtSessionCallback_outcomes c sound
      simp only [Happening.toCall] at after
      unfold Happening.ends
      unfold Call.onSeat at after shown
      cases event : c.event with
      | postData bytes => simp only [event]
      | other => simp only [event]
      | postFin bytes =>
          obtain ⟨s, seated⟩ := Option.ne_none_iff_exists'.mp left
          change (wtSessionCallback c v.session).1.find c.streamId = some s at seated
          simp only [event, seated]
          rfl
      | provideData length =>
          simp only [event] at after shown
          cases held : v.session.find c.streamId with
          | none =>
              simp only [held] at after
              exact absurd after left
          | some s =>
              simp only [held] at after shown
              obtain ⟨s', still⟩ := Option.ne_none_iff_exists'.mp left
              simp only [event, shown]
              exact drained_last (after.symm.trans still)
      | reset =>
          simp only [event] at after
          exact absurd after left
      | stopSending =>
          simp only [event] at after
          exact absurd after left

/-- What happens to a stream claims the seat it gets, and leaves every other claim alone. -/
theorem Watch.Claimed.next (claimed : v.Claimed)
    (kept : ∀ cnx id, h = .cleared cnx id → (cnx, id) ∈ v.streams → v.session.find id = none) :
    (v.next h).Claimed := by
  have sound := claimed.sound
  constructor
  · exact wtSessionCallback_sound h.toCall sound
  · intro id left
    have after := find_wtSessionCallback h.toCall sound id
    by_cases mine : id = h.toCall.streamId
    · subst mine
      by_cases held : v.session.find h.toCall.streamId = none
      · -- the seat is new, so a chunk has taken it
        have free : ∀ cnx id, h = .cleared cnx id → v.session.find id = none := by
          rintro cnx id rfl
          exact held
        have lasting := ends_of_seat claimed free left
        have seats : h.seats v.session = true := by
          rw [if_pos rfl, held] at after
          change (v.next h).session.find _ = _ at after
          rw [after] at left
          unfold Happening.seats Call.makes
          unfold Call.onSeat at left
          cases event : h.toCall.event <;> cases taken : v.session.full <;>
            simp_all [seatFor]
        refine ⟨h.toCall.cnx, ?_⟩
        simp [Watch.next, lasting, seats, Happening.stream]
      · obtain ⟨cnx, mem⟩ := claimed.seat _ held
        refine ⟨cnx, mem_next mem fun same => ends_of_seat claimed ?_ left⟩
        -- a stream that has not ended is not cleared while its seat is in use
        rintro cnx' id rfl
        rw [same] at mem
        exact kept cnx' id rfl mem
    · rw [if_neg mine] at after
      change (v.next h).session.find _ = _ at after
      rw [after] at left
      obtain ⟨cnx, mem⟩ := claimed.seat id left
      refine ⟨cnx, mem_next mem fun same => ?_⟩
      exact absurd (congrArg Prod.snd same) mine

end Seats

/-- When no stream that got a seat and has not ended is cleared while a seat is in use under its
id, every seat comes back once the streams that got one have ended. -/
theorem seats_come_back (happenings : List Happening)
    (kept : ∀ before h after, happenings = before ++ h :: after →
      ∀ cnx id, h = .cleared cnx id → (cnx, id) ∈ (watch before).streams →
        (watch before).session.find id = none)
    (ended : (watch happenings).streams = []) : (watch happenings).session.keys = [] := by
  have claimed : (watch happenings).Claimed := by
    clear ended
    induction happenings using List.reverseRecOn with
    | nil => exact claimed_opened
    | append_singleton before h ih =>
        have earlier := ih fun first h' after split =>
          kept first h' (after ++ [h]) (by simp [split])
        unfold watch
        rw [List.foldl_append]
        exact earlier.next (kept before h [] rfl)
  apply List.eq_nil_iff_forall_not_mem.mpr
  intro id mem
  have held : (watch happenings).session.find id ≠ none := fun free =>
    Slots.find_eq_none.mp free mem
  obtain ⟨cnx, unended⟩ := claimed.seat id held
  rw [ended] at unended
  cases unended

/-- A client looks, reads its reply and leaves; another has left before, on a stream of the same id. -/
def goodbye : List Happening :=
  [.call { cnx := 0, streamId := 4, event := .postFin (text "look"), answer := fun _ => [0xa0] },
    .cleared 1 4,
    .call { cnx := 0, streamId := 4, event := .provideData 1200 },
    .cleared 0 4]

theorem goodbye_gives_its_seat_back : (watch goodbye).session.keys = [] := by
  apply seats_come_back
  · apply each_split
    intro i inside cnx id cleared seated
    rcases i with _ | _ | _ | _ | i
    · cases cleared
    · obtain ⟨rfl, rfl⟩ := Happening.cleared.inj cleared
      revert seated
      decide +kernel
    · cases cleared
    · obtain ⟨rfl, rfl⟩ := Happening.cleared.inj cleared
      decide +kernel
    · exact absurd inside (Nat.not_lt.mpr (Nat.le_add_left 4 i))
  · decide +kernel

/-- A client opens sixteen streams, starts a command on each, and vanishes. -/
def vanished : List Happening :=
  ((List.range 16).map fun i =>
      Happening.call
        { cnx := 0, streamId := UInt64.ofNat (4 * i + 4), event := .postData (text "cycle") }) ++
    (List.range 16).map fun i => Happening.cleared 0 (UInt64.ofNat (4 * i + 4))

/-- The seats of a client that vanished stay taken, and nobody gets one any more. -/
theorem vanished_client_keeps_every_seat :
    (¬ ∀ happenings : List Happening, (watch happenings).streams = [] →
      (watch happenings).session.keys = []) ∧ (watch vanished).session.full = true := by
  have full : (watch vanished).session.full = true := by decide +kernel
  have ended : (watch vanished).streams = [] := by decide +kernel
  refine ⟨fun claim => ?_, full⟩
  have taken := claim vanished ended
  revert taken
  decide +kernel

end GyreWard
