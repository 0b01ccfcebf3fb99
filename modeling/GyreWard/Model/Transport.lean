/-
Module: GyreWard.Model.Transport
Purpose: The seats of the WebTransport server (`wt.c`): chunks in, a command at the FIN, a reply out.
Trusted boundary: human-reviewed translation of the source; picoquic and h3zero call the
  callback with the stream's own id, the context of every connection being the one session
Main exports: Seat, Session, Event, Call, Outcome, streamMake, wtSessionCallback, Request,
  requested, runCalls, Happening, commandsRun
-/
import GyreWard.Lib.Slots
import GyreWard.Model.Interactor

namespace GyreWard

open Lib

/-- `wt_stream_t` in use, less its id.  `n` is the length of `line`. -/
structure Seat where
  line : Text
  reply : Option (List UInt8)
  replySent : Nat
deriving DecidableEq, Repr

/-- `WT_MAX_STREAMS`. -/
def wtMaxStreams : Nat := 16

/-- `WT_LINE_MAX`. -/
def wtLineMax : Nat := 512

/-- `WT_REPLY_MAX`. -/
def wtReplyMax : Nat := 262144

/-- The seats of `wt_session_t`, one array for every connection. -/
abbrev Session := Slots UInt64 Seat

def Session.opened : Session := Slots.free wtMaxStreams

/-- A seat as `memset` leaves it. -/
def Seat.empty : Seat := { line := [], reply := none, replySent := 0 }

/-- The events of `picohttp_call_back_event_t` that `wt_session_callback` knows, and the rest. -/
inductive Event where
  | postData (bytes : List UInt8)
  | postFin (bytes : List UInt8)
  | provideData (length : Nat)
  | reset
  | stopSending
  | other
deriving DecidableEq, Repr

/-- One call of `wt_session_callback`.  `granted` says whether the memory it asks for is given:
the reply buffer at a FIN, picoquic's buffer when data is wanted.  `answer` is what the
interactor replies to a command at that moment. -/
structure Call where
  cnx : Nat
  streamId : UInt64
  event : Event
  granted : Bool := true
  answer : Text → List UInt8 := fun _ => []

/-- What the outside sees of a call: a command handed to `weft_ask` with the reply it returned,
or bytes provided on a stream, the last of them or not.  A buffer of no bytes, which a stream
without a reply gets, is nothing to see. -/
inductive Outcome where
  | asked (cnx : Nat) (streamId : UInt64) (command : Text) (reply : List UInt8)
  | provided (cnx : Nat) (streamId : UInt64) (bytes : List UInt8) (fin : Bool)
deriving DecidableEq, Repr

def Outcome.cnx : Outcome → Nat
  | .asked cnx .. => cnx
  | .provided cnx .. => cnx

def Outcome.streamId : Outcome → UInt64
  | .asked _ id .. => id
  | .provided _ id .. => id

/-- `stream_find` with `make`: the session with a seat for the stream, if there is one. -/
def streamMake (id : UInt64) (w : Session) : Session :=
  match w.find id with
  | some _ => w
  | none => w.claim id Seat.empty

def lineFeed : UInt8 := 10
def carriageReturn : UInt8 := 13

def isLineEnd (c : UInt8) : Bool := c == carriageReturn || c == lineFeed

/-- One byte of a command: line ends are skipped, and past `WT_LINE_MAX` nothing is stored. -/
def storeByte (line : Text) (c : UInt8) : Text :=
  if isLineEnd c then line else if line.length < wtLineMax then line ++ [c] else line

/-- The bytes of a chunk, stored in a seat. -/
def Seat.store (bytes : List UInt8) (s : Seat) : Seat :=
  { s with line := bytes.foldl storeByte s.line }

/-- The part of `wt_session_callback` that a FIN adds to a chunk. -/
def finish (c : Call) (s : Seat) (w : Session) : Session × List Outcome :=
  if !c.granted then (w.release c.streamId, [])
  else
    let command := cString s.line
    let reply := c.answer command
    if reply.length = 0 then
      (w.release c.streamId, [.asked c.cnx c.streamId command reply])
    else
      (w.change c.streamId fun s => { s with reply := some reply, replySent := 0 },
        [.asked c.cnx c.streamId command reply])

/-- The part of `wt_session_callback` that sends what fits of a reply. -/
def provide (c : Call) (length : Nat) (reply : List UInt8) (sent : Nat) (w : Session) :
    Session × List Outcome :=
  let left := reply.length - sent
  let take := if left < length then left else length
  if !c.granted then (w, [])
  else
    let bytes := (reply.drop sent).take take
    if take < left then
      (w.change c.streamId fun s => { s with replySent := s.replySent + take },
        [.provided c.cnx c.streamId bytes false])
    else (w.release c.streamId, [.provided c.cnx c.streamId bytes true])

/-- A chunk, and the FIN if it is the last. -/
def post (c : Call) (bytes : List UInt8) (fin : Bool) (w : Session) : Session × List Outcome :=
  let w := (streamMake c.streamId w).change c.streamId (Seat.store bytes)
  match w.find c.streamId with
  | none => (w, [])
  | some s => if fin then finish c s w else (w, [])

/-- `wt_session_callback`. -/
def wtSessionCallback (c : Call) (w : Session) : Session × List Outcome :=
  match c.event with
  | .postData bytes => post c bytes false w
  | .postFin bytes => post c bytes true w
  | .provideData length =>
      match w.find c.streamId with
      | some { reply := some reply, replySent := sent, .. } => provide c length reply sent w
      | _ => (w, [])
  | .reset => (w.release c.streamId, [])
  | .stopSending => (w.release c.streamId, [])
  | .other => (w, [])

/-- What `picoquic_provide_stream_data_buffer` is asked for. -/
structure Request where
  nbBytes : Nat
  isFin : Bool
  isStillActive : Bool
deriving DecidableEq, Repr

/-- The buffer `wt_session_callback` asks for, before it knows whether it gets one; only a call that
wants data asks. -/
def requested (c : Call) (w : Session) : Option Request :=
  match c.event with
  | .provideData length =>
      match w.find c.streamId with
      | some { reply := some reply, replySent := sent, .. } =>
          let left := reply.length - sent
          let take := if left < length then left else length
          let more := decide (take < left)
          some { nbBytes := take, isFin := !more, isStillActive := more }
      | _ => some { nbBytes := 0, isFin := false, isStillActive := false }
  | _ => none

/-- One call after another. -/
def runCalls : List Call → Session → Session × List Outcome
  | [], w => (w, [])
  | c :: rest, w =>
      let (w, now) := wtSessionCallback c w
      let (w, later) := runCalls rest w
      (w, now ++ later)

/-- What the server hears of its streams: h3zero calls the session about one, or clears one that
is over or whose connection closes. -/
inductive Happening where
  | call (c : Call)
  | cleared (cnx : Nat) (streamId : UInt64)

/-- `picohttp_clear_stream_ctx` calls the session once more, with `picohttp_callback_free`, which is
none of the events the session knows. -/
def Happening.toCall : Happening → Call
  | .call c => c
  | .cleared cnx streamId => { cnx, streamId, event := .other }

/-- The lines `ward_command` was run on: `ward_ask` copies the command before it runs it. -/
def commandsRun (outcomes : List Outcome) : List Text :=
  outcomes.filterMap fun
    | .asked _ _ command _ => some (ownedLine command)
    | .provided .. => none

end GyreWard
