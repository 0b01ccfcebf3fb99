/-
Module: GyreWard.Proofs.Interference
Purpose: When the connections that share one session do not notice one another.
Trusted boundary: none
Main exports: alone, Apart, Union, run_union, owed, Belongs, belongs_of_single,
  connections_do_not_interfere
-/
import GyreWard.Proofs.Seats

namespace GyreWard

open Lib

/-- A connection's own calls. -/
def alone (c : Nat) (calls : List Call) : List Call := calls.filter (·.cnx == c)

/-- The outcomes on a connection. -/
def seenBy (c : Nat) (outcomes : List Outcome) : List Outcome := outcomes.filter (·.cnx == c)

/-- The session after some calls. -/
def sessionAfter (calls : List Call) : Session := (runCalls calls Session.opened).1

/-- The outcomes of some calls. -/
def outcomesOf (calls : List Call) : List Outcome := (runCalls calls Session.opened).2

/-- Does the call look for a seat at all? -/
def Call.finds (c : Call) : Bool :=
  match c.event with
  | .other => false
  | _ => true

/-- Does the call take a seat when its stream has none? -/
def Call.makes (c : Call) : Bool :=
  match c.event with
  | .postData _ => true
  | .postFin _ => true
  | _ => false

/-- The seat `stream_find` returns is not another connection's, and when it returns none because
all are taken, the connection has taken them all itself.  What a connection holds is what it
would hold with the server to itself. -/
structure Apart (before : List Call) (call : Call) : Prop where
  unshared : call.finds = true → ∀ d ≠ call.cnx,
    (sessionAfter (alone d before)).find call.streamId = none
  seated : call.makes = true → (sessionAfter (alone call.cnx before)).find call.streamId = none →
    (sessionAfter before).full = true → (sessionAfter (alone call.cnx before)).full = true

/-! ### Runs of calls, extended at the end -/

theorem sessionAfter_sound (calls : List Call) : (sessionAfter calls).Sound :=
  runCalls_sound calls Session.opened_sound

theorem sessionAfter_concat (before : List Call) (c : Call) :
    sessionAfter (before ++ [c]) = (wtSessionCallback c (sessionAfter before)).1 := by
  simp [sessionAfter, runCalls_append, runCalls]

theorem outcomesOf_concat (before : List Call) (c : Call) :
    outcomesOf (before ++ [c]) =
      outcomesOf before ++ (wtSessionCallback c (sessionAfter before)).2 := by
  simp [outcomesOf, sessionAfter, runCalls_append, runCalls]

theorem alone_concat_own (before : List Call) (c : Call) :
    alone c.cnx (before ++ [c]) = alone c.cnx before ++ [c] := by
  simp [alone]

theorem alone_concat_other {d : Nat} (before : List Call) {c : Call} (other : d ≠ c.cnx) :
    alone d (before ++ [c]) = alone d before := by
  simp [alone, Ne.symm other]

theorem seenBy_append (c : Nat) (first second : List Outcome) :
    seenBy c (first ++ second) = seenBy c first ++ seenBy c second := by
  simp [seenBy]

/-- All a call shows is on its own connection. -/
theorem seenBy_call (c : Call) {w : Session} (sound : w.Sound) (d : Nat) :
    seenBy d (wtSessionCallback c w).2 = if d = c.cnx then (wtSessionCallback c w).2 else [] := by
  have own : ∀ o ∈ (wtSessionCallback c w).2, o.cnx = c.cnx := by
    intro o shown
    rw [wtSessionCallback_outcomes c sound] at shown
    exact (onSeat_outcome_of shown).1
  by_cases same : d = c.cnx
  · rw [if_pos same]
    apply List.filter_eq_self.mpr
    intro o shown
    simp [own o shown, same]
  · rw [if_neg same]
    apply List.filter_eq_nil_iff.mpr
    intro o shown
    simpa [own o shown] using Ne.symm same

/-! ### The shared session is the union of the connections' own -/

/-- Every seat any connection would hold alone is held, and every seat held is one of those. -/
structure Union (calls : List Call) : Prop where
  holds : ∀ c id s, (sessionAfter (alone c calls)).find id = some s →
    (sessionAfter calls).find id = some s
  only : ∀ id s, (sessionAfter calls).find id = some s →
    ∃ c, (sessionAfter (alone c calls)).find id = some s

theorem union_nil : Union [] where
  holds := by
    intro c id s held
    exact held
  only := by
    intro id s held
    exact ⟨0, held⟩

/-- A connection with the server to itself holds no more seats than the shared session. -/
theorem Union.full_of_alone {calls : List Call} (union : Union calls) (c : Nat)
    (taken : (sessionAfter (alone c calls)).full = true) : (sessionAfter calls).full = true := by
  refine Slots.full_of_subset (sessionAfter_sound _).proper ?_ ?_ taken
  · rw [(sessionAfter_sound _).size, (sessionAfter_sound _).size]
  · intro id used
    by_contra unused
    have unheld := Slots.find_eq_none.mpr unused
    cases held : (sessionAfter (alone c calls)).find id with
    | none => exact (Slots.find_eq_none.mp held) used
    | some s => simp [union.holds c id s held] at unheld

/-- Apart from the others, a connection finds under its stream id what it would find alone. -/
theorem find_apart {before : List Call} {call : Call} (union : Union before)
    (apart : Apart before call) (finds : call.finds = true) :
    (sessionAfter before).find call.streamId =
      (sessionAfter (alone call.cnx before)).find call.streamId := by
  cases held : (sessionAfter before).find call.streamId with
  | some s =>
      obtain ⟨d, mine⟩ := union.only _ _ held
      by_cases same : d = call.cnx
      · rw [← same, mine]
      · simp [apart.unshared finds d same] at mine
  | none =>
      cases mine : (sessionAfter (alone call.cnx before)).find call.streamId with
      | none => rfl
      | some s => simp [union.holds _ _ _ mine] at held

/-- Apart from the others, a call does to its stream's seat what it would do alone. -/
theorem onSeat_apart {before : List Call} {call : Call} (union : Union before)
    (apart : Apart before call) (finds : call.finds = true) :
    call.onSeat (sessionAfter before).full ((sessionAfter before).find call.streamId) =
      call.onSeat (sessionAfter (alone call.cnx before)).full
        ((sessionAfter (alone call.cnx before)).find call.streamId) := by
  have same := find_apart union apart finds
  rw [same]
  cases held : (sessionAfter (alone call.cnx before)).find call.streamId with
  | some s =>
      -- a stream with a seat does not ask for another
      unfold Call.onSeat seatFor
      rfl
  | none =>
      by_cases makes : call.makes = true
      · have rooms : (sessionAfter before).full =
            (sessionAfter (alone call.cnx before)).full := by
          cases shared : (sessionAfter before).full with
          | true => exact (apart.seated makes held shared).symm
          | false =>
              cases mine : (sessionAfter (alone call.cnx before)).full with
              | false => rfl
              | true => simp [union.full_of_alone _ mine] at shared
        rw [rooms]
      · unfold Call.makes at makes
        unfold Call.onSeat
        cases event : call.event with
        | postData bytes => simp [event] at makes
        | postFin bytes => simp [event] at makes
        | provideData length => rfl
        | reset => rfl
        | stopSending => rfl
        | other => rfl

/-- A call that looks for no seat changes nothing and shows nothing. -/
theorem call_of_not_finds {c : Call} (blind : c.finds = false) (w : Session) :
    wtSessionCallback c w = (w, []) := by
  unfold Call.finds at blind
  unfold wtSessionCallback
  cases event : c.event with
  | other => rfl
  | postData bytes => simp [event] at blind
  | postFin bytes => simp [event] at blind
  | provideData length => simp [event] at blind
  | reset => simp [event] at blind
  | stopSending => simp [event] at blind

/-- A connection's own run takes the same step, and shows the same. -/
theorem alone_step {before : List Call} {call : Call} (union : Union before)
    (apart : Apart before call) :
    (wtSessionCallback call (sessionAfter (alone call.cnx before))).2 =
      (wtSessionCallback call (sessionAfter before)).2 := by
  cases finds : call.finds with
  | false => rw [call_of_not_finds finds, call_of_not_finds finds]
  | true =>
      rw [wtSessionCallback_outcomes call (sessionAfter_sound _),
        wtSessionCallback_outcomes call (sessionAfter_sound _), onSeat_apart union apart finds]

/-- One call that keeps apart keeps the union. -/
theorem union_step {before : List Call} {call : Call} (union : Union before)
    (apart : Apart before call) : Union (before ++ [call]) := by
  cases finds : call.finds with
  | false =>
      -- nothing moves in the shared session, and nothing in the connection's own
      have shared : sessionAfter (before ++ [call]) = sessionAfter before := by
        rw [sessionAfter_concat, call_of_not_finds finds]
      have own : ∀ c, sessionAfter (alone c (before ++ [call])) = sessionAfter (alone c before) := by
        intro c
        by_cases same : c = call.cnx
        · rw [same, alone_concat_own, sessionAfter_concat, call_of_not_finds finds]
        · rw [alone_concat_other _ same]
      constructor
      · intro c id s held
        rw [own] at held
        rw [shared]
        exact union.holds c id s held
      · intro id s held
        rw [shared] at held
        obtain ⟨c, mine⟩ := union.only id s held
        exact ⟨c, by rw [own]; exact mine⟩
  | true =>
      have step := onSeat_apart union apart finds
      have shared : ∀ id, (sessionAfter (before ++ [call])).find id =
          if id = call.streamId then
            (call.onSeat (sessionAfter before).full
              ((sessionAfter before).find call.streamId)).1
          else (sessionAfter before).find id := by
        intro id
        rw [sessionAfter_concat, find_wtSessionCallback call (sessionAfter_sound _)]
      have own : ∀ id, (sessionAfter (alone call.cnx (before ++ [call]))).find id =
          if id = call.streamId then
            (call.onSeat (sessionAfter before).full
              ((sessionAfter before).find call.streamId)).1
          else (sessionAfter (alone call.cnx before)).find id := by
        intro id
        rw [alone_concat_own, sessionAfter_concat,
          find_wtSessionCallback call (sessionAfter_sound _), step]
      constructor
      · intro c id s held
        by_cases same : c = call.cnx
        · subst same
          rw [own] at held
          rw [shared]
          by_cases here : id = call.streamId
          · rw [if_pos here] at held ⊢
            exact held
          · rw [if_neg here] at held ⊢
            exact union.holds _ id s held
        · rw [alone_concat_other _ same] at held
          rw [shared]
          by_cases here : id = call.streamId
          · rw [here, apart.unshared finds c same] at held
            cases held
          · rw [if_neg here]
            exact union.holds c id s held
      · intro id s held
        rw [shared] at held
        by_cases here : id = call.streamId
        · rw [if_pos here] at held
          exact ⟨call.cnx, by rw [own, if_pos here]; exact held⟩
        · rw [if_neg here] at held
          obtain ⟨c, mine⟩ := union.only id s held
          refine ⟨c, ?_⟩
          by_cases same : c = call.cnx
          · subst same
            rw [own, if_neg here]
            exact mine
          · rw [alone_concat_other _ same]
            exact mine

/-! ### What is owed on a stream -/

/-- What an outcome makes of what was owed on a stream of a connection. -/
def Outcome.settle (c : Nat) (id : UInt64) (rest : List UInt8) : Outcome → List UInt8
  | .asked c' id' _ reply => if c' = c ∧ id' = id then reply else rest
  | .provided c' id' bytes _ => if c' = c ∧ id' = id then rest.drop bytes.length else rest

/-- What is still to be sent, on a stream of a connection, of the reply to the command last asked
on it. -/
def owed (c : Nat) (id : UInt64) (outcomes : List Outcome) : List UInt8 :=
  outcomes.foldl (Outcome.settle c id) []

/-- Every run of bytes provided on a stream is the next one of the reply to the command last
asked on that stream, and the FIN comes with the last of them. -/
def Belongs (outcomes : List Outcome) : Prop :=
  ∀ before c id bytes fin after, outcomes = before ++ .provided c id bytes fin :: after →
    bytes <+: owed c id before ∧ (fin = true ↔ bytes = owed c id before)

theorem owed_append (c : Nat) (id : UInt64) (before after : List Outcome) :
    owed c id (before ++ after) = after.foldl (Outcome.settle c id) (owed c id before) :=
  List.foldl_append

/-- Other connections' outcomes settle nothing. -/
theorem owed_seenBy (c : Nat) (id : UInt64) (outcomes : List Outcome) :
    owed c id (seenBy c outcomes) = owed c id outcomes := by
  unfold owed
  generalize ([] : List UInt8) = rest
  induction outcomes generalizing rest with
  | nil => rfl
  | cons o later ih =>
      by_cases mine : o.cnx = c
      · have kept : seenBy c (o :: later) = o :: seenBy c later := by simp [seenBy, mine]
        rw [kept]
        exact ih _
      · have dropped : seenBy c (o :: later) = seenBy c later := by simp [seenBy, mine]
        have unsettled : o.settle c id rest = rest := by
          cases o with
          | asked c' id' command reply => exact if_neg fun both => mine both.1
          | provided c' id' bytes fin => exact if_neg fun both => mine both.1
        rw [dropped, List.foldl_cons, unsettled]
        exact ih _

/-- Bytes belong to their replies when they do as each connection sees them. -/
theorem belongs_of_seenBy {outcomes : List Outcome} (each : ∀ c, Belongs (seenBy c outcomes)) :
    Belongs outcomes := by
  intro before c id bytes fin after split
  have view : seenBy c outcomes =
      seenBy c before ++ .provided c id bytes fin :: seenBy c after := by
    rw [split, seenBy_append]
    simp [seenBy, Outcome.cnx]
  have next := each c _ c id bytes fin _ view
  rw [owed_seenBy] at next
  exact next

theorem belongs_concat {outcomes : List Outcome} {o : Outcome} (belongs : Belongs outcomes)
    (last : ∀ c id bytes fin, o = .provided c id bytes fin →
      bytes <+: owed c id outcomes ∧ (fin = true ↔ bytes = owed c id outcomes)) :
    Belongs (outcomes ++ [o]) := by
  intro before c id bytes fin after split
  rcases List.eq_nil_or_concat after with rfl | ⟨after, o', rfl⟩
  · obtain ⟨rfl, rfl⟩ : outcomes = before ∧ o = .provided c id bytes fin := by simpa using split
    exact last c id bytes fin rfl
  · have inner : outcomes = before ++ .provided c id bytes fin :: after := by
      have parts : outcomes ++ [o] = (before ++ .provided c id bytes fin :: after) ++ [o'] := by
        simpa using split
      exact (List.append_inj' parts rfl).1
    exact belongs before c id bytes fin after inner

/-! ### One connection with the server to itself -/

/-- What a seat still has to send is what is owed on its stream. -/
def Owing (c : Nat) (calls : List Call) : Prop :=
  ∀ id s reply, (sessionAfter calls).find id = some s → s.reply = some reply →
    reply.drop s.replySent = owed c id (outcomesOf calls)

/-- A seat and outcomes after a call before which `rest` was owed: the seat owes what is owed now,
and bytes were the next ones owed. -/
structure Settles (call : Call) (rest : List UInt8) (after : Option Seat × List Outcome) :
    Prop where
  owing : ∀ s reply, after.1 = some s → s.reply = some reply →
    reply.drop s.replySent = after.2.foldl (Outcome.settle call.cnx call.streamId) rest
  next : after.2 = [] ∨ ∃ o, after.2 = [o] ∧ ∀ c id bytes fin, o = .provided c id bytes fin →
    bytes <+: rest ∧ (fin = true ↔ bytes = rest)

theorem settles_free (call : Call) (rest : List UInt8) : Settles call rest (none, []) where
  owing := by
    intro s reply held
    cases held
  next := Or.inl rfl

theorem settles_quiet {call : Call} {rest : List UInt8} {held : Option Seat}
    (owes : ∀ s reply, held = some s → s.reply = some reply → reply.drop s.replySent = rest) :
    Settles call rest (held, []) where
  owing := owes
  next := Or.inl rfl

theorem seatFor_owing (taken : Bool) (bytes : List UInt8) {held : Option Seat}
    {rest : List UInt8}
    (owes : ∀ s reply, held = some s → s.reply = some reply → reply.drop s.replySent = rest) :
    ∀ s reply, seatFor taken bytes held = some s → s.reply = some reply →
      reply.drop s.replySent = rest := by
  intro s reply made replied
  cases held with
  | some s₀ =>
      obtain rfl : s₀.store bytes = s := by simpa [seatFor] using made
      exact owes s₀ reply rfl replied
  | none =>
      cases taken with
      | true => simp [seatFor] at made
      | false =>
          obtain rfl : Seat.empty.store bytes = s := by simpa [seatFor] using made
          simp [Seat.store, Seat.empty] at replied

theorem finished_settles (call : Call) (s : Seat) (rest : List UInt8) :
    Settles call rest (call.finished s) := by
  unfold Call.finished
  cases call.granted with
  | false => exact settles_free call rest
  | true =>
      by_cases silent : (call.answer (cString s.line)).length = 0
      · simp only [silent, Bool.not_true, Bool.false_eq_true, ↓reduceIte]
        constructor
        · intro s' reply held
          cases held
        · refine Or.inr ⟨_, rfl, ?_⟩
          intro c id bytes fin other
          cases other
      · simp only [silent, Bool.not_true, Bool.false_eq_true, ↓reduceIte]
        constructor
        · intro s' reply held replied
          obtain rfl := Option.some.inj held
          obtain rfl := Option.some.inj replied
          simp [Outcome.settle]
        · refine Or.inr ⟨_, rfl, ?_⟩
          intro c id bytes fin other
          cases other

theorem drained_settles {call : Call} {length : Nat} {s : Seat} {rest : List UInt8}
    (owes : ∀ reply, s.reply = some reply → reply.drop s.replySent = rest) :
    Settles call rest (call.drained length s) := by
  have quiet : Settles call rest (some s, []) := by
    apply settles_quiet
    intro s' reply held
    obtain rfl := Option.some.inj held
    exact owes reply
  unfold Call.drained
  cases replied : s.reply with
  | none => exact quiet
  | some reply =>
      have owed_now : reply.drop s.replySent = rest := owes reply replied
      have left : reply.length - s.replySent = rest.length := by simp [← owed_now]
      cases call.granted with
      | false => exact quiet
      | true =>
          by_cases more : length < rest.length
          · -- the buffer is too small: its fill is sent, and the rest stays owed
            have take : (if rest.length < length then rest.length else length) = length :=
              if_neg (Nat.lt_asymm more)
            simp only [left, owed_now, take, more, Bool.not_true, Bool.false_eq_true, ↓reduceIte]
            have size : (rest.take length).length = length := by
              rw [List.length_take]
              exact Nat.min_eq_left (Nat.le_of_lt more)
            constructor
            · intro s' reply' held replied'
              obtain rfl := Option.some.inj held
              obtain rfl := Option.some.inj replied'
              simp only [List.foldl_cons, List.foldl_nil, Outcome.settle, and_self, ↓reduceIte, size]
              rw [← owed_now, List.drop_drop]
            · refine Or.inr ⟨_, rfl, ?_⟩
              intro c id bytes fin shown
              cases shown
              refine ⟨List.take_prefix _ _, ?_⟩
              constructor
              · intro never
                cases never
              · intro same
                rw [same] at size
                omega
          · -- the rest of the reply goes out with the FIN
            have take : (if rest.length < length then rest.length else length) = rest.length := by
              split
              · rfl
              · omega
            simp only [left, owed_now, take, Nat.lt_irrefl, Bool.not_true, Bool.false_eq_true,
              ↓reduceIte, List.take_length]
            constructor
            · intro s' reply' held
              cases held
            · refine Or.inr ⟨_, rfl, ?_⟩
              intro c id bytes fin shown
              cases shown
              exact ⟨List.prefix_rfl, by simp⟩

/-- What a call owes on its own stream, when its seat owed what it should before. -/
theorem onSeat_settles (call : Call) (taken : Bool) {held : Option Seat} {rest : List UInt8}
    (owes : ∀ s reply, held = some s → s.reply = some reply → reply.drop s.replySent = rest) :
    Settles call rest (call.onSeat taken held) := by
  have stored := fun bytes => seatFor_owing taken bytes owes
  unfold Call.onSeat
  split
  · exact settles_quiet (stored _)
  · split
    · exact finished_settles call _ rest
    · exact settles_free call rest
  · split
    · exact drained_settles fun reply => owes _ reply rfl
    · exact settles_free call rest
  · exact settles_free call rest
  · exact settles_free call rest
  · exact settles_quiet owes

/-- A call settles nothing on another stream. -/
theorem settle_other_stream {call : Call} {taken : Bool} {held : Option Seat} {id : UInt64}
    (other : id ≠ call.streamId) (c : Nat) (rest : List UInt8) :
    (call.onSeat taken held).2.foldl (Outcome.settle c id) rest = rest := by
  have unsettled : ∀ o ∈ (call.onSeat taken held).2, ∀ rest, o.settle c id rest = rest := by
    intro o shown rest
    have stream := (onSeat_outcome_of shown).2
    cases o with
    | asked c' id' command reply => exact if_neg fun both => other (both.2.symm.trans stream)
    | provided c' id' bytes fin => exact if_neg fun both => other (both.2.symm.trans stream)
  revert unsettled
  generalize (call.onSeat taken held).2 = shown
  intro unsettled
  induction shown generalizing rest with
  | nil => rfl
  | cons o later ih =>
      rw [List.foldl_cons, unsettled o (List.mem_cons_self ..)]
      exact ih rest fun o mem => unsettled o (List.mem_cons_of_mem _ mem)

/-- One connection's run, one call longer. -/
theorem single_step {c : Nat} {calls : List Call} {call : Call} (own : call.cnx = c)
    (owing : Owing c calls) (belongs : Belongs (outcomesOf calls)) :
    Owing c (calls ++ [call]) ∧ Belongs (outcomesOf (calls ++ [call])) := by
  subst own
  have sound := sessionAfter_sound calls
  have settles := onSeat_settles call (sessionAfter calls).full (owing call.streamId)
  have shown := wtSessionCallback_outcomes call sound
  constructor
  · intro id s reply held replied
    rw [sessionAfter_concat, find_wtSessionCallback call sound] at held
    rw [outcomesOf_concat, owed_append, shown]
    by_cases here : id = call.streamId
    · rw [if_pos here] at held
      rw [here]
      exact settles.owing s reply held replied
    · rw [if_neg here] at held
      rw [settle_other_stream here]
      exact owing id s reply held replied
  · rw [outcomesOf_concat, shown]
    rcases settles.next with nothing | ⟨o, one, next⟩
    · rw [nothing, List.append_nil]
      exact belongs
    · rw [one]
      apply belongs_concat belongs
      intro c id bytes fin provided
      have mem : o ∈ (call.onSeat (sessionAfter calls).full
          ((sessionAfter calls).find call.streamId)).2 := by
        rw [one]
        exact List.mem_singleton_self o
      have place := onSeat_outcome_of mem
      subst provided
      obtain ⟨rfl, rfl⟩ : c = call.cnx ∧ id = call.streamId := place
      exact next _ _ bytes fin rfl

/-- With the server to itself, a connection gets on each stream the reply to the command it sent
there. -/
theorem belongs_of_single {c : Nat} {calls : List Call} (single : ∀ call ∈ calls, call.cnx = c) :
    Owing c calls ∧ Belongs (outcomesOf calls) := by
  induction calls using List.reverseRecOn with
  | nil =>
      constructor
      · intro id s reply held
        rw [sessionAfter, runCalls, Session.find_opened] at held
        cases held
      · intro before c' id bytes fin after split
        simp [outcomesOf, runCalls] at split
  | append_singleton calls call ih =>
      have earlier := ih fun call' mem => single call' (List.mem_append_left _ mem)
      exact single_step (single call (by simp)) earlier.1 earlier.2

/-! ### Every interleaving -/

/-- Over a run whose calls all keep apart, the shared session stays the union of the connections'
own sessions and every connection sees what it would see alone: by induction on the run, its last
call a step both take. -/
theorem run_union {calls : List Call}
    (apart : ∀ before call after, calls = before ++ call :: after → Apart before call) :
    Union calls ∧ ∀ c, seenBy c (outcomesOf calls) = outcomesOf (alone c calls) := by
  induction calls using List.reverseRecOn with
  | nil => exact ⟨union_nil, fun _ => rfl⟩
  | append_singleton calls call ih =>
      have apartEarlier : ∀ before call' after, calls = before ++ call' :: after →
          Apart before call' := by
        intro before call' after split
        exact apart before call' (after ++ [call]) (by simp [split])
      obtain ⟨union, same⟩ := ih apartEarlier
      have apartLast := apart calls call [] rfl
      refine ⟨union_step union apartLast, fun c => ?_⟩
      rw [outcomesOf_concat, seenBy_append, same, seenBy_call call (sessionAfter_sound _)]
      by_cases mine : c = call.cnx
      · rw [if_pos mine, mine, alone_concat_own, outcomesOf_concat, alone_step union apartLast]
      · rw [if_neg mine, alone_concat_other _ mine, List.append_nil]

/-- In every interleaving whose calls all keep apart, each connection's commands and replies are
those of its own calls alone, and every byte provided on a stream is the next one of the reply to
the command sent on that stream of that connection. -/
theorem connections_do_not_interfere (calls : List Call)
    (apart : ∀ before call after, calls = before ++ call :: after → Apart before call) :
    (∀ c, seenBy c (outcomesOf calls) = outcomesOf (alone c calls)) ∧
      Belongs (outcomesOf calls) := by
  obtain ⟨-, same⟩ := run_union apart
  refine ⟨same, belongs_of_seenBy fun c => ?_⟩
  rw [same]
  apply (belongs_of_single (c := c) ?_).2
  intro call mem
  simpa [alone] using (List.mem_filter.mp mem).2

/-- One client looks and reads its reply, and then another uses the same stream id. -/
def takingTurns : List Call :=
  [{ cnx := 0, streamId := 4, event := .postFin (text "look"), answer := fun _ => [0xa0] },
    { cnx := 0, streamId := 4, event := .provideData 1200 },
    { cnx := 1, streamId := 4, event := .postFin (text "cycle"), answer := fun _ => [0xa0] }]

theorem taking_turns_does_not_interfere :
    (∀ c, seenBy c (outcomesOf takingTurns) = outcomesOf (alone c takingTurns)) ∧
      Belongs (outcomesOf takingTurns) := by
  apply connections_do_not_interfere
  intro before call after split
  -- the connections that have called before are at most the first one
  have unheld : ∀ (calls : List Call) (d : Nat), d ≠ 0 → (∀ call ∈ calls, call.cnx = 0) →
      (sessionAfter (alone d calls)).find 4 = none := by
    intro calls d other single
    have nobody : alone d calls = [] := by
      apply List.filter_eq_nil_iff.mpr
      intro call mem
      simpa [single call mem] using Ne.symm other
    rw [nobody]
    exact Session.find_opened 4
  simp only [takingTurns] at split
  rcases before with _ | ⟨first, _ | ⟨second, _ | ⟨third, before⟩⟩⟩
  · obtain ⟨rfl, -⟩ := List.cons.inj split
    exact ⟨fun _ d other => unheld [] d other (by simp), fun _ _ full => by cases full⟩
  · simp only [List.cons_append, List.nil_append, List.cons.injEq] at split
    obtain ⟨rfl, rfl, -⟩ := split
    refine ⟨fun _ d other => unheld _ d other ?_, fun makes => by cases makes⟩
    intro call mem
    rw [List.mem_singleton.mp mem]
  · simp only [List.cons_append, List.nil_append, List.cons.injEq] at split
    obtain ⟨rfl, rfl, rfl, -⟩ := split
    refine ⟨fun _ d other => ?_, fun _ _ full => by cases full⟩
    by_cases first : d = 0
    · rw [first]
      rfl
    · apply unheld _ d first
      intro call mem
      rcases List.mem_cons.mp mem with rfl | mem
      · rfl
      · rw [List.mem_singleton.mp mem]
  · simp at split

/-- One client types `cyc`, another sends `le 64` on a stream of the same id, and the ward runs
64 cycles that nobody asked for. -/
theorem shared_stream_id_joins_commands :
    ¬ ∀ (calls : List Call) (c : Nat), seenBy c (outcomesOf calls) = outcomesOf (alone c calls) := by
  intro claim
  have mixed := claim
    [{ cnx := 0, streamId := 4, event := .postData (text "cyc") },
      { cnx := 1, streamId := 4, event := .postFin (text "le 64") }] 1
  have ran : (commandsRun (seenBy 1 (outcomesOf
      [{ cnx := 0, streamId := 4, event := .postData (text "cyc") },
        { cnx := 1, streamId := 4, event := .postFin (text "le 64") }]))).map commandOf =
      [.cycle (some 64)] := by
    decide +kernel
  rw [mixed] at ran
  revert ran
  decide +kernel

end GyreWard
