/-
Module: GyreWard.Proofs.LongCommand
Purpose: What becomes of a command sent on one stream in chunks, whatever other streams do.
Trusted boundary: none
Main exports: stripped, storeBytes_eq, stream_runs, command_run_of_stream,
  long_command_run_whole_iff
-/
import GyreWard.Proofs.Seats
import Mathlib.Data.List.TakeWhile

namespace GyreWard

open Lib

/-- A command with every CR and LF removed. -/
def stripped (bytes : Text) : Text := bytes.filter fun c => !isLineEnd c

/-- The calls on a stream. -/
def onStream (id : UInt64) (calls : List Call) : List Call := calls.filter (·.streamId == id)

/-- The outcomes on a stream. -/
def outcomesOn (id : UInt64) (outcomes : List Outcome) : List Outcome :=
  outcomes.filter (·.streamId == id)

/-- The accumulator keeps the first `WT_LINE_MAX` bytes that are not line ends. -/
theorem storeBytes_eq (bytes line : Text) (fits : line.length ≤ wtLineMax) :
    bytes.foldl storeByte line = (line ++ stripped bytes).take wtLineMax := by
  induction bytes generalizing line with
  | nil =>
      simp only [stripped, List.foldl_nil, List.filter_nil, List.append_nil]
      exact (List.take_of_length_le fits).symm
  | cons c rest ih =>
      rw [List.foldl_cons]
      by_cases skipped : isLineEnd c = true
      · have same : storeByte line c = line := by simp [storeByte, skipped]
        rw [same, ih line fits]
        simp [stripped, skipped]
      · have kept : stripped (c :: rest) = c :: stripped rest := by simp [stripped, skipped]
        rw [kept]
        by_cases room : line.length < wtLineMax
        · have grown : storeByte line c = line ++ [c] := by simp [storeByte, skipped, room]
          have fits' : (line ++ [c]).length ≤ wtLineMax := by
            simpa using Nat.succ_le_of_lt room
          rw [grown, ih _ fits', List.append_assoc]
          rfl
        · have same : storeByte line c = line := by simp [storeByte, skipped, room]
          have exact_length : line.length = wtLineMax := by omega
          rw [same, ih line fits, ← exact_length]
          simp

theorem stripped_append (a b : Text) : stripped (a ++ b) = stripped a ++ stripped b :=
  List.filter_append ..

/-- A seat that has stored `bytes` of a command, and has not answered. -/
def holding (bytes : Text) : Seat :=
  { line := (stripped bytes).take wtLineMax, reply := none, replySent := 0 }

theorem store_holding (bytes chunk : Text) :
    (holding bytes).store chunk = holding (bytes ++ chunk) := by
  have fits : ((stripped bytes).take wtLineMax).length ≤ wtLineMax := List.length_take_le ..
  unfold Seat.store holding
  congr 1
  change chunk.foldl storeByte ((stripped bytes).take wtLineMax) = _
  rw [storeBytes_eq _ _ fits, stripped_append, List.take_append, List.take_append,
    List.take_take, Nat.min_self, List.length_take]
  congr 2
  omega

theorem empty_holding : Seat.empty = holding [] := rfl

/-! ### Other streams -/

/-- A call on another stream neither touches a stream's seat nor shows anything on it. -/
theorem other_stream {c : Call} {w : Session} {id : UInt64} (sound : w.Sound)
    (other : c.streamId ≠ id) :
    (wtSessionCallback c w).1.find id = w.find id ∧
      outcomesOn id (wtSessionCallback c w).2 = [] := by
  constructor
  · rw [find_wtSessionCallback c sound, if_neg (Ne.symm other)]
  · rw [wtSessionCallback_outcomes c sound]
    apply List.filter_eq_nil_iff.mpr
    intro o shown
    have same := (onSeat_outcome_of shown).2
    simpa [same] using other

/-- A run without calls on a stream shows nothing on it. -/
theorem run_quiet {id : UInt64} {calls : List Call} {w : Session} (sound : w.Sound)
    (absent : onStream id calls = []) : outcomesOn id (runCalls calls w).2 = [] := by
  induction calls generalizing w with
  | nil => rfl
  | cons c rest ih =>
      have parts : c.streamId ≠ id ∧ onStream id rest = [] := by
        simpa [onStream] using absent
      have now := (other_stream sound parts.1).2
      have later := ih (wtSessionCallback_sound c sound) parts.2
      calc
        outcomesOn id (runCalls (c :: rest) w).2 =
            outcomesOn id (wtSessionCallback c w).2 ++
              outcomesOn id (runCalls rest (wtSessionCallback c w).1).2 := by
          simp [runCalls, outcomesOn]
        _ = [] := by rw [now, later]; rfl

/-! ### The stream's own calls -/

/-- The next chunk of a stream is stored behind `bytes`: its seat holds them, or there are none
yet and a seat is free. -/
def Stores (w : Session) (id : UInt64) (bytes : Text) : Prop :=
  ∀ chunk, seatFor w.full chunk (w.find id) = some (holding (bytes ++ chunk))

theorem stores_of_free {w : Session} {id : UInt64} (unheld : w.find id = none)
    (room : w.full = false) : Stores w id [] := by
  intro chunk
  simp [unheld, room, seatFor, empty_holding, store_holding]

theorem stores_of_held {w : Session} {id : UInt64} {bytes : Text}
    (held : w.find id = some (holding bytes)) : Stores w id bytes := by
  intro chunk
  simp [held, seatFor, store_holding]

/-- A stream's chunk goes into its seat, and nothing is shown. -/
theorem data_call {c : Call} {w : Session} {id : UInt64} {bytes chunk : Text} (sound : w.Sound)
    (mine : c.streamId = id) (stores : Stores w id bytes) (isData : c.event = .postData chunk) :
    (wtSessionCallback c w).1.find id = some (holding (bytes ++ chunk)) ∧
      (wtSessionCallback c w).2 = [] := by
  have step : c.onSeat w.full (w.find c.streamId) = (some (holding (bytes ++ chunk)), []) := by
    simp [Call.onSeat, isData, mine, stores chunk]
  constructor
  · rw [find_wtSessionCallback c sound, if_pos mine.symm, step]
  · rw [wtSessionCallback_outcomes c sound, step]

/-- A stream's FIN runs what its seat holds. -/
theorem fin_call {c : Call} {w : Session} {id : UInt64} {bytes last : Text} (sound : w.Sound)
    (mine : c.streamId = id) (stores : Stores w id bytes) (isFin : c.event = .postFin last) :
    (wtSessionCallback c w).2 = (c.finished (holding (bytes ++ last))).2 := by
  rw [wtSessionCallback_outcomes c sound]
  simp [Call.onSeat, isFin, mine, stores last]

/-- What a FIN shows: the command it asked, unless there is no memory for a reply. -/
theorem finished_outcomes (c : Call) (s : Seat) :
    (c.finished s).2 =
      if c.granted then
        [.asked c.cnx c.streamId (cString s.line) (c.answer (cString s.line))]
      else [] := by
  unfold Call.finished
  cases c.granted with
  | false => rfl
  | true =>
      by_cases silent : (c.answer (cString s.line)).length = 0
      · simp only [silent, Bool.not_true, Bool.false_eq_true, ↓reduceIte]
      · simp only [silent, Bool.not_true, Bool.false_eq_true, ↓reduceIte]

/-- The command a FIN runs on what a seat holds. -/
theorem commandsRun_finished (c : Call) (bytes : Text) :
    commandsRun (outcomesOn c.streamId (c.finished (holding bytes)).2) =
      if c.granted then [ownedLine (cString ((stripped bytes).take wtLineMax))] else [] := by
  rw [finished_outcomes]
  cases c.granted with
  | false => rfl
  | true => simp [outcomesOn, Outcome.streamId, commandsRun, holding]

/-- The command a stream runs, from the moment its next chunk has a seat: by induction on the
calls, those of other streams being passed over. -/
theorem stream_runs {id : UInt64} {calls data : List Call} {fin : Call} {w : Session}
    {chunks : List (List UInt8)} {bytes last : Text} (sound : w.Sound)
    (held : w.find id = some (holding bytes)) (own : onStream id calls = data ++ [fin])
    (isData : data.map (·.event) = chunks.map .postData) (isFin : fin.event = .postFin last) :
    outcomesOn id (runCalls calls w).2 =
      outcomesOn id (fin.finished (holding (bytes ++ chunks.flatten ++ last))).2 := by
  induction calls generalizing w data chunks bytes with
  | nil => simp [onStream] at own
  | cons c rest ih =>
      have soundNext := wtSessionCallback_sound c sound
      have unfolded : outcomesOn id (runCalls (c :: rest) w).2 =
          outcomesOn id (wtSessionCallback c w).2 ++
            outcomesOn id (runCalls rest (wtSessionCallback c w).1).2 := by
        simp [runCalls, outcomesOn]
      by_cases mine : c.streamId = id
      · have own' : c :: onStream id rest = data ++ [fin] := by simpa [onStream, mine] using own
        cases data with
        | nil =>
            obtain ⟨rfl, nothing⟩ : c = fin ∧ onStream id rest = [] := by simpa using own'
            have none_sent : chunks = [] := by simpa using isData.symm
            have now := fin_call sound mine (stores_of_held held) isFin
            rw [unfolded, now, run_quiet soundNext nothing, none_sent]
            simp
        | cons d data =>
            obtain ⟨rfl, own''⟩ : c = d ∧ onStream id rest = data ++ [fin] := by simpa using own'
            cases chunks with
            | nil => simp at isData
            | cons chunk chunks =>
                obtain ⟨isChunk, isData'⟩ : c.event = .postData chunk ∧
                    data.map (·.event) = chunks.map .postData := by
                  simpa using isData
                obtain ⟨next, silent⟩ := data_call sound mine (stores_of_held held) isChunk
                rw [unfolded, silent, ih soundNext next own'' isData']
                simp [outcomesOn]
      · have own' : onStream id rest = data ++ [fin] := by simpa [onStream, mine] using own
        obtain ⟨same, nothing⟩ := other_stream sound mine
        rw [unfolded, nothing, ih soundNext (same.trans held) own' isData]
        rfl

/-- A command sent in chunks on a stream that finds a free seat runs as the first
`WARD_COMMAND_MAX - 1` bytes before any NUL of the first `WT_LINE_MAX` bytes of it. -/
theorem command_run_of_stream {id : UInt64} {calls data : List Call} {fin : Call} {w : Session}
    {chunks : List (List UInt8)} {last : Text} (sound : w.Sound)
    (unheld : w.find id = none) (room : w.full = false)
    (opens : calls.head?.map (·.streamId) = some id) (own : onStream id calls = data ++ [fin])
    (isData : data.map (·.event) = chunks.map .postData) (isFin : fin.event = .postFin last) :
    commandsRun (outcomesOn id (runCalls calls w).2) =
      if fin.granted then
        [ownedLine (cString ((stripped (chunks.flatten ++ last)).take wtLineMax))]
      else [] := by
  have finOnStream : fin.streamId = id := by
    have mem : fin ∈ onStream id calls := by simp [own]
    simpa [onStream] using (List.mem_filter.mp mem).2
  have stores := stores_of_free unheld room
  suffices shown : outcomesOn id (runCalls calls w).2 =
      outcomesOn id (fin.finished (holding (chunks.flatten ++ last))).2 by
    rw [shown, ← finOnStream, commandsRun_finished]
  cases calls with
  | nil => simp at opens
  | cons c rest =>
      have soundNext := wtSessionCallback_sound c sound
      have mine : c.streamId = id := by simpa using opens
      have own' : c :: onStream id rest = data ++ [fin] := by simpa [onStream, mine] using own
      have unfolded : outcomesOn id (runCalls (c :: rest) w).2 =
          outcomesOn id (wtSessionCallback c w).2 ++
            outcomesOn id (runCalls rest (wtSessionCallback c w).1).2 := by
        simp [runCalls, outcomesOn]
      cases data with
      | nil =>
          obtain ⟨rfl, nothing⟩ : c = fin ∧ onStream id rest = [] := by simpa using own'
          have none_sent : chunks = [] := by simpa using isData.symm
          rw [unfolded, fin_call sound mine stores isFin, run_quiet soundNext nothing, none_sent]
          simp
      | cons d data =>
          obtain ⟨rfl, own''⟩ : c = d ∧ onStream id rest = data ++ [fin] := by simpa using own'
          cases chunks with
          | nil => simp at isData
          | cons chunk chunks =>
              obtain ⟨isChunk, isData'⟩ : c.event = .postData chunk ∧
                  data.map (·.event) = chunks.map .postData := by
                simpa using isData
              obtain ⟨next, silent⟩ := data_call sound mine stores isChunk
              rw [unfolded, silent, stream_runs soundNext next own'' isData' isFin]
              simp [outcomesOn]

/-! ### Whole, or not at all -/

/-- The three limits together keep a command as it is when it is short and has no NUL in it. -/
theorem owned_command_eq_iff (s : Text) :
    ownedLine (cString (s.take wtLineMax)) = s ↔ s.length < wardCommandMax ∧ 0 ∉ s := by
  unfold ownedLine fitted cString
  constructor
  · intro same
    have short : s.length ≤ wardCommandMax - 1 := by
      rw [← same]
      exact List.length_take_le ..
    have clean : ∀ c ∈ s, c ≠ 0 := by
      intro c mem
      rw [← same] at mem
      simpa using List.mem_takeWhile_imp (List.mem_of_mem_take mem)
    constructor
    · have : wardCommandMax = 512 := rfl
      omega
    · intro mem
      exact clean 0 mem rfl
  · rintro ⟨short, clean⟩
    have fits : s.length ≤ wtLineMax := Nat.le_of_lt short
    have whole : s.takeWhile (· ≠ 0) = s := by
      apply List.takeWhile_eq_self_iff.mpr
      intro c mem
      simpa using fun zero : c = 0 => clean (zero ▸ mem)
    rw [List.take_of_length_le fits, whole]
    exact List.take_of_length_le (Nat.le_sub_one_of_lt short)

/-- For every run that led here, every other stream's calls in between and every chunking: a
command sent on a stream that finds a free seat is run whole or not at all exactly when there is
no memory for a reply, or it is shorter than `WARD_COMMAND_MAX` and has no NUL in it. -/
theorem long_command_run_whole_iff (earlier calls data : List Call) (fin : Call) (id : UInt64)
    (chunks : List (List UInt8)) (last : Text)
    (unheld : (runCalls earlier Session.opened).1.find id = none)
    (room : (runCalls earlier Session.opened).1.full = false)
    (opens : calls.head?.map (·.streamId) = some id) (own : onStream id calls = data ++ [fin])
    (isData : data.map (·.event) = chunks.map .postData) (isFin : fin.event = .postFin last) :
    let ran := commandsRun (outcomesOn id (runCalls calls (runCalls earlier Session.opened).1).2)
    let whole := stripped (chunks.flatten ++ last)
    (ran = [whole] ∨ ran = []) ↔
      (fin.granted = false ∨ whole.length < wardCommandMax ∧ 0 ∉ whole) := by
  intro ran whole
  have sound := runCalls_sound earlier Session.opened_sound
  have run : ran = _ := command_run_of_stream sound unheld room opens own isData isFin
  rw [run]
  cases fin.granted with
  | false => simp
  | true =>
      have kept := owned_command_eq_iff whole
      simp only [↓reduceIte, List.cons.injEq, and_true, List.cons_ne_nil, or_false,
        Bool.true_eq_false, false_or]
      exact kept

/-- `cycle 12` in two chunks, with the line end a terminal adds. -/
theorem short_command_run_whole :
    commandsRun (outcomesOn 4 (runCalls
        [{ cnx := 0, streamId := 4, event := .postData (text "cycle ") },
          { cnx := 0, streamId := 4, event := .postFin (text "12" ++ [lineFeed]) }]
        Session.opened).2) = [text "cycle 12"] ∨
      commandsRun (outcomesOn 4 (runCalls
        [{ cnx := 0, streamId := 4, event := .postData (text "cycle ") },
          { cnx := 0, streamId := 4, event := .postFin (text "12" ++ [lineFeed]) }]
        Session.opened).2) = [] :=
  (long_command_run_whole_iff []
    [{ cnx := 0, streamId := 4, event := .postData (text "cycle ") },
      { cnx := 0, streamId := 4, event := .postFin (text "12" ++ [lineFeed]) }]
    [{ cnx := 0, streamId := 4, event := .postData (text "cycle ") }]
    { cnx := 0, streamId := 4, event := .postFin (text "12" ++ [lineFeed]) } 4
    [text "cycle "] (text "12" ++ [lineFeed]) rfl rfl rfl rfl rfl rfl).mpr
    (Or.inr (by decide))

/-- `commission 50`, padded with zeros to the size of the buffer. -/
def paddedCommission : Text := text "commission " ++ List.replicate 499 48 ++ text "50"

/-- A command of 512 bytes loses its last digit, and what runs commissions another venue. -/
theorem padded_commission_runs_another :
    ¬ (commandsRun (outcomesOn 4 (runCalls
          [{ cnx := 0, streamId := 4, event := .postFin paddedCommission }]
          Session.opened).2) = [stripped paddedCommission] ∨
        commandsRun (outcomesOn 4 (runCalls
          [{ cnx := 0, streamId := 4, event := .postFin paddedCommission }]
          Session.opened).2) = []) ∧
      (commandsRun (outcomesOn 4 (runCalls
          [{ cnx := 0, streamId := 4, event := .postFin paddedCommission }]
          Session.opened).2)).map commandOf = [.commission (some 5)] ∧
      commandOf (stripped paddedCommission) = .commission (some 50) := by
  decide +kernel

end GyreWard
