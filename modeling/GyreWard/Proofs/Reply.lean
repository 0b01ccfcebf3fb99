/-
Module: GyreWard.Proofs.Reply
Purpose: Every reply that fits decodes to the values the server passed to its encoder.
Trusted boundary: none
Main exports: Reply, gatherReply, Reply.bytes, Reply.js, wardReply_eq, Reply.encodes,
  reply_decodes_to_what_was_written
-/
import GyreWard.Model.Interactor
import GyreWard.Proofs.CborItems
import GyreWard.Proofs.Quiet

namespace GyreWard

open Lib

/-! ### The values of a reply -/

/-- A Spark with what the two queries on its database returned. -/
structure SparkSeen where
  spark : Spark
  wire : Int
  owner : Int

/-- What `ward_command` and `say_ward` pass to the encoder.  A table is `none` when its statement
could not be prepared. -/
structure Reply where
  answer : Answer
  honest : Bool
  ward : Gyre
  venues : Option (List VenueRow)
  board : Option (List BoardRow)
  nsparks : Nat
  sparks : List SparkSeen

/-- The rows `say_rows` finds. -/
def gatherRows {ρ : Type} (rows : WardTables → List ρ) : Action World (Option (List ρ)) := do
  let prepared ← Action.attempt fallible
  let g ← Action.read (·.g)
  if prepared.isNone ∨ ¬ g.ward.isOpen ∨ ¬ g.ward.now.created then return none
  return some (rows g.ward.now)

/-- The Sparks `say_sparks` finds, from place `i` of the array. -/
def gatherSparks : List Spark → Nat → Action World (List SparkSeen)
  | [], _ => pure []
  | s :: rest, i => do
      let wire ← scalarSpark i (selectSpark fun r => Int.ofNat r.wire)
      let owner ← scalarSpark i (selectSpark fun r => Int.ofNat r.owner)
      let later ← gatherSparks rest (i + 1)
      return { spark := s, wire, owner } :: later

/-- The queries of a reply, without the writing between them. -/
def gatherReply (a : Answer) : Action World Reply := do
  let honest ← replyHonest
  let ward ← Action.read (·.g)
  let venues ← gatherRows (·.venue)
  let board ← gatherRows (·.board)
  let g ← Action.read (·.g)
  let sparks ← gatherSparks g.sparks 0
  return { answer := a, honest, ward, venues, board, nsparks := g.sparks.length, sparks }

/-! ### The queries and the writing, apart -/

def writeRows (key : Text) (ncols : Nat) (cols : List Text) (rows : Option (List (List SqlValue)))
    (c : Cbor) : Cbor :=
  match rows with
  | none => weftCborArray 0 (weftCborText key c)
  | some rows =>
      weftCborBreak (rows.foldl (sayRow ncols cols) (weftCborRaw 0x9f (weftCborText key c)))

def SparkSeen.write (c : Cbor) (s : SparkSeen) : Cbor := saySpark s.spark s.wire s.owner c

def Reply.write (r : Reply) (c : Cbor) : Cbor :=
  r.sparks.foldl SparkSeen.write <|
  weftCborArray r.nsparks <|
  weftCborText (text "sparks") <|
  writeRows (text "board") 11 boardColumns (r.board.map (·.map BoardRow.columns)) <|
  writeRows (text "venues") 9 venueColumns (r.venues.map (·.map VenueRow.columns)) <|
  sayScalars r.ward <|
  sayAnswer r.answer r.honest c

theorem sayRows_eq {ρ : Type} (key : Text) (rows : WardTables → List ρ)
    (columns : ρ → List SqlValue) (ncols : Nat) (cols : List Text) (c : Cbor) :
    sayRows key (fun t => (rows t).map columns) ncols cols c =
      gatherRows rows >>= fun found => pure (writeRows key ncols cols (found.map (·.map columns)) c) := by
  unfold sayRows gatherRows
  simp only [bind_assoc]
  congr 1
  funext prepared
  congr 1
  funext g
  by_cases missing : prepared.isNone ∨ ¬ g.ward.isOpen ∨ ¬ g.ward.now.created
  · rw [if_pos missing, if_pos missing]
    rfl
  · rw [if_neg missing, if_neg missing]
    rfl

theorem saySparkLoop_eq (sparks : List Spark) (i : Nat) (c : Cbor) :
    saySparkLoop sparks i c =
      gatherSparks sparks i >>= fun seen => pure (seen.foldl SparkSeen.write c) := by
  induction sparks generalizing i c with
  | nil => rfl
  | cons s rest ih =>
      unfold saySparkLoop gatherSparks
      simp only [bind_assoc, ih, pure_bind]
      rfl

theorem asks_gatherRows {ρ : Type} (rows : WardTables → List ρ) : Asks (gatherRows rows) :=
  asks_fallible.attempt.bind fun _ => (asks_read _).bind fun _ => Asks.ite (asks_pure _) (asks_pure _)

theorem asks_gatherSparks : ∀ (sparks : List Spark) (i : Nat), Asks (gatherSparks sparks i)
  | [], _ => asks_pure _
  | _ :: rest, i =>
      (asks_scalarOr _ _).bind fun _ => (asks_scalarOr _ _).bind fun _ =>
        (asks_gatherSparks rest (i + 1)).bind fun _ => asks_pure _

theorem asks_replyHonest : Asks replyHonest :=
  (asks_read _).bind fun _ => Asks.ite asks_honest (asks_pure _)

/-- The Sparks gathered are those of the array, in its order. -/
theorem gatherSparks_sparks {sparks : List Spark} {i : Nat} {w w' : World} {seen : List SparkSeen}
    (run : gatherSparks sparks i w = (.ret seen, w')) : seen.map (·.spark) = sparks := by
  induction sparks generalizing i w w' seen with
  | nil =>
      obtain ⟨rfl, -⟩ := Action.pure_eq_ret run
      rfl
  | cons s rest ih =>
      unfold gatherSparks at run
      obtain ⟨wire, w₁, -, run⟩ := Action.bind_eq_ret run
      obtain ⟨owner, w₂, -, run⟩ := Action.bind_eq_ret run
      obtain ⟨later, w₃, gathered, run⟩ := Action.bind_eq_ret run
      obtain ⟨rfl, -⟩ := Action.pure_eq_ret run
      simp [ih gathered]

/-- Asking and writing in turns is asking first and writing afterwards. -/
theorem wardReply_eq (a : Answer) (c : Cbor) :
    wardReply a c = gatherReply a >>= fun r => pure (r.write c) := by
  unfold wardReply sayWard saySparks gatherReply
  simp only [sayRows_eq, saySparkLoop_eq, bind_assoc, pure_bind]
  rfl

/-- Writing a reply only asks. -/
theorem asks_wardReply (a : Answer) (c : Cbor) : Asks (wardReply a c) := by
  rw [wardReply_eq]
  refine Asks.bind ?_ fun r => asks_pure _
  refine asks_replyHonest.bind fun h => (asks_read _).bind fun ward => ?_
  refine (asks_gatherRows _).bind fun venues => (asks_gatherRows _).bind fun board => ?_
  exact (asks_read _).bind fun g => (asks_gatherSparks _ _).bind fun sparks => asks_pure _

/-- What the values of a reply are: the answer, and the ward as it stands. -/
structure Reply.Of (r : Reply) (a : Answer) (w : World) : Prop where
  answer : r.answer = a
  ward : r.ward = w.g
  venues : r.venues = none ∨ r.venues = some w.g.ward.now.venue
  board : r.board = none ∨ r.board = some w.g.ward.now.board
  nsparks : r.nsparks = w.g.sparks.length
  sparks : r.sparks.map (·.spark) = w.g.sparks

theorem gatherRows_rows {ρ : Type} {rows : WardTables → List ρ} {w w' : World}
    {found : Option (List ρ)} (run : gatherRows rows w = (.ret found, w')) :
    (found = none ∨ found = some (rows w.g.ward.now)) ∧ w'.g = w.g := by
  refine ⟨?_, (asks_gatherRows rows).same_g run⟩
  unfold gatherRows at run
  obtain ⟨prepared, w₁, attempted, run⟩ := Action.bind_eq_ret run
  have steady := asks_fallible.attempt.same_g attempted
  obtain ⟨g, w₂, looked, run⟩ := Action.bind_eq_ret run
  obtain ⟨rfl, rfl⟩ : w₁.g = g ∧ w₁ = w₂ := by simpa using looked
  split at run
  · exact Or.inl (Action.pure_eq_ret run).1.symm
  · refine Or.inr ?_
    rw [← (Action.pure_eq_ret run).1, steady]

theorem gatherReply_of {a : Answer} {w w' : World} {r : Reply}
    (run : gatherReply a w = (.ret r, w')) : r.Of a w := by
  unfold gatherReply at run
  obtain ⟨honest, w₁, asked, run⟩ := Action.bind_eq_ret run
  have steady := asks_replyHonest.same_g asked
  obtain ⟨ward, w₂, looked, run⟩ := Action.bind_eq_ret run
  obtain ⟨rfl, rfl⟩ : w₁.g = ward ∧ w₁ = w₂ := by simpa using looked
  obtain ⟨venues, w₃, rows, run⟩ := Action.bind_eq_ret run
  obtain ⟨venueRows, same₃⟩ := gatherRows_rows rows
  obtain ⟨board, w₄, contracts, run⟩ := Action.bind_eq_ret run
  obtain ⟨boardRows, same₄⟩ := gatherRows_rows contracts
  obtain ⟨g, w₅, looked, run⟩ := Action.bind_eq_ret run
  obtain ⟨rfl, rfl⟩ : w₄.g = g ∧ w₄ = w₅ := by simpa using looked
  obtain ⟨sparks, w₆, gathered, run⟩ := Action.bind_eq_ret run
  obtain ⟨rfl, -⟩ := Action.pure_eq_ret run
  rw [same₃, steady] at boardRows
  rw [steady] at venueRows
  have steady₄ : w₄.g = w.g := same₄.trans (same₃.trans steady)
  exact
    { answer := rfl
      ward := steady
      venues := venueRows
      board := boardRows
      nsparks := by rw [← steady₄]
      sparks := by rw [gatherSparks_sparks gathered, steady₄] }

/-! ### The bytes of a reply, and the object they stand for -/

/-- An integer passed to the encoder, as the client sees it. -/
def jsInt (v : Int) : Js := narrow (toInt64 v)

/-- A C string passed to the encoder, as the client sees it. -/
def jsOf (s : Text) : Js := .string (jsString (cString s))

def SqlValue.bytes : SqlValue → List UInt8
  | .text s => textBytes (cString s)
  | .null => [0xf6]
  | .int v => intBytes v

def SqlValue.js : SqlValue → Js
  | .text s => jsOf s
  | .null => .null
  | .int v => jsInt v

/-- A venue, as the client sees it. -/
def VenueRow.js (v : VenueRow) : Js :=
  .object
    [(jsText "id", jsInt v.id), (jsText "name", jsOf v.name), (jsText "cost", jsInt v.cost),
      (jsText "built", jsInt v.built), (jsText "x", jsInt v.place.x), (jsText "y", jsInt v.place.y),
      (jsText "z", jsInt v.place.z), (jsText "wire", jsInt v.wire), (jsText "owner", jsInt v.owner)]

/-- What may be `NULL`, as the client sees it. -/
def jsOption {α : Type} (f : α → Js) : Option α → Js
  | some a => f a
  | none => .null

/-- A contract, as the client sees it. -/
def BoardRow.js (r : BoardRow) : Js :=
  .object
    [(jsText "id", jsInt r.id), (jsText "kind", jsOf r.kind), (jsText "payout", jsInt r.payout),
      (jsText "risk", jsInt r.risk), (jsText "taken", jsInt r.taken),
      (jsText "outcome", jsOption jsOf r.outcome), (jsText "x", jsInt r.place.x),
      (jsText "y", jsInt r.place.y), (jsText "z", jsInt r.place.z),
      (jsText "wire", jsOption (fun n => jsInt (Int.ofNat n)) r.wire),
      (jsText "owner", jsOption (fun n => jsInt (Int.ofNat n)) r.owner)]

/-- A Spark, as the client sees it. -/
def SparkSeen.js (s : SparkSeen) : Js :=
  .object
    [(jsText "id", jsInt s.spark.id), (jsText "purse", jsInt s.spark.purse),
      (jsText "wear", jsInt s.spark.wear), (jsText "x", jsInt s.spark.place.x),
      (jsText "y", jsInt s.spark.place.y), (jsText "z", jsInt s.spark.place.z),
      (jsText "wire", jsInt s.wire), (jsText "owner", jsInt s.owner)]

/-- The ward's scalars, as the client sees them. -/
def wardJs (g : Gyre) : Js :=
  .object
    [(jsText "cycle", jsInt g.cycle), (jsText "treasury", jsInt g.treasury),
      (jsText "debt", jsInt g.debt), (jsText "issued", jsInt g.issued),
      (jsText "retired", jsInt g.retired), (jsText "spent", jsInt g.spent),
      (jsText "sparks", jsInt g.nsparks), (jsText "room", jsInt (wardRoom g))]

/-- A reply, as the client sees it. -/
def Reply.js (r : Reply) : Js :=
  .object
    [(jsText "ok", .bool r.answer.ok), (jsText "say", jsOf r.answer.say),
      (jsText "honest", .bool r.honest), (jsText "ward", wardJs r.ward),
      (jsText "venues", .array ((r.venues.getD []).map VenueRow.js)),
      (jsText "board", .array ((r.board.getD []).map BoardRow.js)),
      (jsText "sparks", .array (r.sparks.map SparkSeen.js))]

/-- An integer under a key. -/
def intField (k : Text) (v : Int) : Field := { key := k, bytes := intBytes v, value := jsInt v }

/-- The columns of a row under their names. -/
def rowFields (cols : List Text) (row : List SqlValue) : List Field :=
  List.zipWith (fun k (v : SqlValue) => { key := k, bytes := v.bytes, value := v.js }) cols row

def rowBytes (cols : List Text) (row : List SqlValue) : List UInt8 :=
  headBytes 5 (rowFields cols row).length ++ fieldsBytes (rowFields cols row)

def rowsBytes (cols : List Text) : Option (List (List SqlValue)) → List UInt8
  | none => headBytes 4 0
  | some rows => 0x9f :: (rows.flatMap (rowBytes cols) ++ [0xff])

/-- The integers of a Spark under their names. -/
def SparkSeen.columns (s : SparkSeen) : List (Text × Int) :=
  [(text "id", s.spark.id), (text "purse", s.spark.purse), (text "wear", s.spark.wear),
    (text "x", s.spark.place.x), (text "y", s.spark.place.y), (text "z", s.spark.place.z),
    (text "wire", s.wire), (text "owner", s.owner)]

/-- The integers of a ward under their names. -/
def wardColumns (g : Gyre) : List (Text × Int) :=
  [(text "cycle", g.cycle), (text "treasury", g.treasury), (text "debt", g.debt),
    (text "issued", g.issued), (text "retired", g.retired), (text "spent", g.spent),
    (text "sparks", g.nsparks), (text "room", wardRoom g)]

/-- A map of integers. -/
def intsBytes (columns : List (Text × Int)) : List UInt8 :=
  headBytes 5 columns.length ++ fieldsBytes (columns.map fun p => intField p.1 p.2)

def SparkSeen.bytes (s : SparkSeen) : List UInt8 := intsBytes s.columns

def Reply.fields (r : Reply) : List Field :=
  [{ key := text "ok", bytes := [if r.answer.ok then 0xf5 else 0xf4], value := .bool r.answer.ok },
    { key := text "say", bytes := textBytes (cString r.answer.say), value := jsOf r.answer.say },
    { key := text "honest", bytes := [if r.honest then 0xf5 else 0xf4], value := .bool r.honest },
    { key := text "ward", bytes := intsBytes (wardColumns r.ward)
      value := wardJs r.ward },
    { key := text "venues"
      bytes := rowsBytes venueColumns (r.venues.map (·.map VenueRow.columns))
      value := .array ((r.venues.getD []).map VenueRow.js) },
    { key := text "board"
      bytes := rowsBytes boardColumns (r.board.map (·.map BoardRow.columns))
      value := .array ((r.board.getD []).map BoardRow.js) },
    { key := text "sparks", bytes := headBytes 4 r.nsparks ++ r.sparks.flatMap SparkSeen.bytes
      value := .array (r.sparks.map SparkSeen.js) }]

/-- The bytes of a reply: a map of seven. -/
def Reply.bytes (r : Reply) : List UInt8 := headBytes 5 7 ++ fieldsBytes r.fields

/-! ### The writing -/

/-- A key, as `weft_cbor_text` writes it. -/
theorem writes_key {k : Text} (clean : cString k = k) : Writes (weftCborText k) (textBytes k) := by
  have written := writes_text k
  rw [clean] at written
  exact written

theorem writes_kvInt {k : Text} (clean : cString k = k) (v : Int) :
    Writes (weftCborKvInt k v) (fieldsBytes [intField k v]) := by
  have written := (writes_key clean).comp (writes_int v)
  have bytes : fieldsBytes [intField k v] = textBytes k ++ intBytes v := by
    simp [fieldsBytes, intField]
  rw [bytes]
  exact written

/-- A run of integers under their keys. -/
theorem writes_kvInts (pairs : List (Text × Int))
    (clean : ∀ k ∈ pairs.map (·.1), cString k = k) :
    Writes (fun c => pairs.foldl (fun c p => weftCborKvInt p.1 p.2 c) c)
      (fieldsBytes (pairs.map fun p => intField p.1 p.2)) := by
  induction pairs with
  | nil => exact writes_nothing
  | cons p rest ih =>
      have here := writes_kvInt (clean p.1 (List.mem_cons_self ..)) p.2
      have later := ih fun k mem => clean k (List.mem_cons_of_mem _ mem)
      simpa [fieldsBytes] using here.comp later

theorem writes_column (v : SqlValue) : Writes (sayColumn v) v.bytes := by
  cases v with
  | text s => exact writes_text s
  | null => exact writes_raw 0xf6
  | int v => exact writes_int v

theorem writes_columns : ∀ (cols : List Text) (row : List SqlValue),
    (∀ k ∈ cols, cString k = k) →
      Writes (fun c => (cols.zip row).foldl (fun c p => sayColumn p.2 (weftCborText p.1 c)) c)
        (fieldsBytes (rowFields cols row))
  | [], _, _ => writes_nothing
  | _ :: _, [], _ => writes_nothing
  | k :: cols, v :: row, clean => by
      have here := (writes_key (clean k (List.mem_cons_self ..))).comp (writes_column v)
      have later := writes_columns cols row fun k mem => clean k (List.mem_cons_of_mem _ mem)
      simpa [fieldsBytes, rowFields] using here.comp later

/-- A row has as many columns as its map was announced with. -/
theorem writes_row {cols : List Text} {row : List SqlValue} (clean : ∀ k ∈ cols, cString k = k)
    (size : row.length = cols.length) :
    Writes (fun c => sayRow cols.length cols c row) (rowBytes cols row) := by
  have length : (rowFields cols row).length = cols.length := by
    simp [rowFields, size]
  have all : (cols.zip row).take cols.length = cols.zip row := by
    apply List.take_of_length_le
    simp [size]
  have written := (writes_head 5 cols.length).comp (writes_columns cols row clean)
  rw [rowBytes, length]
  unfold sayRow
  rw [all]
  exact written

theorem writes_rows {key : Text} {cols : List Text} {rows : Option (List (List SqlValue))}
    (cleanKey : cString key = key) (clean : ∀ k ∈ cols, cString k = k)
    (sizes : ∀ list, rows = some list → ∀ row ∈ list, row.length = cols.length) :
    Writes (writeRows key cols.length cols rows) (textBytes key ++ rowsBytes cols rows) := by
  cases rows with
  | none => exact (writes_key cleanKey).comp (writes_head 4 0)
  | some list =>
      have each : Writes (fun c => list.foldl (sayRow cols.length cols) c)
          (list.flatMap (rowBytes cols)) := by
        have sized := sizes list rfl
        clear sizes
        induction list with
        | nil => exact writes_nothing
        | cons row rest ih =>
            have here := writes_row clean (sized row (List.mem_cons_self ..))
            have later := ih fun r mem => sized r (List.mem_cons_of_mem _ mem)
            exact here.comp later
      have written := (((writes_key cleanKey).comp (writes_raw 0x9f)).comp each).comp (writes_raw 0xff)
      have bytes : textBytes key ++ rowsBytes cols (some list) =
          textBytes key ++ [0x9f] ++ list.flatMap (rowBytes cols) ++ [0xff] := by
        simp [rowsBytes]
      rw [bytes]
      exact written

theorem writes_spark (s : SparkSeen) : Writes (fun c => SparkSeen.write c s) s.bytes := by
  have clean : ∀ k ∈ [text "id", text "purse", text "wear", text "x", text "y", text "z",
      text "wire", text "owner"], cString k = k := by
    decide
  have fields := writes_kvInts s.columns clean
  have written := (writes_head 5 8).comp fields
  unfold SparkSeen.bytes intsBytes SparkSeen.write saySpark weftCborMap
  unfold SparkSeen.columns at written ⊢
  simp only [List.foldl_cons, List.foldl_nil, List.length_cons, List.length_nil] at written ⊢
  exact written

theorem writes_scalars (g : Gyre) :
    Writes (sayScalars g)
      (textBytes (text "ward") ++ intsBytes (wardColumns g)) := by
  have clean : ∀ k ∈ [text "cycle", text "treasury", text "debt", text "issued", text "retired",
      text "spent", text "sparks", text "room"], cString k = k := by
    decide
  have fields := writes_kvInts (wardColumns g) clean
  have head : Writes (fun c => weftCborMap 8 (weftCborText (text "ward") c))
      (textBytes (text "ward") ++ headBytes 5 8) :=
    (writes_key (by decide)).comp (writes_head 5 8)
  have written := head.comp fields
  unfold sayScalars intsBytes
  unfold wardColumns at written ⊢
  simp only [List.foldl_cons, List.foldl_nil, List.length_cons, List.length_nil,
    List.append_assoc] at written ⊢
  exact written

theorem writes_answer (a : Answer) (honest : Bool) :
    Writes (sayAnswer a honest)
      (headBytes 5 7 ++ ((textBytes (text "ok") ++ [if a.ok then 0xf5 else 0xf4]) ++
        ((textBytes (text "say") ++ textBytes (cString a.say)) ++
          (textBytes (text "honest") ++ [if honest then 0xf5 else 0xf4])))) := by
  have ok := (writes_key (by decide : cString (text "ok") = text "ok")).comp
    (writes_raw (if a.ok then 0xf5 else 0xf4))
  have say := (writes_key (by decide : cString (text "say") = text "say")).comp
    (writes_text a.say)
  have truth := (writes_key (by decide : cString (text "honest") = text "honest")).comp
    (writes_raw (if honest then 0xf5 else 0xf4))
  have written := (writes_head 5 7).comp (ok.comp (say.comp truth))
  unfold sayAnswer weftCborBool weftCborMap
  exact written

theorem clean_venueColumns : ∀ k ∈ venueColumns, cString k = k := by decide

theorem clean_boardColumns : ∀ k ∈ boardColumns, cString k = k := by decide

theorem writes_venues (venues : Option (List VenueRow)) :
    Writes (writeRows (text "venues") 9 venueColumns (venues.map (·.map VenueRow.columns)))
      (textBytes (text "venues") ++
        rowsBytes venueColumns (venues.map (·.map VenueRow.columns))) := by
  apply writes_rows (by decide) clean_venueColumns
  intro list found row mem
  obtain ⟨rows, rfl, rfl⟩ := Option.map_eq_some_iff.mp found
  obtain ⟨venue, -, rfl⟩ := List.mem_map.mp mem
  rfl

theorem writes_board (board : Option (List BoardRow)) :
    Writes (writeRows (text "board") 11 boardColumns (board.map (·.map BoardRow.columns)))
      (textBytes (text "board") ++
        rowsBytes boardColumns (board.map (·.map BoardRow.columns))) := by
  apply writes_rows (by decide) clean_boardColumns
  intro list found row mem
  obtain ⟨rows, rfl, rfl⟩ := Option.map_eq_some_iff.mp found
  obtain ⟨contract, -, rfl⟩ := List.mem_map.mp mem
  rfl

/-- A reply is written as its bytes. -/
theorem writes_reply (r : Reply) : Writes r.write r.bytes := by
  have sparks := ((writes_key (by decide : cString (text "sparks") = text "sparks")).comp
    (writes_head 4 r.nsparks)).comp (writes_foldl writes_spark r.sparks)
  have written := (writes_answer r.answer r.honest).comp <| (writes_scalars r.ward).comp <|
    (writes_venues r.venues).comp <| (writes_board r.board).comp sparks
  unfold Reply.bytes Reply.fields fieldsBytes
  simp only [List.flatMap_cons, List.flatMap_nil, List.append_nil, List.append_assoc] at written ⊢
  unfold Reply.write weftCborArray
  exact written

/-! ### The reading -/

theorem SqlValue.encodes {v : SqlValue} (ascii : ∀ s, v = .text s → Ascii s) :
    Encodes v.bytes v.js := by
  cases v with
  | text s =>
      apply encodes_text
      intro c mem
      exact ascii s rfl c ((List.takeWhile_sublist _).subset mem)
  | null => exact encodes_null
  | int v => exact encodes_int v

theorem intField_good {k : Text} (named : FieldName k) (v : Int) : (intField k v).Good :=
  ⟨named, encodes_int v⟩

theorem rowFields_good : ∀ {cols : List Text} {row : List SqlValue}, (∀ k ∈ cols, FieldName k) →
    (∀ v ∈ row, ∀ s, v = .text s → Ascii s) → ∀ f ∈ rowFields cols row, f.Good
  | [], _, _, _, _, mem => by cases mem
  | _ :: _, [], _, _, _, mem => by cases mem
  | k :: cols, v :: row, names, texts, f, mem => by
      rcases List.mem_cons.mp mem with rfl | later
      · exact ⟨names k (List.mem_cons_self ..),
          SqlValue.encodes (texts v (List.mem_cons_self ..))⟩
      · exact rowFields_good (fun k mem => names k (List.mem_cons_of_mem _ mem))
          (fun v mem => texts v (List.mem_cons_of_mem _ mem)) f later

theorem rowFields_keys : ∀ {cols : List Text} {row : List SqlValue}, row.length = cols.length →
    (rowFields cols row).map (jsString ·.key) = cols.map jsString
  | [], [], _ => rfl
  | [], _ :: _, size => by cases size
  | _ :: _, [], size => by cases size
  | k :: cols, v :: row, size => by
      have rest := rowFields_keys (Nat.succ.inj size)
      simpa [rowFields] using rest

theorem encodes_row {cols : List Text} {row : List SqlValue} (size : row.length = cols.length)
    (names : ∀ k ∈ cols, FieldName k) (distinct : (cols.map jsString).Nodup)
    (texts : ∀ v ∈ row, ∀ s, v = .text s → Ascii s) :
    Encodes (rowBytes cols row) (.object (jsFields (rowFields cols row))) := by
  apply encodes_map (rowFields_good names texts)
  rw [rowFields_keys size]
  exact distinct

/-- The object of a row has the columns under their names. -/
theorem jsFields_rowFields : ∀ (cols : List Text) (row : List SqlValue),
    jsFields (rowFields cols row) = (cols.map jsString).zip (row.map SqlValue.js)
  | [], _ => rfl
  | _ :: _, [] => rfl
  | k :: cols, v :: row => by
      have rest := jsFields_rowFields cols row
      simp only [jsFields, rowFields] at rest
      simp [jsFields, rowFields, rest]

/-- An object has the values of its fields under their keys. -/
theorem jsFields_eq_zip (fields : List Field) :
    jsFields fields = (fields.map (jsString ·.key)).zip (fields.map (·.value)) := by
  induction fields with
  | nil => rfl
  | cons f rest ih =>
      rw [jsFields, List.map_cons, List.map_cons, List.map_cons, List.zip_cons_cons, ← ih]
      rfl

/-- The texts of a venue are ASCII. -/
def VenueRow.Plain (v : VenueRow) : Prop := Ascii v.name

/-- The texts of a contract are ASCII, and an outcome may be `NULL`. -/
def BoardRow.Plain (r : BoardRow) : Prop := Ascii r.kind ∧ ∀ s, r.outcome = some s → Ascii s

theorem venueColumns_js : venueColumns.map jsString =
    [jsText "id", jsText "name", jsText "cost", jsText "built", jsText "x", jsText "y", jsText "z",
      jsText "wire", jsText "owner"] := by
  decide

theorem boardColumns_js : boardColumns.map jsString =
    [jsText "id", jsText "kind", jsText "payout", jsText "risk", jsText "taken", jsText "outcome",
      jsText "x", jsText "y", jsText "z", jsText "wire", jsText "owner"] := by
  decide

theorem VenueRow.encodes {v : VenueRow} (plain : v.Plain) :
    Encodes (rowBytes venueColumns v.columns) v.js := by
  have texts : ∀ value ∈ v.columns, ∀ s, value = .text s → Ascii s := by
    intro value mem s same
    subst same
    simp only [VenueRow.columns, List.mem_cons, SqlValue.text.injEq, reduceCtorEq,
      List.not_mem_nil, or_false, false_or] at mem
    rw [mem]
    exact plain
  have encodes := encodes_row (by rfl : v.columns.length = venueColumns.length) (by decide)
    (by decide) texts
  have columns : v.columns.map SqlValue.js =
      [jsInt v.id, jsOf v.name, jsInt v.cost, jsInt v.built, jsInt v.place.x, jsInt v.place.y,
        jsInt v.place.z, jsInt v.wire, jsInt v.owner] := rfl
  rw [jsFields_rowFields, venueColumns_js, columns] at encodes
  simp only [List.zip_cons_cons, List.zip_nil_right] at encodes
  exact encodes

theorem SqlValue.js_ofOption {α : Type} (f : α → SqlValue) (o : Option α) :
    (SqlValue.ofOption f o).js = jsOption (fun a => (f a).js) o := by
  cases o <;> rfl

theorem BoardRow.encodes {r : BoardRow} (plain : r.Plain) :
    Encodes (rowBytes boardColumns r.columns) r.js := by
  have texts : ∀ value ∈ r.columns, ∀ s, value = .text s → Ascii s := by
    intro value mem s same
    subst same
    cases outcome : r.outcome with
    | none =>
        cases wire : r.wire <;> cases owner : r.owner <;>
          simp [BoardRow.columns, outcome, wire, owner, SqlValue.ofOption] at mem <;>
          exact mem ▸ plain.1
    | some told =>
        have known := plain.2 told outcome
        cases wire : r.wire <;> cases owner : r.owner <;>
          simp [BoardRow.columns, outcome, wire, owner, SqlValue.ofOption] at mem <;>
          rcases mem with rfl | rfl <;> first | exact plain.1 | exact known
  have encodes := encodes_row (by rfl : r.columns.length = boardColumns.length) (by decide)
    (by decide) texts
  have columns : r.columns.map SqlValue.js =
      [jsInt r.id, jsOf r.kind, jsInt r.payout, jsInt r.risk, jsInt r.taken,
        jsOption jsOf r.outcome, jsInt r.place.x, jsInt r.place.y, jsInt r.place.z,
        jsOption (fun n => jsInt (Int.ofNat n)) r.wire,
        jsOption (fun n => jsInt (Int.ofNat n)) r.owner] := by
    unfold BoardRow.columns
    simp only [List.map_cons, List.map_nil, SqlValue.js_ofOption]
    simp only [SqlValue.js]
  rw [jsFields_rowFields, boardColumns_js, columns] at encodes
  simp only [List.zip_cons_cons, List.zip_nil_right] at encodes
  exact encodes

/-- A map of integers under distinct ASCII names. -/
theorem encodes_ints {columns : List (Text × Int)} {names : List JsString}
    (keys : (columns.map (·.1)).map jsString = names) (distinct : names.Nodup)
    (named : ∀ k ∈ columns.map (·.1), FieldName k) :
    Encodes (intsBytes columns) (.object (names.zip (columns.map (jsInt ·.2)))) := by
  have good : ∀ f ∈ columns.map (fun p => intField p.1 p.2), f.Good := by
    intro f mem
    obtain ⟨p, inside, rfl⟩ := List.mem_map.mp mem
    exact intField_good (named p.1 (List.mem_map_of_mem inside)) p.2
  have fieldNames : (columns.map fun p => intField p.1 p.2).map (jsString ·.key) = names := by
    rw [← keys, List.map_map, List.map_map]
    rfl
  have values : (columns.map fun p => intField p.1 p.2).map (·.value) =
      columns.map (jsInt ·.2) := by
    rw [List.map_map]
    rfl
  have encodes := encodes_map good (by rw [fieldNames]; exact distinct)
  rw [jsFields_eq_zip, fieldNames, values, List.length_map] at encodes
  exact encodes

theorem SparkSeen.encodes (s : SparkSeen) : Encodes s.bytes s.js := by
  have keys : [text "id", text "purse", text "wear", text "x", text "y", text "z", text "wire",
      text "owner"].map jsString =
      [jsText "id", jsText "purse", jsText "wear", jsText "x", jsText "y", jsText "z",
        jsText "wire", jsText "owner"] := by
    decide
  have named : ∀ k ∈ [text "id", text "purse", text "wear", text "x", text "y", text "z",
      text "wire", text "owner"], FieldName k := by
    decide
  have names : s.columns.map (·.1) = [text "id", text "purse", text "wear", text "x", text "y",
      text "z", text "wire", text "owner"] := rfl
  have encodes := encodes_ints ((congrArg (List.map jsString) names).trans keys) (by decide)
    (by rw [names]; exact named)
  unfold SparkSeen.columns at encodes
  simp only [List.map_cons, List.map_nil, List.zip_cons_cons, List.zip_nil_right] at encodes
  exact encodes

theorem wardColumns_encodes (g : Gyre) : Encodes (intsBytes (wardColumns g)) (wardJs g) := by
  have keys : [text "cycle", text "treasury", text "debt", text "issued", text "retired",
      text "spent", text "sparks", text "room"].map jsString =
      [jsText "cycle", jsText "treasury", jsText "debt", jsText "issued", jsText "retired",
        jsText "spent", jsText "sparks", jsText "room"] := by
    decide
  have named : ∀ k ∈ [text "cycle", text "treasury", text "debt", text "issued", text "retired",
      text "spent", text "sparks", text "room"], FieldName k := by
    decide
  have names : (wardColumns g).map (·.1) = [text "cycle", text "treasury", text "debt",
      text "issued", text "retired", text "spent", text "sparks", text "room"] := rfl
  have encodes := encodes_ints ((congrArg (List.map jsString) names).trans keys) (by decide)
    (by rw [names]; exact named)
  unfold wardColumns at encodes
  simp only [List.map_cons, List.map_nil, List.zip_cons_cons, List.zip_nil_right] at encodes
  exact encodes

/-- The rows of a table, when each is read back. -/
theorem rows_encode {ρ : Type} {cols : List Text} {columns : ρ → List SqlValue} {js : ρ → Js}
    {rows : Option (List ρ)}
    (each : ∀ row ∈ rows.getD [], Encodes (rowBytes cols (columns row)) (js row)) :
    Encodes (rowsBytes cols (rows.map (·.map columns))) (.array ((rows.getD []).map js)) := by
  cases rows with
  | none => exact encodes_array (by simp : ∀ item ∈ ([] : List (List UInt8 × Js)), _)
  | some list =>
      have good : ∀ item ∈ list.map fun row => (rowBytes cols (columns row), js row),
          Encodes item.1 item.2 := by
        intro item mem
        obtain ⟨row, inside, rfl⟩ := List.mem_map.mp mem
        exact each row inside
      have encodes := encodes_stream good
      have bytes : itemsBytes (list.map fun row => (rowBytes cols (columns row), js row)) =
          (list.map columns).flatMap (rowBytes cols) := by
        simp [itemsBytes, List.flatMap_map]
      rw [bytes, List.map_map] at encodes
      exact encodes

/-- The texts a reply passes on are ASCII. -/
structure Reply.Plain (r : Reply) : Prop where
  say : Ascii r.answer.say
  venues : ∀ v ∈ r.venues.getD [], v.Plain
  board : ∀ c ∈ r.board.getD [], c.Plain
  counted : r.nsparks = r.sparks.length

theorem sparks_encode {r : Reply} (counted : r.nsparks = r.sparks.length) :
    Encodes (headBytes 4 r.nsparks ++ r.sparks.flatMap SparkSeen.bytes)
      (.array (r.sparks.map SparkSeen.js)) := by
  have good : ∀ item ∈ r.sparks.map fun s => (s.bytes, s.js), Encodes item.1 item.2 := by
    intro item mem
    obtain ⟨s, -, rfl⟩ := List.mem_map.mp mem
    exact s.encodes
  have encodes := encodes_array good
  have bytes : itemsBytes (r.sparks.map fun s => (s.bytes, s.js)) =
      r.sparks.flatMap SparkSeen.bytes := by
    simp [itemsBytes, List.flatMap_map]
  rw [bytes, List.length_map, List.map_map, ← counted] at encodes
  exact encodes

theorem Ascii.cString {s : Text} (ascii : Ascii s) : Ascii (cString s) :=
  fun c mem => ascii c ((List.takeWhile_sublist _).subset mem)

/-- The client takes a reply's bytes for the object with the reply's values. -/
theorem Reply.encodes {r : Reply} (plain : r.Plain) : Encodes r.bytes r.js := by
  have good : ∀ f ∈ r.fields, f.Good := by
    unfold Reply.fields
    simp only [List.forall_mem_cons]
    exact
      ⟨⟨(by decide : FieldName (text "ok")), encodes_bool _⟩,
        ⟨(by decide : FieldName (text "say")), encodes_text plain.say.cString⟩,
        ⟨(by decide : FieldName (text "honest")), encodes_bool _⟩,
        ⟨(by decide : FieldName (text "ward")), wardColumns_encodes _⟩,
        ⟨(by decide : FieldName (text "venues")),
          rows_encode fun v mem => VenueRow.encodes (plain.venues v mem)⟩,
        ⟨(by decide : FieldName (text "board")),
          rows_encode fun c mem => BoardRow.encodes (plain.board c mem)⟩,
        ⟨(by decide : FieldName (text "sparks")), sparks_encode plain.counted⟩, by simp⟩
  have keys : [text "ok", text "say", text "honest", text "ward", text "venues", text "board",
      text "sparks"].map jsString =
      [jsText "ok", jsText "say", jsText "honest", jsText "ward", jsText "venues", jsText "board",
        jsText "sparks"] := by
    decide
  have names : r.fields.map (jsString ·.key) =
      [jsText "ok", jsText "say", jsText "honest", jsText "ward", jsText "venues", jsText "board",
        jsText "sparks"] := by
    unfold Reply.fields
    simp only [List.map_cons, List.map_nil]
    exact keys
  have encodes := encodes_map good (by rw [names]; decide)
  rw [jsFields_eq_zip, names] at encodes
  unfold Reply.fields at encodes
  simp only [List.map_cons, List.map_nil, List.zip_cons_cons, List.zip_nil_right] at encodes
  exact encodes

/-! ### Every command -/

/-- Whatever a call returns is `P`. -/
def Returns {α : Type} (P : α → Prop) (x : Action World α) : Prop :=
  ∀ w a w', x w = (.ret a, w') → P a

theorem Returns.pure {α : Type} {P : α → Prop} {a : α} (good : P a) :
    Returns P (pure a : Action World α) := by
  intro w b w' run
  obtain ⟨rfl, -⟩ := Action.pure_eq_ret run
  exact good

theorem Returns.bind {α β : Type} {P : α → Prop} {Q : β → Prop} {x : Action World α}
    {next : α → Action World β} (first : Returns P x) (rest : ∀ a, P a → Returns Q (next a)) :
    Returns Q (x >>= next) := by
  intro w b w' run
  obtain ⟨a, middle, ran, run⟩ := Action.bind_eq_ret run
  exact rest a (first w a middle ran) middle b w' run

theorem Returns.any {α : Type} (x : Action World α) : Returns (fun _ => True) x :=
  fun _ _ _ _ => trivial

/-- What `ward_command` may answer. -/
def sayings : List Text :=
  [text "the ward as it stands", text "the ward moved", text "the ward stopped mid-cycle",
    text "the ward stopped being honest", text "commissioned",
    text "no such venue, or it is already built, or the treasury will not reach", text "paid",
    text "no such Spark here, or an amount the treasury will not reach",
    text "the payment landed on neither side", text "the ward is founded again",
    text "the ward could not be founded again", text "goodbye", text "no such command"]

theorem cycleLoop_why (n : Nat) :
    Returns (fun why => ∀ s, why = some s → s ∈ sayings) (cycleLoop n) := by
  induction n with
  | zero => exact Returns.pure fun s none_why => by cases none_why
  | succ n ih =>
      refine (Returns.any _).bind fun moved _ => ?_
      cases moved with
      | none =>
          apply Returns.pure
          intro s same
          cases same
          decide
      | some _ =>
          refine (Returns.any _).bind fun h _ => ?_
          cases h with
          | true => exact ih
          | false =>
              apply Returns.pure
              intro s same
              cases same
              decide

/-- What a command answers is one of the texts of the source. -/
theorem command_sayings (cmd : Command) : Returns (fun a => a.say ∈ sayings) cmd.run := by
  cases cmd with
  | look => exact Returns.pure (by decide)
  | quit => exact Returns.pure (by decide)
  | unknown => exact Returns.pure (by decide)
  | cycle n =>
      refine (cycleLoop_why _).bind fun why plain => ?_
      cases why with
      | none => exact Returns.pure (by decide)
      | some s => exact Returns.pure (plain s rfl)
  | commission venue =>
      refine (Returns.any _).bind fun done _ => ?_
      cases done with
      | none => exact Returns.pure (by decide)
      | some _ => exact Returns.pure (by decide)
  | pay who amount =>
      refine (Returns.any _).bind fun g _ => ?_
      cases findSpark (who.getD (-1)) g.sparks with
      | none => exact Returns.pure (by decide)
      | some i =>
          dsimp only
          split
          · exact Returns.pure (by decide)
          · refine (Returns.any _).bind fun done _ => ?_
            cases done with
            | none => exact Returns.pure (by decide)
            | some _ => exact Returns.pure (by decide)
  | restart =>
      refine (Returns.any _).bind fun g _ => (Returns.any _).bind fun _ _ =>
        (Returns.any _).bind fun _ _ => (Returns.any _).bind fun done _ => ?_
      cases done with
      | none => exact (Returns.any _).bind fun _ _ => Returns.pure (by decide)
      | some _ => exact Returns.pure (by decide)

theorem ascii_sayings : ∀ s ∈ sayings, Ascii s := by decide

/-- The rows of a ward have ASCII texts. -/
structure WardTables.Plain (t : WardTables) : Prop where
  venue : ∀ v ∈ t.venue, v.Plain
  board : ∀ c ∈ t.board, c.Plain

theorem Reply.Of.plain {r : Reply} {a : Answer} {w : World} (read : r.Of a w)
    (say : Ascii a.say) (tables : w.g.ward.now.Plain) : r.Plain where
  say := by rw [read.answer]; exact say
  venues := by
    intro v mem
    rcases read.venues with missing | rows
    · simp [missing] at mem
    · exact tables.venue v (by simpa [rows] using mem)
  board := by
    intro c mem
    rcases read.board with missing | rows
    · simp [missing] at mem
    · exact tables.board c (by simpa [rows] using mem)
  counted := by rw [read.nsparks, ← read.sparks, List.length_map]

/-- For every ward, every command and every room for the reply: when `ward_ask` returns bytes, the
client reads them all, and gets the object with the values that were asked of the ward after the
command and passed to the encoder. -/
theorem reply_decodes_to_what_was_written (line : Text) (cap : Nat) (size : cap < 2 ^ 64)
    (w w' : World) (bytes : List UInt8) (asked : wardAsk line cap w = (.ret bytes, w'))
    (sent : bytes ≠ [])
    (ascii : ∀ a w₁, (commandOf (ownedLine line)).run w = (.ret a, w₁) → w₁.g.ward.now.Plain) :
    ∃ a w₁ r, (commandOf (ownedLine line)).run w = (.ret a, w₁) ∧
      gatherReply a w₁ = (.ret r, w') ∧ r.Of a w₁ ∧ decode bytes = some (r.js, []) := by
  unfold wardAsk wardCommand at asked
  obtain ⟨c, w₂, replied, asked⟩ := Action.bind_eq_ret asked
  obtain ⟨result, rfl⟩ := Action.pure_eq_ret asked
  obtain ⟨a, w₁, ran, replied⟩ := Action.bind_eq_ret replied
  rw [wardReply_eq] at replied
  obtain ⟨r, w₃, gathered, replied⟩ := Action.bind_eq_ret replied
  obtain ⟨rfl, rfl⟩ := Action.pure_eq_ret replied
  have read := gatherReply_of gathered
  refine ⟨a, w₁, r, ran, gathered, read, ?_⟩
  have fits : (r.write (weftCborTo cap)).overran = false := by
    cases overran : (r.write (weftCborTo cap)).overran with
    | false => rfl
    | true =>
        rw [overran] at result
        exact absurd result.symm sent
  rw [fits] at result
  rw [writes_reply r] at fits result
  obtain ⟨-, out, room⟩ := Cbor.write_out r.bytes fits
  have written : r.bytes = bytes := by
    rw [← result]
    simpa [weftCborTo] using out.symm
  have short : r.bytes.length ≤ cap := by
    simpa [weftCborTo] using room (Nat.zero_le _)
  have say := ascii_sayings a.say (command_sayings _ _ _ _ ran)
  have encodes := Reply.encodes (read.plain say (ascii a w₁ ran))
  have decoded := encodes.reads (bytes.length + 1) []
    (by rw [written]; exact Nat.le_succ _) (Nat.lt_of_le_of_lt short size)
  rw [List.append_nil, written] at decoded
  exact decoded

/-- A call that returned some bytes. -/
def isAnswered : Result (List UInt8) → Bool
  | .ret bytes => !bytes.isEmpty
  | _ => false

/-- A ward with a contract nobody has worked, and a Spark very far away. -/
def smallWard : World :=
  { g :=
      { Gyre.zero with
        ward :=
          { name := [], isOpen := true, saved := none
            now :=
              { created := true
                board := [{ id := 1, cycle := 1, kind := text "hack", payout := 30, risk := 40
                            taken := -1, outcome := none, place := ⟨0, -30000000, 0⟩
                            wire := some 16385, owner := none }] } }
        sparks := [{ db := Conn.null {}, id := 3, purse := 0, wear := 5, place := ⟨2 ^ 60, 0, -1⟩ }] }
    plane := Plane.fresh fun _ => false }

theorem look_reply_decodes :
    ∃ bytes a w₁ r, bytes ≠ [] ∧ gatherReply a w₁ = (.ret r, (wardAsk (text "look") 4096 smallWard).2) ∧
      decode bytes = some (r.js, []) := by
  have answered : isAnswered (wardAsk (text "look") 4096 smallWard).1 = true := by decide +kernel
  cases run : wardAsk (text "look") 4096 smallWard with
  | mk result w' =>
      rw [run] at answered
      cases result with
      | ret bytes =>
          have sent : bytes ≠ [] := by
            rintro rfl
            cases answered
          have plain : ∀ a w₁, (commandOf (ownedLine (text "look"))).run smallWard = (.ret a, w₁) →
              w₁.g.ward.now.Plain := by
            intro a w₁ ran
            have same : commandOf (ownedLine (text "look")) = .look := by decide +kernel
            rw [same] at ran
            obtain ⟨-, rfl⟩ := Action.pure_eq_ret ran
            constructor
            · intro v mem
              cases mem
            · intro c mem
              obtain rfl := List.mem_singleton.mp mem
              refine ⟨(by decide : Ascii (text "hack")), ?_⟩
              intro s told
              cases told
          obtain ⟨a, w₁, r, -, gathered, -, decoded⟩ :=
            reply_decodes_to_what_was_written (text "look") 4096 (by decide) smallWard w' bytes run
              sent plain
          exact ⟨bytes, a, w₁, r, sent, gathered, decoded⟩
      | fail => cases answered
      | halt => cases answered

end GyreWard
