/-
Module: GyreWard.Proofs.Sizes
Purpose: How long a reply can get: what each value takes at most, and from it each row, each Spark and
  the whole.
Trusted boundary: none
Main exports: length_headBytes_le, length_intBytes_le, length_fieldsBytes_le, WardTables.Fits,
  Reply.Fits, Reply.length_bytes_lt
-/
import Mathlib.Algebra.Order.BigOperators.Group.List
import GyreWard.Proofs.Reply

namespace GyreWard

/-! ### Values -/

theorem length_bigEndian (n v : Nat) : (bigEndian n v).length = n := by
  induction n with
  | zero => rfl
  | succ n ih => exact congrArg (· + 1) ih

/-- A head is a byte, and an argument of eight bytes at most. -/
theorem length_headBytes_le (major v : Nat) : (headBytes major v).length ≤ 9 := by
  unfold headBytes
  dsimp only
  repeat' split
  all_goals simp [length_bigEndian]

theorem length_intBytes_le (v : Int) : (intBytes v).length ≤ 9 := by
  unfold intBytes
  split
  · exact length_headBytes_le _ _
  · exact length_headBytes_le _ _

theorem length_textBytes_le (s : Text) : (textBytes s).length ≤ s.length + 9 := by
  have head := length_headBytes_le 3 s.length
  unfold textBytes
  rw [List.length_append]
  omega

theorem length_cString_le (s : Text) : (cString s).length ≤ s.length :=
  (List.takeWhile_sublist _).length_le

/-- A text of a row that fits beside its numbers. -/
def SqlValue.Brief (value : SqlValue) : Prop := ∀ s, value = .text s → s.length ≤ 20

theorem SqlValue.length_bytes_le {value : SqlValue} (brief : value.Brief) :
    value.bytes.length ≤ 29 := by
  cases value with
  | text s =>
      have short := brief s rfl
      have cut := length_cString_le s
      have bytes := length_textBytes_le (cString s)
      exact le_trans bytes (by omega)
  | null => exact Nat.le_of_ble_eq_true rfl
  | int v => exact le_trans (length_intBytes_le v) (Nat.le_of_ble_eq_true rfl)

/-! ### Fields -/

/-- What the keys of a map take. -/
def keysLength (keys : List Text) : Nat := (keys.map fun k => (textBytes k).length).sum

theorem length_fieldsBytes_le {fields : List Field} {n : Nat}
    (each : ∀ f ∈ fields, f.bytes.length ≤ n) :
    (fieldsBytes fields).length ≤ keysLength (fields.map (·.key)) + fields.length * n := by
  induction fields with
  | nil => exact Nat.zero_le _
  | cons f rest ih =>
      have here := each f (List.mem_cons_self ..)
      have later := ih fun f' mem => each f' (List.mem_cons_of_mem _ mem)
      have split : (fieldsBytes (f :: rest)).length =
          (textBytes f.key).length + f.bytes.length + (fieldsBytes rest).length := by
        simp only [fieldsBytes, List.flatMap_cons, List.length_append]
      have keys : keysLength ((f :: rest).map (·.key)) =
          (textBytes f.key).length + keysLength (rest.map (·.key)) := by
        simp [keysLength]
      rw [split, keys, List.length_cons, Nat.add_mul, Nat.one_mul]
      omega

/-- A map of integers. -/
theorem length_intsBytes_le (columns : List (Text × Int)) :
    (intsBytes columns).length ≤ 9 + (keysLength (columns.map (·.1)) + columns.length * 9) := by
  have head := length_headBytes_le 5 columns.length
  have each : ∀ f ∈ columns.map (fun p => intField p.1 p.2), f.bytes.length ≤ 9 := by
    intro f mem
    obtain ⟨p, -, made⟩ := List.mem_map.mp mem
    rw [← made]
    exact length_intBytes_le p.2
  have body := length_fieldsBytes_le each
  have keys : (columns.map fun p => intField p.1 p.2).map (·.key) = columns.map (·.1) := by
    rw [List.map_map]
    rfl
  rw [keys, List.length_map] at body
  unfold intsBytes
  rw [List.length_append]
  omega

theorem rowFields_key : ∀ {cols : List Text} {row : List SqlValue}, row.length = cols.length →
    (rowFields cols row).map (·.key) = cols
  | [], [], _ => rfl
  | [], _ :: _, size => by cases size
  | _ :: _, [], size => by cases size
  | k :: cols, v :: row, size => by
      have rest := rowFields_key (Nat.succ.inj size)
      exact congrArg (k :: ·) rest

theorem mem_rowFields {cols : List Text} {row : List SqlValue} {f : Field}
    (mem : f ∈ rowFields cols row) : ∃ value ∈ row, f.bytes = value.bytes := by
  unfold rowFields at mem
  rw [← List.map_uncurry_zip_eq_zipWith] at mem
  obtain ⟨⟨k, value⟩, inside, made⟩ := List.mem_map.mp mem
  exact ⟨value, (List.of_mem_zip inside).2, made ▸ rfl⟩

/-- A row of a table whose texts are brief. -/
theorem length_rowBytes_le {cols : List Text} {row : List SqlValue} (size : row.length = cols.length)
    (brief : ∀ value ∈ row, value.Brief) :
    (rowBytes cols row).length ≤ 9 + (keysLength cols + cols.length * 29) := by
  have head := length_headBytes_le 5 (rowFields cols row).length
  have each : ∀ f ∈ rowFields cols row, f.bytes.length ≤ 29 := by
    intro f mem
    obtain ⟨value, inside, bytes⟩ := mem_rowFields mem
    rw [bytes]
    exact SqlValue.length_bytes_le (brief value inside)
  have body := length_fieldsBytes_le each
  have count : (rowFields cols row).length = cols.length := by
    have keys := congrArg List.length (rowFields_key size)
    rwa [List.length_map] at keys
  rw [rowFields_key size, count] at body
  unfold rowBytes
  rw [List.length_append]
  omega

/-- Parts of at most `n` bytes each. -/
theorem length_flatMap_le {α : Type} {part : α → List UInt8} {n : Nat} {items : List α}
    (each : ∀ a ∈ items, (part a).length ≤ n) : (items.flatMap part).length ≤ items.length * n := by
  induction items with
  | nil => exact Nat.zero_le _
  | cons a rest ih =>
      have here := each a (List.mem_cons_self ..)
      have later := ih fun b mem => each b (List.mem_cons_of_mem _ mem)
      rw [List.flatMap_cons, List.length_append, List.length_cons, Nat.add_mul, Nat.one_mul]
      omega

/-- A table of at most `n` rows. -/
theorem length_rowsBytes_le {ρ : Type} {cols : List Text} {columns : ρ → List SqlValue}
    {rows : Option (List ρ)} {n : Nat} (size : ∀ row, (columns row).length = cols.length)
    (few : ∀ list, rows = some list → list.length ≤ n)
    (brief : ∀ list, rows = some list → ∀ row ∈ list, ∀ value ∈ columns row, value.Brief) :
    (rowsBytes cols (rows.map (·.map columns))).length ≤
      9 + n * (9 + (keysLength cols + cols.length * 29)) := by
  cases rows with
  | none => exact le_trans (length_headBytes_le 4 0) (Nat.le_add_right ..)
  | some list =>
      have each : ∀ row ∈ list.map columns, (rowBytes cols row).length ≤
          9 + (keysLength cols + cols.length * 29) := by
        intro row mem
        obtain ⟨item, inside, made⟩ := List.mem_map.mp mem
        rw [← made]
        exact length_rowBytes_le (size item) (brief list rfl item inside)
      have body := length_flatMap_le each
      have count := Nat.mul_le_mul_right (9 + (keysLength cols + cols.length * 29)) (few list rfl)
      rw [List.length_map] at body
      rw [Option.map_some, rowsBytes]
      simp only [List.length_cons, List.length_append, List.length_nil]
      omega

/-! ### Tables -/

/-- The tables of a ward: venues of `VENUES`, and a board of at most nine contracts of `KINDS`. -/
structure WardTables.Fits (t : WardTables) : Prop where
  venues : t.venue.length ≤ nVenues
  names : ∀ v ∈ t.venue, v.name ∈ GyreWard.venues.map (·.name)
  contracts : t.board.length ≤ boardSize + 3
  kinds : ∀ r ∈ t.board, r.kind ∈ GyreWard.kinds
  outcomes : ∀ r ∈ t.board, ∀ s, r.outcome = some s → s ∈ [text "kept", text "lost"]

/-- The names, kinds and outcomes of the source are brief. -/
theorem brief_texts : (∀ s ∈ venues.map (·.name), s.length ≤ 20) ∧ (∀ s ∈ kinds, s.length ≤ 20) ∧
    ∀ s ∈ [text "kept", text "lost"], s.length ≤ 20 := by
  decide

theorem SqlValue.brief_int (v : Int) : (SqlValue.int v).Brief := fun _ same => by cases same

theorem SqlValue.brief_text {s : Text} (short : s.length ≤ 20) : (SqlValue.text s).Brief := by
  intro s' same
  cases same
  exact short

theorem SqlValue.brief_ofOption {α : Type} {f : α → SqlValue} {o : Option α}
    (each : ∀ a, o = some a → (f a).Brief) : (SqlValue.ofOption f o).Brief := by
  cases o with
  | none => exact fun _ same => by cases same
  | some a => exact each a rfl

theorem VenueRow.brief {v : VenueRow} (named : v.name ∈ venues.map (·.name)) :
    ∀ value ∈ v.columns, value.Brief := by
  have name := SqlValue.brief_text (brief_texts.1 v.name named)
  simp only [VenueRow.columns, List.forall_mem_cons]
  simp [SqlValue.brief_int, name]

theorem BoardRow.brief {r : BoardRow} (kind : r.kind ∈ kinds)
    (outcome : ∀ s, r.outcome = some s → s ∈ [text "kept", text "lost"]) :
    ∀ value ∈ r.columns, value.Brief := by
  have kind := SqlValue.brief_text (brief_texts.2.1 r.kind kind)
  have outcome : (SqlValue.ofOption .text r.outcome).Brief :=
    SqlValue.brief_ofOption fun s told => SqlValue.brief_text (brief_texts.2.2 s (outcome s told))
  have number : ∀ o : Option Nat, (SqlValue.ofOption (fun n => .int (Int.ofNat n)) o).Brief :=
    fun o => SqlValue.brief_ofOption fun n _ => SqlValue.brief_int _
  simp only [BoardRow.columns, List.forall_mem_cons, SqlValue.brief_int, kind, outcome, number,
    true_and]
  intro _ mem
  cases mem

/-! ### Replies -/

/-- A reply whose tables are a ward's, with no more Sparks than a ward has room for. -/
structure Reply.Fits (r : Reply) : Prop where
  say : r.answer.say.length ≤ 80
  venues : ∀ rows, r.venues = some rows →
    rows.length ≤ nVenues ∧ ∀ v ∈ rows, v.name ∈ GyreWard.venues.map (·.name)
  board : ∀ rows, r.board = some rows → rows.length ≤ boardSize + 3 ∧ ∀ c ∈ rows,
    c.kind ∈ kinds ∧ ∀ s, c.outcome = some s → s ∈ [text "kept", text "lost"]
  sparks : r.sparks.length ≤ sparksPerWard

/-- A Spark takes 112 bytes at most. -/
theorem SparkSeen.length_bytes_le (s : SparkSeen) : s.bytes.length ≤ 112 :=
  length_intsBytes_le s.columns

/-- A reply that fits takes less than two thirds of the room there is for it. -/
theorem Reply.length_bytes_lt {r : Reply} (fits : r.Fits) : r.bytes.length < wardReplyMax := by
  have venueTable : (rowsBytes venueColumns (r.venues.map (·.map VenueRow.columns))).length ≤ _ :=
    length_rowsBytes_le (fun _ => rfl) (fun rows found => (fits.venues rows found).1)
      fun rows found v inside => VenueRow.brief ((fits.venues rows found).2 v inside)
  have boardTable : (rowsBytes boardColumns (r.board.map (·.map BoardRow.columns))).length ≤ _ :=
    length_rowsBytes_le (fun _ => rfl) (fun rows found => (fits.board rows found).1)
      fun rows found c inside => BoardRow.brief ((fits.board rows found).2 c inside).1
        ((fits.board rows found).2 c inside).2
  have sparks : (headBytes 4 r.nsparks ++ r.sparks.flatMap SparkSeen.bytes).length ≤
      9 + sparksPerWard * 112 := by
    have head := length_headBytes_le 4 r.nsparks
    have body := length_flatMap_le fun s (_ : s ∈ r.sparks) => s.length_bytes_le
    have count := Nat.mul_le_mul_right 112 fits.sparks
    rw [List.length_append]
    omega
  have ward := length_intsBytes_le (wardColumns r.ward)
  have say : (textBytes (cString r.answer.say)).length ≤ 89 := by
    have bytes := length_textBytes_le (cString r.answer.say)
    have cut := length_cString_le r.answer.say
    have short := fits.say
    omega
  have parts : r.bytes.length = 40 + 1 + (textBytes (cString r.answer.say)).length + 1 +
      (intsBytes (wardColumns r.ward)).length +
      (rowsBytes venueColumns (r.venues.map (·.map VenueRow.columns))).length +
      (rowsBytes boardColumns (r.board.map (·.map BoardRow.columns))).length +
      (headBytes 4 r.nsparks ++ r.sparks.flatMap SparkSeen.bytes).length := by
    have keys : [text "ok", text "say", text "honest", text "ward", text "venues", text "board",
        text "sparks"].map (fun k => (textBytes k).length) = [3, 4, 7, 5, 7, 6, 7] := by
      decide
    simp only [List.map_cons, List.map_nil, List.cons.injEq, and_true] at keys
    obtain ⟨ok, say, honest, ward, venues, board, sparks⟩ := keys
    unfold Reply.bytes Reply.fields fieldsBytes
    simp only [List.flatMap_cons, List.flatMap_nil, List.length_append, List.length_nil,
      List.length_singleton, ok, say, honest, ward, venues, board, sparks]
    have head : (headBytes 5 7).length = 1 := rfl
    omega
  have wardKeys : 9 + (keysLength ((wardColumns r.ward).map (·.1)) +
      (wardColumns r.ward).length * 9) = 134 := rfl
  have venueKeys : 9 + nVenues * (9 + (keysLength venueColumns + venueColumns.length * 29)) = 1845 := by
    decide
  have boardKeys : 9 + (boardSize + 3) * (9 + (keysLength boardColumns + boardColumns.length * 29)) =
      3420 := by
    decide
  have sparkRoom : 9 + sparksPerWard * 112 = 155017 := by decide
  have room : wardReplyMax = 262144 := rfl
  omega

end GyreWard
