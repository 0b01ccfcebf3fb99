/-
Module: GyreWard.Proofs.CborItems
Purpose: The client's reader takes back, item by item, what the reply writer puts down.
Trusted boundary: none
Main exports: Writes, Encodes, Ascii, intBytes, textBytes, encodes_int, encodes_text,
  encodes_array, encodes_stream, encodes_map
-/
import GyreWard.Model.Cbor
import Mathlib.Data.Nat.ModEq
import Mathlib.Tactic.Ring

namespace GyreWard

/-! ### What is written -/

/-- A writer that puts down these bytes, room or no room. -/
def Writes (f : Cbor → Cbor) (bytes : List UInt8) : Prop := ∀ c, f c = c.write bytes

theorem Cbor.write_append (a b : List UInt8) (c : Cbor) : c.write (a ++ b) = (c.write a).write b :=
  List.foldl_append

theorem Writes.comp {f g : Cbor → Cbor} {a b : List UInt8} (first : Writes f a)
    (second : Writes g b) : Writes (fun c => g (f c)) (a ++ b) := by
  intro c
  change g (f c) = _
  rw [first, second, Cbor.write_append]

theorem writes_nothing : Writes (fun c => c) [] := fun _ => rfl

theorem writes_raw (b : UInt8) : Writes (weftCborRaw b) [b] := fun _ => rfl

theorem writes_head (major v : Nat) : Writes (weftCborHead major v) (headBytes major v) :=
  fun _ => rfl

/-- A loop that writes each of its items. -/
theorem writes_foldl {ι : Type} {step : Cbor → ι → Cbor} {bytes : ι → List UInt8}
    (each : ∀ i, Writes (fun c => step c i) (bytes i)) :
    ∀ items : List ι, Writes (fun c => items.foldl step c) (items.flatMap bytes)
  | [] => writes_nothing
  | i :: rest => (each i).comp (writes_foldl each rest)

/-- What is written is there when the room did not run out. -/
theorem Cbor.write_out (bytes : List UInt8) {c : Cbor} (fits : (c.write bytes).overran = false) :
    c.overran = false ∧ (c.write bytes).out = c.out ++ bytes ∧
      (c.out.length ≤ c.cap → c.out.length + bytes.length ≤ c.cap) := by
  induction bytes generalizing c with
  | nil => exact ⟨fits, by simp [Cbor.write], fun room => room⟩
  | cons b rest ih =>
      change ((weftCborRaw b c).write rest).overran = false at fits
      obtain ⟨before, out, room⟩ := ih fits
      by_cases filled : c.cap ≤ c.out.length
      · simp [weftCborRaw, filled] at before
      · have raw : weftCborRaw b c = { c with out := c.out ++ [b] } := by
          simp [weftCborRaw, filled]
        rw [raw] at before out room
        refine ⟨before, ?_, ?_⟩
        · change ((weftCborRaw b c).write rest).out = _
          rw [raw, out, List.append_assoc]
          rfl
        · intro _
          have := room (by simp; omega)
          simp at this ⊢
          omega

/-- What there is room for is written, and nothing is lost. -/
theorem Cbor.write_fits (bytes : List UInt8) {c : Cbor} (before : c.overran = false)
    (room : c.out.length + bytes.length ≤ c.cap) : (c.write bytes).overran = false := by
  induction bytes generalizing c with
  | nil => exact before
  | cons b rest ih =>
      rw [List.length_cons] at room
      have more : ¬ c.cap ≤ c.out.length := by omega
      have raw : weftCborRaw b c = { c with out := c.out ++ [b] } := if_neg more
      change ((weftCborRaw b c).write rest).overran = false
      rw [raw]
      apply ih
      · exact before
      · change (c.out ++ [b]).length + rest.length ≤ c.cap
        rw [List.length_append, List.length_singleton]
        omega

/-! ### What is read -/

theorem readValue_cons (depth : Nat) (head : UInt8) (bytes : List UInt8) :
    readValue (depth + 1) (head :: bytes) =
      readOne (readValue depth) (fun _ => none) (head :: bytes) := rfl

/-- Bytes the reader takes for one value, whatever follows them.  The bytes bound how deep the
value is. -/
structure Encodes (bytes : List UInt8) (v : Js) : Prop where
  nonempty : bytes ≠ []
  value : v ≠ .broken
  reads : ∀ depth rest, bytes.length ≤ depth → bytes.length < 2 ^ 64 →
    readValue depth (bytes ++ rest) = some (v, rest)

/-- Reading a head: the major type, and an argument that fits in 64 bits. -/
structure HeadOf (major v : Nat) (b : UInt8) (low : Nat) (more : List UInt8) : Prop where
  bytes : headBytes major v = b :: more
  type : b.toNat >>> 5 = major
  info : b.toNat &&& 0x1f = low
  small : low < 28
  arg : ∀ rest, readArg low (more ++ rest) =
    some (if v ≤ 0xffffffff then .number v else .bigint v, rest)

theorem head_byte : ∀ major < 8, ∀ low < 28,
    (UInt8.ofNat (major <<< 5 ||| low)).toNat >>> 5 = major ∧
      (UInt8.ofNat (major <<< 5 ||| low)).toNat &&& 0x1f = low := by
  decide

/-- Big-endian bytes read back. -/
theorem readBytes_bigEndian (n v acc : Nat) (rest : List UInt8) :
    readBytes n acc (bigEndian n v ++ rest) = some (acc * 256 ^ n + v % 256 ^ n, rest) := by
  induction n generalizing acc with
  | zero => simp [bigEndian, readBytes, Nat.mod_one]
  | succ n ih =>
      have shifted : v >>> (n * 8) = v / 256 ^ n := by
        rw [Nat.shiftRight_eq_div_pow, Nat.mul_comm n 8, Nat.pow_mul]
      have digit : (UInt8.ofNat (v >>> (n * 8))).toNat = v / 256 ^ n % 256 := by
        rw [shifted]
        exact UInt8.toNat_ofNat'
      rw [bigEndian, List.cons_append, readBytes, ih, digit]
      congr 2
      calc
        (acc * 256 + v / 256 ^ n % 256) * 256 ^ n + v % 256 ^ n =
            acc * 256 ^ (n + 1) + (v % 256 ^ n + 256 ^ n * (v / 256 ^ n % 256)) := by ring
        _ = acc * 256 ^ (n + 1) + v % 256 ^ (n + 1) := by rw [Nat.pow_succ 256 n, Nat.mod_mul]

/-- Every head reads back, at each of its five widths. -/
theorem exists_headOf {major v : Nat} (known : major < 8) (fits : v < 2 ^ 64) :
    ∃ b low more, HeadOf major v b low more := by
  -- an argument of `n` bytes behind the head
  have wide : ∀ (low n : Nat) (arg : Nat → Arg), low < 28 → v < 256 ^ n →
      (arg v = if v ≤ 0xffffffff then .number v else .bigint v) →
      (∀ bytes, readArg low bytes = (readBytes n 0 bytes).map fun read => (arg read.1, read.2)) →
      headBytes major v = UInt8.ofNat (major <<< 5 ||| low) :: bigEndian n v →
      ∃ b low more, HeadOf major v b low more := by
    intro low n arg small below kind read bytes
    obtain ⟨majorBack, lowBack⟩ := head_byte major known low small
    refine ⟨_, low, bigEndian n v, bytes, majorBack, lowBack, small, fun rest => ?_⟩
    rw [read, readBytes_bigEndian, Nat.zero_mul, Nat.zero_add, Nat.mod_eq_of_lt below, ← kind]
    rfl
  by_cases direct : v < 24
  · obtain ⟨majorBack, lowBack⟩ := head_byte major known v (by omega)
    refine ⟨_, v, [], by simp [headBytes, direct], majorBack, lowBack, by omega, fun rest => ?_⟩
    have small : v ≤ 0xffffffff := by omega
    rw [if_pos small, readArg, if_pos direct]
    rfl
  · by_cases one : v ≤ 0xff
    · apply wide 24 1 .number (by omega) (by omega) (if_pos (by omega)).symm (fun _ => rfl)
      rw [headBytes, if_neg direct, if_pos one]
    · by_cases two : v ≤ 0xffff
      · apply wide 25 2 .number (by omega) (by omega) (if_pos (by omega)).symm (fun _ => rfl)
        rw [headBytes, if_neg direct, if_neg one, if_pos two]
      · by_cases four : v ≤ 0xffffffff
        · apply wide 26 4 .number (by omega) (by omega) (if_pos four).symm (fun _ => rfl)
          rw [headBytes, if_neg direct, if_neg one, if_neg two, if_pos four]
        · apply wide 27 8 .bigint (by omega) (by omega) (if_neg four).symm (fun _ => rfl)
          rw [headBytes, if_neg direct, if_neg one, if_neg two, if_neg four]

theorem HeadOf.not_break {major v low : Nat} {b : UInt8} {more : List UInt8}
    (head : HeadOf major v b low more) : b ≠ 0xff := by
  rintro rfl
  have info := head.info
  have small := head.small
  change 31 = low at info
  omega

theorem headBytes_ne_nil (major v : Nat) : headBytes major v ≠ [] := by
  unfold headBytes
  dsimp only
  repeat' split
  all_goals exact List.cons_ne_nil _ _

@[simp] theorem Arg.value_ite (v : Nat) :
    (if v ≤ 0xffffffff then Arg.number v else Arg.bigint v).value = v := by
  split <;> rfl

/-! ### Integers -/

def intBytes (v : Int) : List UInt8 :=
  if toInt64 v < 0 then headBytes 1 (-(toInt64 v + 1)).toNat else headBytes 0 (toInt64 v).toNat

theorem writes_int (v : Int) : Writes (weftCborInt v) (intBytes v) := by
  intro c
  unfold weftCborInt intBytes
  by_cases negative : toInt64 v < 0
  · simp only [negative, ↓reduceIte]
    rfl
  · simp only [negative, ↓reduceIte]
    rfl

theorem toInt64_range (v : Int) : -(2 ^ 63) ≤ toInt64 v ∧ toInt64 v < 2 ^ 63 := by
  unfold toInt64
  omega

theorem narrow_number {v : Int} (low : -maxSafe ≤ v) (high : v ≤ maxSafe) :
    narrow v = .number v :=
  if_pos ⟨low, high⟩

theorem narrow_ne_broken (v : Int) : narrow v ≠ .broken := by
  unfold narrow
  split <;> exact Js.noConfusion

/-- An integer comes back as it was passed, a `BigInt` when it is not safe as a `Number`. -/
theorem encodes_int (v : Int) : Encodes (intBytes v) (narrow (toInt64 v)) := by
  have range := toInt64_range v
  generalize value : toInt64 v = n at range
  unfold intBytes
  rw [value]
  by_cases negative : n < 0
  · rw [if_pos negative]
    have fits : (-(n + 1)).toNat < 2 ^ 64 := by omega
    obtain ⟨b, low, more, head⟩ := exists_headOf (by decide : 1 < 8) fits
    refine ⟨headBytes_ne_nil _ _, narrow_ne_broken n, fun depth rest deep _ => ?_⟩
    rw [head.bytes] at deep ⊢
    cases depth with
    | zero => simp at deep
    | succ depth =>
        have back : (-1 : Int) - ((-(n + 1)).toNat : Int) = n := by omega
        rw [List.cons_append, readValue_cons, readOne, if_neg head.not_break]
        simp only [head.type, head.info, head.arg]
        generalize (-(n + 1)).toNat = a at back
        by_cases small : a ≤ 0xffffffff
        · have safe : narrow n = .number n := narrow_number (by unfold maxSafe; omega) (by
            unfold maxSafe
            omega)
          simp [small, back, safe]
        · simp [small, back]
  · rw [if_neg negative]
    have fits : n.toNat < 2 ^ 64 := by omega
    obtain ⟨b, low, more, head⟩ := exists_headOf (by decide : 0 < 8) fits
    refine ⟨headBytes_ne_nil _ _, narrow_ne_broken n, fun depth rest deep _ => ?_⟩
    rw [head.bytes] at deep ⊢
    cases depth with
    | zero => simp at deep
    | succ depth =>
        have back : (n.toNat : Int) = n := by omega
        rw [List.cons_append, readValue_cons, readOne, if_neg head.not_break]
        simp only [head.type, head.info, head.arg]
        by_cases small : n.toNat ≤ 0xffffffff
        · have safe : narrow n = .number n := narrow_number (by unfold maxSafe; omega) (by
            unfold maxSafe
            omega)
          simp [small, back, safe]
        · simp [small, back]

/-! ### Simple values and texts -/

theorem encodes_null : Encodes [0xf6] .null where
  nonempty := List.cons_ne_nil _ _
  value := Js.noConfusion
  reads := by
    intro depth rest deep _
    cases depth with
    | zero => simp at deep
    | succ depth => rfl

theorem encodes_bool (b : Bool) : Encodes [if b then 0xf5 else 0xf4] (.bool b) where
  nonempty := List.cons_ne_nil _ _
  value := Js.noConfusion
  reads := by
    intro depth rest deep _
    cases depth with
    | zero => simp at deep
    | succ depth => cases b <;> rfl

/-- Only bytes below 128. -/
def Ascii (s : Text) : Prop := ∀ c ∈ s, c.toNat < 128

/-- A text as a JavaScript string. -/
def jsString (s : Text) : JsString := s.map UInt8.toNat

theorem utf8Decode_ascii {s : List Nat} (ascii : ∀ b ∈ s, b < 128) : utf8Decode s {} = s := by
  induction s with
  | nil => rfl
  | cons b rest ih =>
      have low : b < 0x80 := ascii b (List.mem_cons_self ..)
      have start : utf8Start b = ([b], {}) := by simp [utf8Start, utf8Lead, low]
      rw [utf8Decode, if_pos rfl, start]
      exact congrArg (b :: ·) (ih fun b' mem => ascii b' (List.mem_cons_of_mem _ mem))

/-- ASCII decodes to itself; a byte order mark is not ASCII. -/
theorem textDecode_ascii {s : Text} (ascii : Ascii s) : textDecode s = jsString s := by
  have low : ∀ b ∈ s.map UInt8.toNat, b < 128 := by
    intro b mem
    obtain ⟨c, inside, rfl⟩ := List.mem_map.mp mem
    exact ascii c inside
  unfold textDecode
  rw [utf8Decode_ascii low]
  split
  · rename_i rest marked
    have := low 0xFEFF (by rw [marked]; exact List.mem_cons_self ..)
    omega
  · rfl

def textBytes (s : Text) : List UInt8 := headBytes 3 s.length ++ s

theorem writes_text (s : Text) : Writes (weftCborText s) (textBytes (cString s)) := by
  intro c
  rw [textBytes, Cbor.write_append]
  rfl

theorem encodes_text {s : Text} (ascii : Ascii s) : Encodes (textBytes s) (.string (jsString s)) where
  nonempty := List.append_ne_nil_of_left_ne_nil (headBytes_ne_nil _ _) s
  value := Js.noConfusion
  reads := by
    intro depth rest deep short
    have fits : s.length < 2 ^ 64 := by
      rw [textBytes, List.length_append] at short
      omega
    obtain ⟨b, low, more, head⟩ := exists_headOf (by decide : 3 < 8) fits
    rw [textBytes, head.bytes] at deep ⊢
    cases depth with
    | zero => simp at deep
    | succ depth =>
        rw [List.cons_append, List.cons_append, readValue_cons, readOne, if_neg head.not_break,
          List.append_assoc]
        simp [head.type, head.info, head.arg, textDecode_ascii ascii]

/-! ### Arrays -/

/-- Values one after another. -/
def itemsBytes (items : List (List UInt8 × Js)) : List UInt8 := items.flatMap (·.1)

theorem length_le_itemsBytes {items : List (List UInt8 × Js)}
    (each : ∀ item ∈ items, Encodes item.1 item.2) : items.length ≤ (itemsBytes items).length := by
  induction items with
  | nil => exact Nat.zero_le _
  | cons item rest ih =>
      have here := List.length_pos_iff.mpr (each item (List.mem_cons_self ..)).nonempty
      have later := ih fun i mem => each i (List.mem_cons_of_mem _ mem)
      have split : itemsBytes (item :: rest) = item.1 ++ itemsBytes rest := rfl
      rw [split, List.length_cons, List.length_append]
      omega

theorem readItems_items {items : List (List UInt8 × Js)} {depth : Nat}
    (each : ∀ item ∈ items, Encodes item.1 item.2) (rest : List UInt8)
    (deep : (itemsBytes items).length ≤ depth) (short : (itemsBytes items).length < 2 ^ 64) :
    readItems (readValue depth) items.length (itemsBytes items ++ rest) =
      some (items.map (·.2), rest) := by
  induction items with
  | nil => rfl
  | cons item later ih =>
      have split : itemsBytes (item :: later) = item.1 ++ itemsBytes later := rfl
      rw [split, List.length_append] at deep short
      have here := (each item (List.mem_cons_self ..)).reads depth (itemsBytes later ++ rest)
        (by omega) (by omega)
      have after := ih (fun i mem => each i (List.mem_cons_of_mem _ mem)) (by omega) (by omega)
      rw [split, List.length_cons, readItems, List.append_assoc, here]
      simp [after]

theorem encodes_array {items : List (List UInt8 × Js)}
    (each : ∀ item ∈ items, Encodes item.1 item.2) :
    Encodes (headBytes 4 items.length ++ itemsBytes items) (.array (items.map (·.2))) where
  nonempty := List.append_ne_nil_of_left_ne_nil (headBytes_ne_nil _ _) _
  value := Js.noConfusion
  reads := by
    intro depth rest deep short
    have count := length_le_itemsBytes each
    rw [List.length_append] at short
    have fits : items.length < 2 ^ 64 := by omega
    obtain ⟨b, low, more, head⟩ := exists_headOf (by decide : 4 < 8) fits
    rw [head.bytes] at deep ⊢
    cases depth with
    | zero => simp at deep
    | succ depth =>
        have small := head.small
        have deep' : (itemsBytes items).length ≤ depth := by
          simp only [List.cons_append, List.length_cons, List.length_append] at deep
          omega
        rw [List.cons_append, List.cons_append, readValue_cons, readOne, if_neg head.not_break,
          List.append_assoc]
        simp [head.type, head.info, head.arg, readItems_items each rest deep' (by omega),
          show low ≠ 31 by omega]

theorem readUntilBreak_items {items : List (List UInt8 × Js)} {depth turns : Nat}
    (each : ∀ item ∈ items, Encodes item.1 item.2) (rest : List UInt8)
    (deep : (itemsBytes items).length < depth) (short : (itemsBytes items).length < 2 ^ 64)
    (enough : items.length < turns) :
    readUntilBreak (readValue depth) (fun _ => none) turns (itemsBytes items ++ 0xff :: rest) =
      some (items.map (·.2), rest) := by
  induction items generalizing turns with
  | nil =>
      obtain ⟨turns, rfl⟩ := Nat.exists_eq_add_of_lt enough
      obtain ⟨depth, rfl⟩ := Nat.exists_eq_add_of_lt deep
      rfl
  | cons item later ih =>
      have split : itemsBytes (item :: later) = item.1 ++ itemsBytes later := rfl
      rw [split, List.length_append] at deep short
      have encodes := each item (List.mem_cons_self ..)
      have here := encodes.reads depth (itemsBytes later ++ 0xff :: rest) (by omega) (by omega)
      cases turns with
      | zero => simp at enough
      | succ turns =>
          have after := ih (fun i mem => each i (List.mem_cons_of_mem _ mem)) (by omega) (by omega)
            (Nat.lt_of_succ_lt_succ enough)
          rw [split, readUntilBreak, List.append_assoc, here]
          have value := encodes.value
          cases same : item.2 with
          | broken => exact absurd same value
          | number n => simp [after, same]
          | bigint n => simp [after, same]
          | string s => simp [after, same]
          | bool b => simp [after, same]
          | null => simp [after, same]
          | array items => simp [after, same]
          | object fields => simp [after, same]
          | heir parent fields => simp [after, same]

/-- An array closed by a break. -/
theorem encodes_stream {items : List (List UInt8 × Js)}
    (each : ∀ item ∈ items, Encodes item.1 item.2) :
    Encodes (0x9f :: (itemsBytes items ++ [0xff])) (.array (items.map (·.2))) where
  nonempty := List.cons_ne_nil _ _
  value := Js.noConfusion
  reads := by
    intro depth rest deep short
    have count := length_le_itemsBytes each
    cases depth with
    | zero => simp at deep
    | succ depth =>
        simp only [List.length_cons, List.length_append, List.length_nil] at deep short
        have enough : items.length < (itemsBytes items ++ 0xff :: rest).length + 1 := by
          rw [List.length_append]
          omega
        have inner : (itemsBytes items).length < depth := by omega
        have read := readUntilBreak_items each rest inner (by omega) enough
        have bytes : 0x9f :: (itemsBytes items ++ [0xff]) ++ rest =
            0x9f :: (itemsBytes items ++ 0xff :: rest) := by
          simp
        have type : (0x9f : UInt8).toNat >>> 5 = 4 := by decide
        have info : (0x9f : UInt8).toNat &&& 0x1f = 31 := by decide
        rw [bytes, readValue_cons, readOne, if_neg (by decide)]
        simp only [type, info, ↓reduceIte, read]
        rfl

/-! ### Maps -/

/-- A key, the bytes of its value, and the value. -/
structure Field where
  key : Text
  bytes : List UInt8
  value : Js

/-- An ASCII name for a field, other than the one that sets a prototype. -/
structure FieldName (k : Text) : Prop where
  ascii : Ascii k
  plain : jsString k ≠ protoKey

instance (s : Text) : Decidable (Ascii s) := List.decidableBAll (fun c : UInt8 => c.toNat < 128) s

instance (k : Text) : Decidable (FieldName k) :=
  decidable_of_iff (Ascii k ∧ jsString k ≠ protoKey)
    ⟨fun both => ⟨both.1, both.2⟩, fun name => ⟨name.ascii, name.plain⟩⟩

/-- A field under a name of its own, whose bytes are its value's. -/
structure Field.Good (f : Field) : Prop where
  named : FieldName f.key
  encodes : Encodes f.bytes f.value

def fieldsBytes (fields : List Field) : List UInt8 :=
  fields.flatMap fun f => textBytes f.key ++ f.bytes

/-- The fields of the object the reader builds. -/
def jsFields (fields : List Field) : List (JsString × Js) :=
  fields.map fun f => (jsString f.key, f.value)

theorem propertyKey_string (s : JsString) : propertyKey (.string s) = some s := rfl

theorem setField_new {key : JsString} {fields : List (JsString × Js)}
    (new : key ∉ fields.map (·.1)) (value : Js) :
    setField key value fields = fields ++ [(key, value)] := by
  have absent : fields.any (·.1 == key) = false := by
    apply List.any_eq_false.mpr
    intro f mem
    have differs : f.1 ≠ key := fun same => new (same ▸ List.mem_map_of_mem mem)
    simpa using differs
  rw [setField, absent]
  rfl

theorem readFields_fields {fields : List Field} {depth : Nat} (good : ∀ f ∈ fields, f.Good)
    (rest : List UInt8) (deep : (fieldsBytes fields).length ≤ depth)
    (short : (fieldsBytes fields).length < 2 ^ 64) {before : List (JsString × Js)}
    (distinct : (before.map (·.1) ++ fields.map (jsString ·.key)).Nodup) :
    readFields (readValue depth) fields.length (.object before) (fieldsBytes fields ++ rest) =
      some (.object (before ++ jsFields fields), rest) := by
  induction fields generalizing before with
  | nil => simp [readFields, fieldsBytes, jsFields]
  | cons f later ih =>
      have split : fieldsBytes (f :: later) = textBytes f.key ++ (f.bytes ++ fieldsBytes later) := by
        simp [fieldsBytes]
      rw [split, List.length_append, List.length_append] at deep short
      have field := good f (List.mem_cons_self ..)
      have key := (encodes_text field.named.ascii).reads depth
        (f.bytes ++ (fieldsBytes later ++ rest)) (by omega) (by omega)
      have value := field.encodes.reads depth (fieldsBytes later ++ rest) (by omega) (by omega)
      have new : jsString f.key ∉ before.map (·.1) := by
        intro mem
        have parts := List.nodup_append.mp distinct
        exact parts.2.2 _ mem _ (List.mem_cons_self ..) rfl
      have distinct' : ((before ++ [(jsString f.key, f.value)]).map (·.1) ++
          later.map (jsString ·.key)).Nodup := by
        simpa using distinct
      have after := ih (fun f mem => good f (List.mem_cons_of_mem _ mem)) (by omega) (by omega)
        distinct'
      rw [split, List.length_cons, readFields, List.append_assoc, List.append_assoc, key]
      simp [value, propertyKey_string, assign, field.named.plain, setField_new new, after, jsFields]

theorem length_le_fieldsBytes (fields : List Field) :
    fields.length ≤ (fieldsBytes fields).length := by
  induction fields with
  | nil => exact Nat.zero_le _
  | cons f later ih =>
      have split : fieldsBytes (f :: later) = textBytes f.key ++ (f.bytes ++ fieldsBytes later) := by
        simp [fieldsBytes]
      have here : 0 < (textBytes f.key).length := by
        have := List.length_pos_iff.mpr (headBytes_ne_nil 3 f.key.length)
        rw [textBytes, List.length_append]
        omega
      rw [split, List.length_cons, List.length_append, List.length_append]
      omega

theorem encodes_map {fields : List Field} (good : ∀ f ∈ fields, f.Good)
    (distinct : (fields.map (jsString ·.key)).Nodup) :
    Encodes (headBytes 5 fields.length ++ fieldsBytes fields) (.object (jsFields fields)) where
  nonempty := List.append_ne_nil_of_left_ne_nil (headBytes_ne_nil _ _) _
  value := Js.noConfusion
  reads := by
    intro depth rest deep short
    have count := length_le_fieldsBytes fields
    rw [List.length_append] at short
    have fits : fields.length < 2 ^ 64 := by omega
    obtain ⟨b, low, more, head⟩ := exists_headOf (by decide : 5 < 8) fits
    rw [head.bytes] at deep ⊢
    cases depth with
    | zero => simp at deep
    | succ depth =>
        have deep' : (fieldsBytes fields).length ≤ depth := by
          simp only [List.cons_append, List.length_cons, List.length_append] at deep
          omega
        have distinct' : (([] : List (JsString × Js)).map (·.1) ++
            fields.map (jsString ·.key)).Nodup := by
          simpa using distinct
        rw [List.cons_append, List.cons_append, readValue_cons, readOne, if_neg head.not_break,
          List.append_assoc]
        simp [head.type, head.info, head.arg, readFields_fields good rest deep' (by omega) distinct']

end GyreWard
