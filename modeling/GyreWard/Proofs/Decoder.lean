/-
Module: GyreWard.Proofs.Decoder
Purpose: The client's decoder reads what the grammar reads, loose ends included, so it is right about
  bytes unless they slip.
Trusted boundary: none
Main exports: readOne_cons, readArg_argument, Faithful, faithful_value, Reads.answers, Discerns,
  decoder_decides_its_grammar
-/
import Mathlib.Tactic.IntervalCases
import GyreWard.Abstract.Grammar
import GyreWard.Proofs.CborItems

namespace GyreWard

/-! ### Heads -/

/-- What `Reader.value` does behind a head. -/
def readKind (read spent : List UInt8 → Option (Js × List UInt8)) (bytes : List UInt8) :
    Kind → Option (Js × List UInt8)
  | .integer negative low => do
      let (n, rest) ← readArg low bytes
      return (narrow (if negative then -1 - n.value else n.value), rest)
  | .text low => do
      let (n, rest) ← readArg low bytes
      return (.string (textDecode (rest.take n.value)), rest.drop n.value)
  | .array low => do
      let (n, rest) ← readArg low bytes
      let (items, rest) ← readItems read n.value rest
      return (.array items, rest)
  | .stream => do
      let (items, rest) ← readUntilBreak read spent (bytes.length + 1) bytes
      return (.array items, rest)
  | .map low => do
      let (n, rest) ← readArg low bytes
      readFields read n.value (.object []) rest
  | .bool b => some (.bool b, bytes)
  | .null => some (.null, bytes)
  | .closing => some (.broken, bytes)
  | .refused => none

theorem readBytes_bound {n v w : Nat} {bytes rest : List UInt8}
    (read : readBytes n v bytes = some (w, rest)) : w < (v + 1) * 256 ^ n := by
  induction n generalizing v bytes with
  | zero =>
      obtain ⟨rfl, -⟩ := Prod.mk.inj (Option.some.inj read)
      omega
  | succ n ih =>
      cases bytes with
      | nil => cases read
      | cons b bytes =>
          have below := ih read
          have byte := b.toNat_lt
          have more : (v * 256 + b.toNat + 1) * 256 ^ n ≤ (v + 1) * 256 * 256 ^ n :=
            Nat.mul_le_mul_right _ (by omega)
          rw [Nat.pow_succ']
          calc
            w < (v * 256 + b.toNat + 1) * 256 ^ n := below
            _ ≤ (v + 1) * 256 * 256 ^ n := more
            _ = (v + 1) * (256 * 256 ^ n) := Nat.mul_assoc _ _ _

theorem readArg_spilled {k : Nat} (wide : k < 4) (bytes : List UInt8) :
    readArg (24 + k) bytes =
      (readBytes (2 ^ k) 0 bytes).map fun d => (if k < 3 then .number d.1 else .bigint d.1, d.2) := by
  interval_cases k <;> rfl

theorem readArg_refused {low : Nat} (high : 28 ≤ low) (bytes : List UInt8) :
    readArg low bytes = none := by
  have direct : ¬ low < 24 := by omega
  have one : low ≠ 24 := by omega
  have two : low ≠ 25 := by omega
  have four : low ≠ 26 := by omega
  have eight : low ≠ 27 := by omega
  rw [readArg, if_neg direct, if_neg one, if_neg two, if_neg four, if_neg eight]

/-- An argument that is a `Number` is a safe integer. -/
theorem readArg_number {low n : Nat} {bytes rest : List UInt8}
    (read : readArg low bytes = some (.number n, rest)) : n < 2 ^ 32 := by
  by_cases direct : low < 24
  case pos =>
      rw [readArg, if_pos direct] at read
      simp only [Option.some.injEq, Prod.mk.injEq, Arg.number.injEq] at read
      omega
  case neg =>
      by_cases high : 28 ≤ low
      case pos =>
          rw [readArg_refused high] at read
          cases read
      case neg =>
          obtain ⟨k, rfl⟩ := Nat.exists_eq_add_of_le (Nat.le_of_not_lt direct)
          have wide : k < 4 := by omega
          rw [readArg_spilled wide] at read
          obtain ⟨⟨v, rest'⟩, digits, same⟩ := Option.map_eq_some_iff.mp read
          split at same
          case isTrue few =>
              obtain ⟨rfl, -⟩ : v = n ∧ rest' = rest := by simpa using same
              have below := readBytes_bound digits
              have most : 2 ^ k ≤ 2 ^ 2 := Nat.pow_le_pow_right (by decide) (by omega)
              have power : 256 ^ (2 ^ k) ≤ 256 ^ (2 ^ 2) := Nat.pow_le_pow_right (by decide) most
              omega
          case isFalse => simp at same

theorem narrow_arg {low : Nat} {bytes rest : List UInt8} {n : Nat}
    (read : readArg low bytes = some (.number n, rest)) :
    narrow n = .number n ∧ narrow (-1 - n) = .number (-1 - n) := by
  have small := readArg_number read
  constructor
  · apply narrow_number <;> unfold maxSafe <;> omega
  · apply narrow_number <;> unfold maxSafe <;> omega

theorem readOne_cons (read spent : List UInt8 → Option (Js × List UInt8)) (head : UInt8)
    (bytes : List UInt8) :
    readOne read spent (head :: bytes) = readKind read spent bytes (kindOf head) := by
  have shift : head.toNat >>> 5 = head.toNat / 32 := Nat.shiftRight_eq_div_pow _ 5
  have mask : head.toNat &&& 0x1f = head.toNat % 32 := Nat.and_two_pow_sub_one_eq_mod _ 5
  have byte := head.toNat_lt
  by_cases closing : head = 0xff
  case pos =>
      rw [closing]
      rfl
  case neg =>
      have open' : ¬ (head.toNat / 32 = 7 ∧ head.toNat % 32 = 31) := by
        intro both
        apply closing
        apply UInt8.toNat_inj.mp
        change head.toNat = 255
        omega
      have major : head.toNat / 32 < 8 := by omega
      rw [readOne, if_neg closing, kindOf]
      simp only [shift, mask]
      generalize head.toNat / 32 = m at major open'
      generalize head.toNat % 32 = low at open'
      interval_cases m
      case «0» =>
          cases read : readArg low bytes with
          | none => simp [readKind, read]
          | some taken =>
              obtain ⟨arg, rest⟩ := taken
              cases arg with
              | bigint n => simp [readKind, read, Arg.value]
              | number n => simp [readKind, read, Arg.value, narrow_arg read]
      case «1» =>
          cases read : readArg low bytes with
          | none => simp [readKind, read]
          | some taken =>
              obtain ⟨arg, rest⟩ := taken
              cases arg with
              | bigint n => simp [readKind, read, Arg.value]
              | number n => simp [readKind, read, Arg.value, narrow_arg read]
      case «2» => rfl
      case «3» => rfl
      case «4» => by_cases endless : low = 31 <;> simp only [endless, ↓reduceIte] <;> rfl
      case «5» => rfl
      case «6» => rfl
      case «7» =>
          have other : low ≠ 31 := fun same => open' ⟨rfl, same⟩
          by_cases no : low = 20
          · simp [no, readKind]
          by_cases yes : low = 21
          · simp [yes, readKind]
          by_cases nothing : low = 22
          · simp [nothing, readKind]
          simp [no, yes, nothing, other, readKind]

/-! ### Arguments -/

theorem readBytes_iff {n v w : Nat} {bytes rest : List UInt8} :
    readBytes n v bytes = some (w, rest) ↔
      ∃ digits : List UInt8, digits.length = n ∧ bytes = digits ++ rest ∧
        w = digits.foldl (fun v b => v * 256 + b.toNat) v := by
  induction n generalizing v bytes with
  | zero =>
      constructor
      · intro read
        obtain ⟨rfl, rfl⟩ := Prod.mk.inj (Option.some.inj read)
        exact ⟨[], rfl, rfl, rfl⟩
      · rintro ⟨digits, none, rfl, rfl⟩
        obtain rfl := List.eq_nil_of_length_eq_zero none
        rfl
  | succ n ih =>
      constructor
      · intro read
        cases bytes with
        | nil => cases read
        | cons b bytes =>
            obtain ⟨digits, size, rfl, rfl⟩ := ih.mp read
            exact ⟨b :: digits, congrArg (· + 1) size, rfl, rfl⟩
      · rintro ⟨digits, size, rfl, rfl⟩
        cases digits with
        | nil => cases size
        | cons b digits => exact ih.mpr ⟨digits, Nat.succ.inj size, rfl, rfl⟩

/-- The reader's argument is the grammar's. -/
theorem readArg_argument {low n : Nat} {bytes rest : List UInt8} :
    (∃ arg, readArg low bytes = some (arg, rest) ∧ arg.value = n) ↔ Argument low bytes n rest := by
  constructor
  · rintro ⟨arg, read, rfl⟩
    by_cases direct : low < 24
    case pos =>
        rw [readArg, if_pos direct] at read
        obtain ⟨rfl, rfl⟩ := Prod.mk.inj (Option.some.inj read)
        exact .direct direct
    case neg =>
        by_cases high : 28 ≤ low
        case pos =>
            rw [readArg_refused high] at read
            cases read
        case neg =>
            obtain ⟨k, rfl⟩ := Nat.exists_eq_add_of_le (Nat.le_of_not_lt direct)
            have wide : k < 4 := by omega
            rw [readArg_spilled wide] at read
            obtain ⟨⟨v, rest'⟩, taken, same⟩ := Option.map_eq_some_iff.mp read
            obtain ⟨kind, rfl⟩ := Prod.mk.inj same
            obtain ⟨digits, size, rfl, rfl⟩ := readBytes_iff.mp taken
            have value : arg.value = bytesValue digits := by
              rw [← kind]
              split <;> rfl
            rw [value]
            exact .spilled wide size
  · intro argument
    cases argument with
    | direct small => exact ⟨.number low, if_pos small, rfl⟩
    | @spilled k digits rest wide size =>
        have taken : readBytes (2 ^ k) 0 (digits ++ rest) = some (bytesValue digits, rest) :=
          readBytes_iff.mpr ⟨digits, size, rfl, rfl⟩
        refine ⟨if k < 3 then .number (bytesValue digits) else .bigint (bytesValue digits), ?_, ?_⟩
        · rw [readArg_spilled wide, taken]
          rfl
        · split <;> rfl

theorem Argument.read {low n : Nat} {bytes rest : List UInt8} (argument : Argument low bytes n rest) :
    ∃ arg, readArg low bytes = some (arg, rest) ∧ arg.value = n :=
  readArg_argument.mpr argument

theorem argument_of_read {low : Nat} {arg : Arg} {bytes rest : List UInt8}
    (read : readArg low bytes = some (arg, rest)) : Argument low bytes arg.value rest :=
  readArg_argument.mp ⟨arg, read, rfl⟩

/-! ### What is read stands there -/

/-- What `read` makes of up to `most` bytes is what the grammar reads in them, and it is the break only
where the byte that closes a stream comes first. -/
structure Faithful (most : Nat) (read : List UInt8 → Option (Js × List UInt8)) : Prop where
  reads : ∀ {bytes v rest}, bytes.length ≤ most → read bytes = some (v, rest) →
    ∃ marred, Reads marred .item bytes (some v) rest
  closes : ∀ {bytes rest}, bytes.length ≤ most → read bytes = some (.broken, rest) →
    bytes = 0xff :: rest
  closing : ∀ {rest}, rest.length < most → read (0xff :: rest) = some (.broken, rest)

variable {most : Nat} {read spent : List UInt8 → Option (Js × List UInt8)}

theorem Faithful.items (faithful : Faithful most read) {n : Nat} {bytes rest : List UInt8}
    {vs : List Js} (short : bytes.length ≤ most) (ran : readItems read n bytes = some (vs, rest)) :
    ∃ marred, Reads marred (.items n) bytes (some (.array vs)) rest := by
  induction n generalizing bytes vs with
  | zero =>
      obtain ⟨rfl, rfl⟩ := Prod.mk.inj (Option.some.inj ran)
      exact ⟨false, .noItems⟩
  | succ n ih =>
      simp only [readItems, Option.bind_eq_bind, Option.bind_eq_some_iff, Option.pure_def,
        Option.some.injEq, Prod.mk.injEq, Prod.exists] at ran
      obtain ⟨v, more, first, vs', rest', others, rfl, rfl⟩ := ran
      obtain ⟨marred, here⟩ := faithful.reads short first
      obtain ⟨marred', later⟩ := ih (here.length_le.1.trans short) others
      exact ⟨marred || marred', .items here later⟩

theorem readUntilBreak_close {turns : Nat} {bytes rest : List UInt8}
    (closed : read bytes = some (.broken, rest)) :
    readUntilBreak read spent (turns + 1) bytes = some ([], rest) := by
  simp [readUntilBreak, closed]

theorem readUntilBreak_go {turns : Nat} {bytes more : List UInt8} {v : Js}
    (first : read bytes = some (v, more)) (going : v ≠ .broken) :
    readUntilBreak read spent (turns + 1) bytes =
      (readUntilBreak read spent turns more).map fun d => (v :: d.1, d.2) := by
  rw [readUntilBreak, first]
  cases others : readUntilBreak read spent turns more with
  | none => cases v <;> simp_all
  | some d => cases v <;> simp_all

theorem Faithful.stream (faithful : Faithful most read) {turns : Nat} {bytes rest : List UInt8}
    {vs : List Js} (short : bytes.length ≤ most) (enough : bytes.length < turns)
    (ran : readUntilBreak read spent turns bytes = some (vs, rest)) :
    ∃ marred, Reads marred (.body .stream) bytes (some (.array vs)) rest := by
  induction turns generalizing bytes vs with
  | zero => cases enough
  | succ turns ih =>
      cases first : read bytes with
      | none => simp [readUntilBreak, first] at ran
      | some taken =>
          obtain ⟨v, more⟩ := taken
          by_cases closed : bytes.head? = some 0xff
          case pos =>
              obtain ⟨tail, rfl⟩ := List.head?_eq_some_iff.mp closed
              have closing := faithful.closing short
              rw [readUntilBreak_close closing] at ran
              obtain ⟨rfl, rfl⟩ := Prod.mk.inj (Option.some.inj ran)
              exact ⟨false, .close⟩
          case neg =>
              have going : v ≠ .broken := by
                rintro rfl
                rw [faithful.closes short first] at closed
                exact closed rfl
              obtain ⟨marred, here⟩ := faithful.reads short first
              have less := here.length_le.2 rfl
              rw [readUntilBreak_go first going] at ran
              obtain ⟨⟨vs', rest'⟩, others, same⟩ := Option.map_eq_some_iff.mp ran
              obtain ⟨rfl, rfl⟩ := Prod.mk.inj same
              obtain ⟨marred', later⟩ := ih (by omega) (by omega) others
              exact ⟨marred || marred', .streamed closed here later⟩

theorem Faithful.fields (faithful : Faithful most read) {n : Nat} {bytes rest : List UInt8}
    {out filled : Js} (short : bytes.length ≤ most)
    (ran : readFields read n out bytes = some (filled, rest)) :
    ∃ marred, Reads marred (.fields n (some out)) bytes (some filled) rest := by
  induction n generalizing bytes out with
  | zero =>
      obtain ⟨rfl, rfl⟩ := Prod.mk.inj (Option.some.inj ran)
      exact ⟨false, .noFields⟩
  | succ n ih =>
      simp only [readFields, Option.bind_eq_bind, Option.bind_eq_some_iff, Prod.exists] at ran
      obtain ⟨k, middle, key, v, more, value, name, named, others⟩ := ran
      obtain ⟨marred, first⟩ := faithful.reads short key
      have shorter := first.length_le.1.trans short
      obtain ⟨marred', second⟩ := faithful.reads shorter value
      obtain ⟨marred'', later⟩ := ih (second.length_le.1.trans shorter) others
      have filled : assigned (some k) (some v) (some out) = some (assign name v out) := by
        simp [assigned, named]
      rw [← filled] at later
      exact ⟨marred || marred' || marred'', .fields first second later⟩

/-- A text of `n` bytes, or of fewer where the bytes end. -/
theorem reads_text {low n : Nat} {bytes rest : List UInt8} (argument : Argument low bytes n rest) :
    ∃ marred, Reads marred (.body (.text low)) bytes (some (.string (textDecode (rest.take n))))
      (rest.drop n) := by
  by_cases whole : n ≤ rest.length
  case pos =>
      have size : (rest.take n).length = n := List.length_take_of_le whole
      have split : rest.take n ++ rest.drop n = rest := List.take_append_drop n rest
      refine ⟨false, .text ?_⟩
      rw [size, split]
      exact argument
  case neg =>
      have short : rest.length < n := Nat.lt_of_not_le whole
      rw [List.take_of_length_le short.le, List.drop_of_length_le short.le]
      exact ⟨true, .cut argument short⟩

theorem Faithful.kind (faithful : Faithful most read) {k : Kind} {bytes rest : List UInt8} {v : Js}
    (short : bytes.length ≤ most) (ran : readKind read spent bytes k = some (v, rest)) :
    ∃ marred, Reads marred (.body k) bytes (some v) rest := by
  cases k with
  | integer negative low =>
      simp only [readKind, Option.bind_eq_bind, Option.bind_eq_some_iff, Option.pure_def,
        Option.some.injEq, Prod.mk.injEq, Prod.exists] at ran
      obtain ⟨n, rest', argument, rfl, rfl⟩ := ran
      exact ⟨false, .integer (argument_of_read argument)⟩
  | text low =>
      simp only [readKind, Option.bind_eq_bind, Option.bind_eq_some_iff, Option.pure_def,
        Option.some.injEq, Prod.mk.injEq, Prod.exists] at ran
      obtain ⟨n, rest', argument, rfl, rfl⟩ := ran
      exact reads_text (argument_of_read argument)
  | array low =>
      simp only [readKind, Option.bind_eq_bind, Option.bind_eq_some_iff, Option.pure_def,
        Option.some.injEq, Prod.mk.injEq, Prod.exists] at ran
      obtain ⟨n, more, argument, vs, rest', items, rfl, rfl⟩ := ran
      have counted := argument_of_read argument
      obtain ⟨marred, reads⟩ := faithful.items (counted.length_le.trans short) items
      exact ⟨marred, .array counted reads⟩
  | stream =>
      simp only [readKind, Option.bind_eq_bind, Option.bind_eq_some_iff, Option.pure_def,
        Option.some.injEq, Prod.mk.injEq, Prod.exists] at ran
      obtain ⟨vs, rest', items, rfl, rfl⟩ := ran
      exact faithful.stream short (Nat.lt_succ_self _) items
  | map low =>
      simp only [readKind, Option.bind_eq_bind, Option.bind_eq_some_iff, Prod.exists] at ran
      obtain ⟨n, more, argument, fields⟩ := ran
      have counted := argument_of_read argument
      obtain ⟨marred, reads⟩ := faithful.fields (counted.length_le.trans short) fields
      exact ⟨marred, .map counted reads⟩
  | bool b =>
      obtain ⟨rfl, rfl⟩ := Prod.mk.inj (Option.some.inj ran)
      exact ⟨false, .bool⟩
  | null =>
      obtain ⟨rfl, rfl⟩ := Prod.mk.inj (Option.some.inj ran)
      exact ⟨false, .null⟩
  | closing =>
      obtain ⟨rfl, rfl⟩ := Prod.mk.inj (Option.some.inj ran)
      exact ⟨true, .stray⟩
  | refused => cases ran

/-! ### The break -/

theorem assign_broken {key : JsString} {value out : Js} (broken : assign key value out = .broken) :
    out = .broken := by
  cases out with
  | object fields =>
      rw [assign] at broken
      split at broken
      case isTrue => cases broken
      case isFalse => split at broken <;> cases broken
  | heir parent fields =>
      rw [assign] at broken
      split at broken
      case isTrue => cases broken
      case isFalse => split at broken <;> cases broken
  | _ => exact broken

theorem readFields_broken {n : Nat} {out : Js} {bytes rest : List UInt8}
    (ran : readFields read n out bytes = some (.broken, rest)) : out = .broken := by
  induction n generalizing out bytes with
  | zero => exact (Prod.mk.inj (Option.some.inj ran)).1
  | succ n ih =>
      simp only [readFields, Option.bind_eq_bind, Option.bind_eq_some_iff, Prod.exists] at ran
      obtain ⟨_, _, _, _, _, _, _, _, others⟩ := ran
      exact assign_broken (ih others)

/-- The reader makes the break of nothing but a closing byte. -/
theorem readKind_broken {k : Kind} {bytes rest : List UInt8}
    (ran : readKind read spent bytes k = some (.broken, rest)) : k = .closing ∧ rest = bytes := by
  cases k with
  | closing => exact ⟨rfl, (Prod.mk.inj (Option.some.inj ran)).2.symm⟩
  | integer negative low =>
      simp only [readKind, Option.bind_eq_bind, Option.bind_eq_some_iff, Option.pure_def,
        Option.some.injEq, Prod.mk.injEq, Prod.exists] at ran
      obtain ⟨n, _, _, value, _⟩ := ran
      exact absurd value (narrow_ne_broken _)
  | map low =>
      simp only [readKind, Option.bind_eq_bind, Option.bind_eq_some_iff, Prod.exists] at ran
      obtain ⟨n, more, _, fields⟩ := ran
      cases readFields_broken fields
  | _ => simp [readKind, Option.bind_eq_some_iff] at ran

theorem kindOf_closing {head : UInt8} (closing : kindOf head = .closing) : head = 0xff := by
  have table : ∀ n < 256, kindOf (UInt8.ofNat n) = .closing → n = 255 := by
    decide +kernel
  apply UInt8.toNat_inj.mp
  apply table head.toNat head.toNat_lt
  rwa [UInt8.ofNat_toNat]

theorem readValueOr_cons (spent : List UInt8 → Option (Js × List UInt8)) (depth : Nat) (head : UInt8)
    (bytes : List UInt8) :
    readValueOr spent (depth + 1) (head :: bytes) =
      readKind (readValueOr spent depth) spent bytes (kindOf head) :=
  readOne_cons _ _ _ _

theorem value_broken {depth : Nat} {bytes rest : List UInt8}
    (ran : readValueOr spent (depth + 1) bytes = some (.broken, rest)) : bytes = 0xff :: rest := by
  cases bytes with
  | nil => cases ran
  | cons head bytes =>
      rw [readValueOr_cons] at ran
      obtain ⟨closing, rfl⟩ := readKind_broken ran
      rw [kindOf_closing closing]

/-- The reader is faithful about as many bytes as it may go deep, whatever it would do deeper. -/
theorem faithful_value (spent : List UInt8 → Option (Js × List UInt8)) (most : Nat) :
    Faithful most (readValueOr spent (most + 1)) := by
  induction most with
  | zero =>
      have empty {bytes : List UInt8} (short : bytes.length ≤ 0) :
          readValueOr spent 1 bytes = none := by
        rw [List.eq_nil_of_length_eq_zero (Nat.le_zero.mp short)]
        rfl
      constructor
      · intro bytes v rest short ran
        rw [empty short] at ran
        cases ran
      · intro bytes rest _ ran
        exact value_broken ran
      · intro rest short
        cases short
  | succ most ih =>
      constructor
      · intro bytes v rest short ran
        cases bytes with
        | nil => cases ran
        | cons head bytes =>
            rw [readValueOr_cons] at ran
            obtain ⟨marred, body⟩ := ih.kind (Nat.le_of_succ_le_succ short) ran
            exact ⟨marred, .item body⟩
      · intro bytes rest _ ran
        exact value_broken ran
      · intro rest _
        rfl

/-! ### What stands there is read -/

/-- The reader comes back with the value `v` of what a goal asks for, however deep it may go from as many
values as there are bytes. -/
def Goal.Answers (spent : List UInt8 → Option (Js × List UInt8)) (bytes : List UInt8) (v : Js)
    (rest : List UInt8) : Goal → Prop
  | .item => ∀ depth, bytes.length ≤ depth → readValueOr spent depth bytes = some (v, rest)
  | .body .stream => ∃ vs, v = .array vs ∧ ∀ depth turns, bytes.length ≤ depth → bytes.length < turns →
      readUntilBreak (readValueOr spent depth) spent turns bytes = some (vs, rest)
  | .body k => ∀ depth, bytes.length ≤ depth →
      readKind (readValueOr spent depth) spent bytes k = some (v, rest)
  | .items n => ∃ vs, v = .array vs ∧ ∀ depth, bytes.length ≤ depth →
      readItems (readValueOr spent depth) n bytes = some (vs, rest)
  | .fields n out => ∃ o, out = some o ∧ ∀ depth, bytes.length ≤ depth →
      readFields (readValueOr spent depth) n o bytes = some (v, rest)

theorem pushed_eq_some {item items : Option Js} {v : Js} (both : pushed item items = some v) :
    ∃ w ws, item = some w ∧ items = some (.array ws) ∧ v = .array (w :: ws) := by
  unfold pushed at both
  split at both
  case h_1 w ws =>
      obtain rfl := Option.some.inj both
      exact ⟨w, ws, rfl, rfl, rfl⟩
  case h_2 => cases both

theorem assigned_eq_some {key value out : Option Js} {o : Js}
    (all : assigned key value out = some o) :
    ∃ k v o' name, key = some k ∧ value = some v ∧ out = some o' ∧ propertyKey k = some name ∧
      o = assign name v o' := by
  simp only [assigned, Option.bind_eq_bind, Option.bind_eq_some_iff, Option.pure_def,
    Option.some.injEq] at all
  obtain ⟨k, rfl, name, named, v, rfl, o', rfl, rfl⟩ := all
  exact ⟨k, v, o', name, rfl, rfl, rfl, named, rfl⟩

/-- What the grammar gives a value, the reader reads. -/
theorem Reads.answers (spent : List UInt8 → Option (Js × List UInt8)) {marred : Bool} {goal : Goal}
    {bytes rest : List UInt8} {o : Option Js} (reads : Reads marred goal bytes o rest) {v : Js}
    (value : o = some v) : goal.Answers spent bytes v rest := by
  induction reads generalizing v with
  | @item marred head bytes rest o body ih =>
      intro depth deep
      have answers := ih value
      cases depth with
      | zero => cases deep
      | succ depth =>
          have inner : bytes.length ≤ depth := Nat.le_of_succ_le_succ deep
          rw [readValueOr_cons]
          generalize kindOf head = k at answers
          cases k with
          | stream =>
              obtain ⟨vs, rfl, loop⟩ := answers
              simp [readKind, loop depth (bytes.length + 1) inner (Nat.lt_succ_self _)]
          | _ => exact answers depth inner
  | integer argument =>
      intro depth _
      obtain ⟨arg, read, rfl⟩ := argument.read
      obtain rfl := Option.some.inj value
      simp [readKind, read]
  | text argument =>
      intro depth _
      obtain ⟨arg, read, size⟩ := argument.read
      obtain rfl := Option.some.inj value
      simp [readKind, read, size]
  | cut argument short =>
      intro depth _
      obtain ⟨arg, read, rfl⟩ := argument.read
      obtain rfl := Option.some.inj value
      simp [readKind, read, List.take_of_length_le short.le, List.drop_of_length_le short.le]
  | array argument items ih =>
      intro depth deep
      obtain ⟨arg, read, rfl⟩ := argument.read
      obtain ⟨vs, rfl, loop⟩ := ih value
      simp [readKind, read, loop depth (argument.length_le.trans deep)]
  | map argument fields ih =>
      intro depth deep
      obtain ⟨arg, read, rfl⟩ := argument.read
      obtain ⟨out, same, loop⟩ := ih value
      obtain rfl := Option.some.inj same
      simp [readKind, read, loop depth (argument.length_le.trans deep)]
  | bool =>
      intro depth _
      obtain rfl := Option.some.inj value
      rfl
  | null =>
      intro depth _
      obtain rfl := Option.some.inj value
      rfl
  | stray =>
      intro depth _
      obtain rfl := Option.some.inj value
      rfl
  | @close rest =>
      obtain rfl := Option.some.inj value
      refine ⟨[], rfl, ?_⟩
      intro depth turns deep enough
      cases depth with
      | zero => cases deep
      | succ depth =>
          cases turns with
          | zero => cases enough
          | succ turns => exact readUntilBreak_close rfl
  | streamed going first others ih ih' =>
      obtain ⟨w, ws, one, many, rfl⟩ := pushed_eq_some value
      obtain ⟨ws', same, loop⟩ := ih' many
      obtain rfl := Js.array.inj same
      have item := ih one
      have less := first.length_le.2 rfl
      refine ⟨w :: ws, rfl, ?_⟩
      intro depth turns deep enough
      cases turns with
      | zero => cases enough
      | succ turns =>
          cases depth with
          | zero => omega
          | succ depth =>
              have here := item (depth + 1) deep
              have other : w ≠ .broken := by
                rintro rfl
                rw [value_broken here] at going
                exact going rfl
              rw [readUntilBreak_go here other,
                loop (depth + 1) turns (by omega) (by omega)]
              rfl
  | noItems =>
      obtain rfl := Option.some.inj value
      exact ⟨[], rfl, fun _ _ => rfl⟩
  | items first others ih ih' =>
      obtain ⟨w, ws, one, many, rfl⟩ := pushed_eq_some value
      obtain ⟨ws', same, loop⟩ := ih' many
      obtain rfl := Js.array.inj same
      have item := ih one
      refine ⟨w :: ws, rfl, ?_⟩
      intro depth deep
      have later := loop depth (first.length_le.1.trans deep)
      simp [readItems, item depth deep, later]
  | noFields => exact ⟨v, value, fun _ _ => rfl⟩
  | fields key val others ih ih' ih'' =>
      obtain ⟨filled, all, loop⟩ := ih'' value
      obtain ⟨k, w, o', name, rfl, rfl, rfl, named, rfl⟩ := assigned_eq_some all
      refine ⟨o', rfl, ?_⟩
      intro depth deep
      have shorter := key.length_le.1.trans deep
      have first := ih rfl depth deep
      have second := ih' rfl depth shorter
      have later := loop depth (val.length_le.1.trans shorter)
      simp [readFields, first, second, named, later]

/-- The decoder reads what the grammar gives a value, whatever it would do deeper than it goes. -/
theorem value_iff (spent : List UInt8 → Option (Js × List UInt8)) {bytes rest : List UInt8} {v : Js} :
    readValueOr spent (bytes.length + 1) bytes = some (v, rest) ↔
      ∃ marred, Reads marred .item bytes (some v) rest := by
  constructor
  · intro ran
    exact (faithful_value spent bytes.length).reads (Nat.le_refl _) ran
  · rintro ⟨marred, reads⟩
    exact reads.answers spent rfl _ (Nat.le_succ _)

theorem decode_iff {bytes rest : List UInt8} {v : Js} :
    decode bytes = some (v, rest) ↔ ∃ marred, Reads marred .item bytes (some v) rest :=
  value_iff _

/-- The decoder never gets deeper than its bytes let it: it comes back on its own. -/
theorem decode_comes_back (spent : List UInt8 → Option (Js × List UInt8)) (bytes : List UInt8) :
    readValueOr spent (bytes.length + 1) bytes = decode bytes := by
  apply Option.ext
  rintro ⟨v, rest⟩
  rw [value_iff, decode_iff]

/-- The decoder returns a value for well-formed items and nothing else, and for no proper front of one. -/
def Discerns (bytes : List UInt8) : Prop :=
  ((decode bytes).isSome = true ↔ BeginsWell bytes) ∧
    ∀ whole, WellFormed whole → bytes <+: whole → bytes ≠ whole → decode bytes = none

/-- The decoder comes back about all bytes, and it is right about them unless they slip. -/
theorem decoder_decides_its_grammar (bytes : List UInt8) :
    (∀ spent, readValueOr spent (bytes.length + 1) bytes = decode bytes) ∧
      (Discerns bytes ↔ ¬ Slips bytes) := by
  refine ⟨fun spent => decode_comes_back spent bytes, ?_, ?_⟩
  · rintro ⟨decides, -⟩ slips
    rcases slips with ⟨v, rest, marred⟩ | ⟨rest, nameless⟩
    · have read := decode_iff.mpr ⟨true, marred⟩
      obtain ⟨v', rest', sound⟩ := decides.mp (by rw [read]; rfl)
      cases (marred.unique sound).1
    · have some := decides.mpr ⟨none, rest, nameless⟩
      obtain ⟨⟨v, rest'⟩, read⟩ := Option.isSome_iff_exists.mp some
      obtain ⟨marred, valued⟩ := decode_iff.mp read
      cases (nameless.unique valued).2.1
  · intro steady
    have decides : (decode bytes).isSome = true ↔ BeginsWell bytes := by
      constructor
      · intro some
        obtain ⟨⟨v, rest⟩, read⟩ := Option.isSome_iff_exists.mp some
        obtain ⟨marred, reads⟩ := decode_iff.mp read
        cases marred with
        | false => exact ⟨_, _, reads⟩
        | true => exact absurd (.inl ⟨_, _, reads⟩) steady
      · rintro ⟨v, rest, reads⟩
        cases v with
        | none => exact absurd (.inr ⟨_, reads⟩) steady
        | some v =>
            rw [decode_iff.mpr ⟨false, reads⟩]
            rfl
    refine ⟨decides, ?_⟩
    intro whole wellFormed front proper
    have not := mt decides.mp (wellFormed.front front proper)
    simpa using not

/-- A text of three bytes of which one is there: the decoder returns it, and it is the front of a
well-formed item. -/
theorem cut_text_is_decoded :
    decode [0x63, 0x61] = some (.string (jsText "a"), []) ∧ ¬ BeginsWell [0x63, 0x61] ∧
      WellFormed [0x63, 0x61, 0x62, 0x63] ∧ ¬ Discerns [0x63, 0x61] := by
  have three (bytes : List UInt8) : Argument 3 bytes 3 bytes := .direct (by decide)
  have cut : Reads true .item [0x63, 0x61] (some (.string (jsText "a"))) [] :=
    .item (.cut (three [0x61]) (by decide))
  have whole : Reads false .item [0x63, 0x61, 0x62, 0x63] (some (.string (jsText "abc"))) [] :=
    .item (.text (s := [0x61, 0x62, 0x63]) (three [0x61, 0x62, 0x63]))
  have read := decode_iff.mpr ⟨true, cut⟩
  have none : ¬ BeginsWell [0x63, 0x61] := by
    rintro ⟨v, rest, reads⟩
    cases (cut.unique reads).1
  refine ⟨read, none, ⟨_, whole⟩, ?_⟩
  rintro ⟨decides, -⟩
  rw [read] at decides
  exact none (decides.mp rfl)

end GyreWard
