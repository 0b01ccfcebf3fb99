/-
Module: GyreWard.Proofs.CommandLine
Purpose: A line of the menu is read by the ward as the command it shows: the verb, the arguments in their
  order, and the numbers they spell.
Trusted boundary: none
Main exports: Spells, spells_jsDecimal, atoi_spells, tokenise_line, Obeys, Scattered,
  picked_spaced, the_menu_line_is_its_command
-/
import GyreWard.Model.Client
import GyreWard.Model.Interactor

namespace GyreWard

open Lib

/-! ### Numbers -/

/-- A decimal: some digits, with a sign in front of them or none. -/
inductive Spells : JsString → Int → Prop where
  | plain {digits : JsString} (some : digits ≠ []) (all : ∀ c ∈ digits, isRadixDigit 10 c = true) :
      Spells digits (digitsValue 10 digits)
  | plus {digits : JsString} (some : digits ≠ []) (all : ∀ c ∈ digits, isRadixDigit 10 c = true) :
      Spells (0x2b :: digits) (digitsValue 10 digits)
  | minus {digits : JsString} (some : digits ≠ []) (all : ∀ c ∈ digits, isRadixDigit 10 c = true) :
      Spells (0x2d :: digits) (-(digitsValue 10 digits : Int))

/-- Does a number fit in an `int`? -/
def IsInt (n : Int) : Prop := -(2 ^ 31) ≤ n ∧ n < 2 ^ 31

/-- A decimal of an `int`. -/
def SpellsInt (v : JsString) (n : Int) : Prop := Spells v n ∧ IsInt n

theorem radixDigit_ten {c : Nat} : isRadixDigit 10 c = true ↔ 0x30 ≤ c ∧ c ≤ 0x39 := by
  unfold isRadixDigit digitValue
  constructor
  · intro digit
    split at digit
    · assumption
    · split at digit
      · simp only [Option.any_some, decide_eq_true_eq] at digit
        omega
      · split at digit
        · simp only [Option.any_some, decide_eq_true_eq] at digit
          omega
        · cases digit
  · intro range
    rw [if_pos range]
    simp only [Option.any_some, decide_eq_true_eq]
    omega

theorem digitValue_ten {c : Nat} (digit : isRadixDigit 10 c = true) :
    (digitValue c).getD 0 = c - 0x30 := by
  rw [digitValue, if_pos (radixDigit_ten.mp digit)]
  rfl

theorem printed_digit {m : Nat} {c : Char} (printed : c ∈ Nat.toDigits 10 m) :
    0x30 ≤ c.toNat ∧ c.toNat ≤ 0x39 := by
  have digit := Nat.isDigit_of_mem_toDigits (by decide) (by decide) printed
  simp only [Char.isDigit, Bool.and_eq_true, decide_eq_true_eq] at digit
  exact ⟨UInt32.le_iff_toNat_le.mp digit.1, UInt32.le_iff_toNat_le.mp digit.2⟩

/-- The digits of a number, read by their place. -/
theorem digitsValue_printed (m : Nat) : digitsValue 10 ((Nat.toDigits 10 m).map Char.toNat) = m := by
  have read (chars : List Char) (digits : ∀ c ∈ chars, 0x30 ≤ c.toNat ∧ c.toNat ≤ 0x39) (n : Nat) :
      (chars.map Char.toNat).foldl (fun n c => n * 10 + (digitValue c).getD 0) n =
        Nat.ofDigitChars 10 chars n := by
    induction chars generalizing n with
    | nil => rw [Nat.ofDigitChars_nil]; rfl
    | cons c chars ih =>
        have digit := radixDigit_ten.mpr (digits c List.mem_cons_self)
        rw [List.map_cons, List.foldl_cons, ih fun d mem => digits d (List.mem_cons_of_mem c mem),
          Nat.ofDigitChars_cons, digitValue_ten digit, Nat.mul_comm]
        rfl
  rw [digitsValue, read _ (fun c mem => printed_digit mem), Nat.ofDigitChars_ten_toDigits]

/-- What JavaScript prints of an integer spells it. -/
theorem spells_jsDecimal (n : Int) : Spells (jsDecimal n) n := by
  have bytes (m : Nat) : ((Nat.toDigits 10 m).map fun c => UInt8.ofNat c.toNat).map UInt8.toNat =
      (Nat.toDigits 10 m).map Char.toNat := by
    rw [List.map_map]
    apply List.map_congr_left
    intro c mem
    have range := printed_digit mem
    exact UInt8.toNat_ofNat_of_lt (by change c.toNat < 256; omega)
  have some (m : Nat) : (Nat.toDigits 10 m).map Char.toNat ≠ [] := by
    intro none
    exact Nat.toDigits_ne_nil (List.map_eq_nil_iff.mp none)
  have all (m : Nat) : ∀ c ∈ (Nat.toDigits 10 m).map Char.toNat, isRadixDigit 10 c = true := by
    intro c mem
    obtain ⟨d, printed, rfl⟩ := List.mem_map.mp mem
    exact radixDigit_ten.mpr (printed_digit printed)
  by_cases negative : n < 0
  · have spelled := Spells.minus (some n.natAbs) (all n.natAbs)
    rw [digitsValue_printed] at spelled
    have sign : -(n.natAbs : Int) = n := by omega
    rw [sign] at spelled
    rw [jsDecimal, decimal, if_pos negative, List.map_append, bytes]
    exact spelled
  · have spelled := Spells.plain (some n.toNat) (all n.toNat)
    rw [digitsValue_printed, Int.toNat_of_nonneg (Int.not_lt.mp negative)] at spelled
    rw [jsDecimal, decimal, if_neg negative, bytes]
    exact spelled

/-! ### Bytes -/

/-- Code points that are one byte each. -/
def JsAscii (s : JsString) : Prop := ∀ c ∈ s, c < 0x80

theorem textEncode_append (s t : JsString) : textEncode (s ++ t) = textEncode s ++ textEncode t :=
  List.flatMap_append

theorem textEncode_ascii {s : JsString} (ascii : JsAscii s) : textEncode s = s.map UInt8.ofNat := by
  induction s with
  | nil => rfl
  | cons c s ih =>
      have small := ascii c List.mem_cons_self
      have later := ih fun d mem => ascii d (List.mem_cons_of_mem c mem)
      rw [textEncode] at later ⊢
      rw [List.flatMap_cons, later, utf8Bytes, if_pos small]
      rfl

theorem textEncode_intercalate (words : List JsString) :
    textEncode ([0x20].intercalate words) = [blank].intercalate (words.map textEncode) := by
  induction words with
  | nil => rfl
  | cons word words ih =>
      cases words with
      | nil => rw [List.map_singleton, List.intercalate_singleton, List.intercalate_singleton]
      | cons next words =>
          have one : textEncode [0x20] = [blank] := by decide
          rw [List.intercalate_cons_cons, textEncode_append, textEncode_append, one, ih, List.map_cons,
            List.map_cons, List.map_cons, List.intercalate_cons_cons]

/-! ### Arguments -/

theorem digit_byte {c : Nat} (digit : isRadixDigit 10 c = true) :
    (UInt8.ofNat c).toNat = c ∧ isDigit (UInt8.ofNat c) = true := by
  have range := radixDigit_ten.mp digit
  have same : (UInt8.ofNat c).toNat = c := UInt8.toNat_ofNat_of_lt (by change c < 256; omega)
  refine ⟨same, ?_⟩
  rw [isDigit, Bool.and_eq_true, decide_eq_true_eq, decide_eq_true_eq, UInt8.le_iff_toNat_le,
    UInt8.le_iff_toNat_le, same]
  exact range

theorem leadingDigits_encoded {digits : JsString} (all : ∀ c ∈ digits, isRadixDigit 10 c = true) :
    leadingDigits (digits.map UInt8.ofNat) = digitsValue 10 digits := by
  have whole : (digits.map UInt8.ofNat).takeWhile isDigit = digits.map UInt8.ofNat := by
    apply List.takeWhile_eq_self_iff.mpr
    intro b mem
    obtain ⟨c, there, rfl⟩ := List.mem_map.mp mem
    exact (digit_byte (all c there)).2
  have read (n : Nat) :
      (digits.map UInt8.ofNat).foldl (fun (n : Int) d => n * 10 + (d.toNat - 48 : Int)) n =
        (digits.foldl (fun n c => n * 10 + (digitValue c).getD 0) n : Nat) := by
    clear whole
    induction digits generalizing n with
    | nil => rfl
    | cons c digits ih =>
        have digit := all c List.mem_cons_self
        have range := radixDigit_ten.mp digit
        have step : (n : Int) * 10 + ((UInt8.ofNat c).toNat - 48 : Int) =
            (n * 10 + (digitValue c).getD 0 : Nat) := by
          rw [(digit_byte digit).1, digitValue_ten digit]
          omega
        rw [List.map_cons, List.foldl_cons, List.foldl_cons, step,
          ih fun d mem => all d (List.mem_cons_of_mem c mem)]
  rw [leadingDigits, whole]
  exact read 0

/-- An `int` is neither clamped nor cut. -/
theorem toInt32_clampLong {n : Int} (int : IsInt n) : toInt32 (clampLong n) = n := by
  unfold IsInt at int
  unfold toInt32 clampLong
  omega

theorem digit_not_sign {b : UInt8} (digit : isDigit b = true) :
    isSpace b = false ∧ b ≠ 0x2d ∧ b ≠ 0x2b := by
  have apart : ∀ b : Fin 256, isDigit (UInt8.ofNat b) = true →
      isSpace (UInt8.ofNat b) = false ∧ UInt8.ofNat b ≠ 0x2d ∧ UInt8.ofNat b ≠ 0x2b := by
    decide +kernel
  have here := apart ⟨b.toNat, b.toNat_lt⟩
  rw [UInt8.ofNat_toNat] at here
  exact here digit

/-- Digits with no sign. -/
theorem atoi_digits {b : UInt8} {rest : Text} (digit : isDigit b = true) :
    atoi (b :: rest) = toInt32 (clampLong (leadingDigits (b :: rest))) := by
  obtain ⟨visible, minus, plus⟩ := digit_not_sign digit
  rw [atoi, List.dropWhile_cons_of_neg (by rw [visible]; exact Bool.false_ne_true)]
  split
  · next same => exact absurd (List.cons.inj same).1 minus
  · next same => exact absurd (List.cons.inj same).1 plus
  · rfl

/-- `atoi` reads the number a decimal spells. -/
theorem atoi_spells {v : JsString} {n : Int} (spelled : Spells v n) (int : IsInt n) :
    atoi (textEncode v) = n := by
  have encoded {digits : JsString} (all : ∀ c ∈ digits, isRadixDigit 10 c = true) :
      textEncode digits = digits.map UInt8.ofNat := by
    apply textEncode_ascii
    intro c mem
    have range := radixDigit_ten.mp (all c mem)
    omega
  cases spelled with
  | plain some all =>
      rw [encoded all]
      have value := leadingDigits_encoded all
      cases digits : v with
      | nil => exact absurd digits some
      | cons c rest =>
          rw [digits, List.map_cons] at value
          rw [List.map_cons, atoi_digits (digit_byte (all c (digits ▸ List.mem_cons_self))).2, value,
            ← digits, toInt32_clampLong int]
  | @plus digits some all =>
      have sign : textEncode (0x2b :: digits) = 0x2b :: textEncode digits := rfl
      rw [sign, encoded all]
      change toInt32 (clampLong (leadingDigits (digits.map UInt8.ofNat))) = _
      rw [leadingDigits_encoded all, toInt32_clampLong int]
  | @minus digits some all =>
      have sign : textEncode (0x2d :: digits) = 0x2d :: textEncode digits := rfl
      rw [sign, encoded all]
      change toInt32 (clampLong (-leadingDigits (digits.map UInt8.ofNat))) = _
      rw [leadingDigits_encoded all, toInt32_clampLong int]

/-! ### Words -/

/-- The words `ward_command` splits a line into. -/
def Tokens.words (t : Tokens) : List Text := t.verb :: (t.arg1.toList ++ t.arg2.toList)

theorem splitWord_blank {word : Text} (whole : blank ∉ word) (rest : Text) :
    splitWord (word ++ blank :: rest) = (word, some rest) := by
  have inside : ∀ c ∈ word, decide (c ≠ blank) = true := by
    intro c mem
    rw [decide_eq_true_eq]
    rintro rfl
    exact whole mem
  have behind : (blank :: rest).dropWhile (fun c => decide (c ≠ blank)) = blank :: rest := rfl
  have before : (blank :: rest).takeWhile (fun c => decide (c ≠ blank)) = [] := rfl
  rw [splitWord, List.dropWhile_append_of_pos inside, behind, List.takeWhile_append_of_pos inside,
    before, List.append_nil]

theorem splitWord_last {word : Text} (whole : blank ∉ word) : splitWord word = (word, none) := by
  have inside : ∀ c ∈ word, decide (c ≠ blank) = true := by
    intro c mem
    rw [decide_eq_true_eq]
    rintro rfl
    exact whole mem
  rw [splitWord, List.dropWhile_eq_nil_iff.mpr inside]

/-- A slash, a verb and at most two arguments, one blank between two of them. -/
theorem tokenise_line {verb : Text} {args : List Text} (some : verb ≠ []) (plain : slash ∉ verb)
    (whole : ∀ word ∈ verb :: args, blank ∉ word) (few : args.length ≤ 2) :
    (tokenise ([blank].intercalate ((slash :: verb) :: args))).words = verb :: args := by
  have verbWhole := whole verb List.mem_cons_self
  -- the slash goes, and the verb begins with something else
  have bare (rest : Text) :
      (slash :: (verb ++ rest)).dropWhile (fun c => c == slash || c == blank) = verb ++ rest := by
    cases shape : verb with
    | nil => exact absurd shape some
    | cons c verb =>
        rw [shape] at plain verbWhole
        have notSlash : c ≠ slash := by
          rintro rfl
          exact plain List.mem_cons_self
        have notBlank : c ≠ blank := by
          rintro rfl
          exact verbWhole List.mem_cons_self
        rw [List.dropWhile_cons_of_pos rfl, List.cons_append, List.dropWhile_cons_of_neg]
        simp [notSlash, notBlank]
  match args, few, whole with
  | [], _, _ =>
      have line := bare []
      rw [List.append_nil] at line
      rw [List.intercalate_singleton, tokenise, line, splitWord_last verbWhole]
      rfl
  | [a], _, whole =>
      have argWhole := whole a (List.mem_cons_of_mem verb List.mem_cons_self)
      rw [List.intercalate_cons_cons, List.intercalate_singleton, List.append_assoc,
        List.singleton_append, List.cons_append, tokenise, bare, splitWord_blank verbWhole]
      simp only
      rw [splitWord_last argWhole]
      rfl
  | [a, b], _, whole =>
      have argWhole := whole a (List.mem_cons_of_mem verb List.mem_cons_self)
      rw [List.intercalate_cons_cons, List.intercalate_cons_cons, List.intercalate_singleton,
        List.append_assoc, List.singleton_append, List.append_assoc, List.singleton_append,
        List.cons_append, tokenise, bare, splitWord_blank verbWhole]
      simp only
      rw [splitWord_blank argWhole]
      rfl

/-! ### The line -/

/-- The ward runs what a line shows: this verb, which it knows, and these numbers. -/
structure Obeys (line : Text) (verb : JsString) (values : List JsString) (numbers : List Int) :
    Prop where
  words : (tokenise line).words = textEncode verb :: values.map textEncode
  numbers : (tokenise line).words.tail.map atoi = numbers
  known : commandOf line ≠ .unknown

/-- The line the page sends, as `ward_ask` copies it. -/
def sentLine (root : List Node) : Text := ownedLine (textEncode (serialize root))

theorem commandOf_known {line : Text}
    (known : (tokenise line).verb ∈
      [text "look", text "cycle", text "commission", text "pay", text "restart"]) :
    commandOf line ≠ .unknown := by
  unfold commandOf
  generalize tokenise line = t at known ⊢
  obtain ⟨verb, arg1, arg2⟩ := t
  simp only [List.mem_cons, List.not_mem_nil, or_false] at known
  rcases known with rfl | rfl | rfl | rfl | rfl <;> exact Command.noConfusion

/-- Every verb of the menu is plain text that the ward knows, and takes at most two arguments. -/
theorem commands_known : ∀ entry ∈ commands,
    textEncode entry.verb ≠ [] ∧ slash ∉ textEncode entry.verb ∧ blank ∉ textEncode entry.verb ∧
      textEncode entry.verb ∈
        [text "look", text "cycle", text "commission", text "pay", text "restart"] ∧
      entry.params.length ≤ 2 := by
  decide

theorem Spells.ascii {v : JsString} {n : Int} (spelled : Spells v n) : JsAscii v := by
  have digits {digits : JsString} (all : ∀ c ∈ digits, isRadixDigit 10 c = true) :
      JsAscii digits := by
    intro c mem
    have range := radixDigit_ten.mp (all c mem)
    omega
  have signed {sign : Nat} {rest : JsString} (small : sign < 0x80) (ascii : JsAscii rest) :
      JsAscii (sign :: rest) := by
    intro c mem
    rcases List.mem_cons.mp mem with rfl | later
    · exact small
    · exact ascii c later
  cases spelled with
  | plain _ all => exact digits all
  | plus _ all => exact signed (by decide) (digits all)
  | minus _ all => exact signed (by decide) (digits all)

/-- The ward reads the numbers that the arguments spell. -/
theorem spelled_numbers {values : List JsString} {numbers : List Int}
    (spelled : List.Forall₂ SpellsInt values numbers) :
    (∀ v ∈ values, JsAscii v) ∧ (values.map textEncode).map atoi = numbers := by
  induction spelled with
  | nil =>
      constructor
      · intro v mem
        cases mem
      · rfl
  | @cons v n values numbers first _ ih =>
      obtain ⟨spells, int⟩ := first
      constructor
      · intro u mem
        rcases List.mem_cons.mp mem with rfl | later
        · exact spells.ascii
        · exact ih.1 u later
      · rw [List.map_cons, List.map_cons, atoi_spells spells int, ih.2]

/-- A word of ASCII has no blank on the wire either. -/
theorem blank_not_mem {word : JsString} (solid : Solid isJsSpace word) (ascii : JsAscii word) :
    blank ∉ textEncode word := by
  rw [textEncode_ascii ascii]
  intro mem
  obtain ⟨c, there, same⟩ := List.mem_map.mp mem
  have small := ascii c there
  have byte : (UInt8.ofNat c).toNat = c := UInt8.toNat_ofNat_of_lt (by change c < 256; omega)
  obtain rfl : c = 0x20 := byte.symm.trans (congrArg UInt8.toNat same)
  cases solid.solid 0x20 there

theorem ownedLine_short {line : Text} (short : line.length < wardCommandMax) :
    ownedLine line = line := by
  apply List.take_of_length_le
  unfold wardCommandMax at short ⊢
  omega

/-! ### What is picked -/

/-- What `pick` puts in the field is laid out as it should be. -/
theorem pick_spaced {verb : JsString} (params : List MenuParam) {gap : JsString}
    (clear : ∀ c ∈ gap, isJsSpace c = true) (solid : Solid isJsSpace verb)
    (values : ∀ p ∈ params, Solid isJsSpace p.value) :
    Spaced isJsSpace (verb :: params.map (·.value))
      (gap ++ verb ++ (params.flatMap (fun p => 0x20 :: p.value) ++ [0x20])) := by
  have one : ∀ c ∈ [0x20], isJsSpace c = true := by decide
  induction params generalizing verb gap with
  | nil => exact .last clear solid one
  | cons p params ih =>
      have later := ih one (values p List.mem_cons_self) fun q mem =>
        values q (List.mem_cons_of_mem p mem)
      rw [List.map_cons]
      apply Spaced.word clear solid ⟨0x20, rfl, rfl⟩
      rw [List.flatMap_cons]
      simpa using later

theorem textContent_pick (entry : MenuEntry) :
    textContent (pick entry) =
      [] ++ (0x2f :: entry.verb) ++ (entry.params.flatMap (fun p => 0x20 :: p.value) ++ [0x20]) := by
  have pills (params : List MenuParam) :
      textContent (params.flatMap fun p => [.text [0x20], .pill p.name p.value]) =
        params.flatMap fun p => 0x20 :: p.value := by
    rw [textContent, List.flatMap_assoc]
    apply List.flatMap_congr
    intro p _
    exact congrArg (0x20 :: ·) (List.append_nil p.value)
  rw [← pills, List.nil_append]
  simp only [textContent, pick, List.flatMap_cons, List.flatMap_append, List.cons_append,
    Node.textContent, List.flatMap_nil, List.append_nil]

/-- The verbs and the values of the menu are words. -/
theorem commands_solid : ∀ entry ∈ commands, Solid isJsSpace (0x2f :: entry.verb) ∧
    ∀ p ∈ entry.params, Solid isJsSpace p.value := by
  decide

/-- An entry that is picked is laid out as its command, on the values its pills start with. -/
theorem picked_spaced (entry : MenuEntry) (listed : entry ∈ commands) :
    Spaced isJsSpace ((0x2f :: entry.verb) :: entry.params.map (·.value))
      (textContent (pick entry)) := by
  obtain ⟨verb, values⟩ := commands_solid entry listed
  rw [textContent_pick]
  exact pick_spaced entry.params (fun c mem => by cases mem) verb values

/-! ### The command -/

/-- Every entry of the menu, with any decimals for its parameters and any white space around its parts
and some between them: the ward runs that verb, on those numbers. -/
theorem the_menu_line_is_its_command (entry : MenuEntry) (listed : entry ∈ commands)
    (values : List JsString) (numbers : List Int) (spelled : List.Forall₂ SpellsInt values numbers)
    (arity : values.length = entry.params.length) (root : List Node)
    (spaced : Spaced isJsSpace ((0x2f :: entry.verb) :: values) (textContent root))
    (short : (textEncode (serialize root)).length < wardCommandMax) :
    Obeys (sentLine root) entry.verb values numbers := by
  obtain ⟨some, plain, whole, known, few⟩ := commands_known entry listed
  obtain ⟨ascii, read⟩ := spelled_numbers spelled
  have serialized : serialize root = [0x20].intercalate ((0x2f :: entry.verb) :: values) :=
    trim_squeeze rfl spaced
  have line : sentLine root =
      [blank].intercalate ((slash :: textEncode entry.verb) :: values.map textEncode) := by
    have front : textEncode (0x2f :: entry.verb) = slash :: textEncode entry.verb := rfl
    rw [sentLine, ownedLine_short short, serialized, textEncode_intercalate, List.map_cons, front]
  have words : (tokenise (sentLine root)).words = textEncode entry.verb :: values.map textEncode := by
    rw [line]
    apply tokenise_line some plain
    · intro word mem
      rcases List.mem_cons.mp mem with rfl | later
      · exact whole
      · obtain ⟨v, there, rfl⟩ := List.mem_map.mp later
        exact blank_not_mem (spaced.solid v (List.mem_cons_of_mem _ there)) (ascii v there)
    · rw [List.length_map, arity]
      exact few
  constructor
  · exact words
  · rw [words, List.tail_cons, read]
  · apply commandOf_known
    have verb : (tokenise (sentLine root)).verb = textEncode entry.verb :=
      (List.cons.inj words).1
    rw [verb]
    exact known

def payEntry : MenuEntry :=
  { verb := jsText "pay", params := [⟨jsText "spark", jsText "0"⟩, ⟨jsText "amount", jsText "10"⟩] }

theorem a_picked_payment_is_obeyed :
    Obeys (sentLine (pick payEntry)) (jsText "pay") [jsDecimal 0, jsDecimal 10] [0, 10] :=
  the_menu_line_is_its_command payEntry (by decide) _ _
    (.cons ⟨spells_jsDecimal 0, by decide, by decide⟩
      (.cons ⟨spells_jsDecimal 10, by decide, by decide⟩ .nil))
    rfl (pick payEntry) (picked_spaced payEntry (by decide)) (by decide)

/-- Words in a text, with white space around and between them, as much as there may be. -/
def Scattered : List JsString → JsString → Prop
  | [], s => ∀ c ∈ s, isJsSpace c = true
  | word :: words, s =>
      ∃ gap rest, s = gap ++ word ++ rest ∧ (∀ c ∈ gap, isJsSpace c = true) ∧ Scattered words rest

/-- The verb and its pill with no white space between them: they arrive as one word, which is no
command. -/
theorem a_pill_next_to_its_verb_is_lost :
    ¬ ∀ entry ∈ commands, ∀ (values : List JsString) (numbers : List Int),
        List.Forall₂ SpellsInt values numbers → values.length = entry.params.length →
          ∀ root : List Node,
            Scattered ((0x2f :: entry.verb) :: values) (textContent root) →
              (textEncode (serialize root)).length < wardCommandMax →
                Obeys (sentLine root) entry.verb values numbers := by
  intro obeyed
  have entry : { verb := jsText "cycle", params := [⟨jsText "days", jsText "1"⟩] } ∈ commands := by
    decide
  have nothing : ∀ c ∈ ([] : JsString), isJsSpace c = true := by
    intro c mem
    cases mem
  have run := obeyed _ entry [jsDecimal 1] [1] (.cons ⟨spells_jsDecimal 1, by decide, by decide⟩ .nil)
    rfl [.text (jsText "/cycle"), .pill (jsText "days") (jsText "1")]
    ⟨[], _, rfl, nothing, [], [], rfl, nothing, nothing⟩ (by decide)
  have words := run.words
  revert words
  decide

end GyreWard
