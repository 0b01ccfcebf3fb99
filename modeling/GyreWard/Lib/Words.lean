/-
Module: GyreWard.Lib.Words
Purpose: Words with white space between them: every run of it collapsed to one separator, and the ends
  trimmed.
Trusted boundary: none
Main exports: squeeze, trim, Solid, Spaced, trim_squeeze
-/
import Mathlib.Data.List.Basic
import Mathlib.Data.List.TakeWhile

namespace Lib

variable {α : Type} {white : α → Bool} {s : α}

/-- Every run of white space as one separator.  `inside` is whether the text begins in the middle of
a run whose separator is already there. -/
def squeeze (white : α → Bool) (s : α) : Bool → List α → List α
  | _, [] => []
  | inside, c :: rest =>
      if white c then
        if inside then squeeze white s true rest else s :: squeeze white s true rest
      else c :: squeeze white s false rest

/-- A text without the white space at its two ends. -/
def trim (white : α → Bool) (text : List α) : List α :=
  ((text.dropWhile white).reverse.dropWhile white).reverse

/-- A word: something, and no white space in it. -/
structure Solid (white : α → Bool) (word : List α) : Prop where
  nonempty : word ≠ []
  solid : ∀ c ∈ word, white c = false

instance {word : List α} : Decidable (Solid white word) :=
  decidable_of_iff (word.isEmpty = false ∧ ∀ c ∈ word, white c = false)
    ⟨fun ⟨there, solid⟩ => ⟨List.isEmpty_eq_false_iff.mp there, solid⟩,
      fun ⟨there, solid⟩ => ⟨List.isEmpty_eq_false_iff.mpr there, solid⟩⟩

/-- Words in a text, with any white space around them and some between them. -/
inductive Spaced (white : α → Bool) : List (List α) → List α → Prop where
  | blank {gap : List α} (clear : ∀ c ∈ gap, white c = true) : Spaced white [] gap
  | last {gap word tail : List α} (clear : ∀ c ∈ gap, white c = true) (solid : Solid white word)
      (behind : ∀ c ∈ tail, white c = true) : Spaced white [word] (gap ++ word ++ tail)
  | word {gap word text : List α} {next : List α} {words : List (List α)}
      (clear : ∀ c ∈ gap, white c = true) (solid : Solid white word)
      (apart : ∃ c, text.head? = some c ∧ white c = true) (others : Spaced white (next :: words) text) :
      Spaced white (word :: next :: words) (gap ++ word ++ text)

/-! ### Runs -/

theorem squeeze_gap {gap : List α} (clear : ∀ c ∈ gap, white c = true) (text : List α) :
    squeeze white s true (gap ++ text) = squeeze white s true text := by
  induction gap with
  | nil => rfl
  | cons c gap ih =>
      rw [List.cons_append, squeeze, if_pos (clear c List.mem_cons_self), if_pos rfl]
      exact ih fun d mem => clear d (List.mem_cons_of_mem c mem)

/-- A run begins with its separator. -/
theorem squeeze_begins {c : α} {text : List α} (head : text.head? = some c) (clear : white c = true) :
    squeeze white s false text = s :: squeeze white s true text := by
  cases text with
  | nil => cases head
  | cons d rest =>
      obtain rfl := Option.some.inj head
      rw [squeeze, if_pos clear, if_neg Bool.false_ne_true, squeeze, if_pos clear, if_pos rfl]

theorem squeeze_solid {word : List α} (solid : Solid white word) (inside : Bool) (text : List α) :
    squeeze white s inside (word ++ text) = word ++ squeeze white s false text := by
  obtain ⟨some, solid⟩ := solid
  induction word generalizing inside with
  | nil => exact absurd rfl some
  | cons c word ih =>
      have here : white c = false := solid c List.mem_cons_self
      rw [List.cons_append, squeeze, if_neg (by rw [here]; exact Bool.false_ne_true), List.cons_append]
      cases word with
      | nil => rfl
      | cons d word =>
          rw [ih false (List.cons_ne_nil d word) fun e mem => solid e (List.mem_cons_of_mem c mem)]

/-- White space at the end leaves a separator, or nothing. -/
theorem squeeze_tail {tail : List α} (clear : ∀ c ∈ tail, white c = true) :
    squeeze white s false tail = [] ∨ squeeze white s false tail = [s] := by
  cases tail with
  | nil => exact .inl rfl
  | cons c tail =>
      have begins : squeeze white s false (c :: tail) = s :: squeeze white s true (c :: tail) :=
        squeeze_begins rfl (clear c List.mem_cons_self)
      have gone := squeeze_gap (s := s) clear []
      rw [List.append_nil] at gone
      rw [begins, gone]
      exact .inr rfl

/-- Words in the middle of a run: one separator between two of them, and perhaps one at the end. -/
theorem Spaced.squeezed {words : List (List α)} {text : List α} (spaced : Spaced white words text) :
    ∃ tail, (tail = [] ∨ tail = [s]) ∧
      squeeze white s true text = [s].intercalate words ++ tail := by
  induction spaced with
  | @blank gap clear =>
      have gone := squeeze_gap (s := s) clear []
      rw [List.append_nil] at gone
      exact ⟨[], .inl rfl, gone⟩
  | @last gap word tail clear solid behind =>
      rw [List.append_assoc, squeeze_gap clear, squeeze_solid solid, List.intercalate_singleton]
      exact ⟨_, squeeze_tail behind, rfl⟩
  | @word gap word text next words clear solid apart others ih =>
      obtain ⟨c, head, between⟩ := apart
      obtain ⟨tail, ends, rest⟩ := ih
      refine ⟨tail, ends, ?_⟩
      rw [List.append_assoc, squeeze_gap clear, squeeze_solid solid, squeeze_begins head between, rest,
        List.intercalate_cons_cons]
      simp only [List.append_assoc, List.cons_append, List.nil_append]

/-- At the start of a text a run shows as one separator more. -/
theorem squeeze_starts (white : α → Bool) (s : α) (text : List α) :
    ∃ lead, (lead = [] ∨ lead = [s]) ∧
      squeeze white s false text = lead ++ squeeze white s true text := by
  cases text with
  | nil => exact ⟨[], .inl rfl, rfl⟩
  | cons c rest =>
      by_cases clear : white c = true
      · exact ⟨[s], .inr rfl, squeeze_begins rfl clear⟩
      · refine ⟨[], .inl rfl, ?_⟩
        rw [squeeze, if_neg clear, squeeze, if_neg clear]
        rfl

/-! ### Ends -/

theorem dropWhile_solid {word : List α} (solid : Solid white word) (text : List α) :
    (word ++ text).dropWhile white = word ++ text := by
  obtain ⟨some, solid⟩ := solid
  cases word with
  | nil => exact absurd rfl some
  | cons c word =>
      have here : white c = false := solid c List.mem_cons_self
      rw [List.cons_append, List.dropWhile_cons_of_neg (by rw [here]; exact Bool.false_ne_true)]

theorem Solid.reverse {word : List α} (solid : Solid white word) : Solid white word.reverse where
  nonempty := by
    intro none
    exact solid.nonempty (List.reverse_eq_nil_iff.mp none)
  solid := fun c mem => solid.solid c (List.mem_reverse.mp mem)

/-- Words with one separator between them begin with the first word and end with the last. -/
theorem intercalate_ends {words : List (List α)} (some : words ≠ [])
    (solid : ∀ word ∈ words, Solid white word) :
    ∃ first text front final, Solid white first ∧ Solid white final ∧
      [s].intercalate words = first ++ text ∧ [s].intercalate words = front ++ final := by
  induction words with
  | nil => exact absurd rfl some
  | cons word words ih =>
      have here := solid word List.mem_cons_self
      cases words with
      | nil =>
          rw [List.intercalate_singleton]
          exact ⟨word, [], [], word, here, here, (List.append_nil word).symm, rfl⟩
      | cons next words =>
          obtain ⟨_, _, front, final, _, ends, -, same⟩ :=
            ih (List.cons_ne_nil next words) fun w mem => solid w (List.mem_cons_of_mem word mem)
          rw [List.intercalate_cons_cons, same]
          refine ⟨word, _, word ++ [s] ++ front, final, here, ends, List.append_assoc .., ?_⟩
          rw [List.append_assoc (word ++ [s])]

theorem dropWhile_ends {ends : List α} (shape : ends = [] ∨ ends = [s]) (blank : white s = true)
    (text : List α) : (ends ++ text).dropWhile white = text.dropWhile white := by
  rcases shape with rfl | rfl
  · rfl
  · rw [List.singleton_append, List.dropWhile_cons_of_pos blank]

/-- A separator at either end goes. -/
theorem trim_intercalate {words : List (List α)} {lead tail : List α} (blank : white s = true)
    (begins : lead = [] ∨ lead = [s]) (ends : tail = [] ∨ tail = [s])
    (solid : ∀ word ∈ words, Solid white word) :
    trim white (lead ++ ([s].intercalate words ++ tail)) = [s].intercalate words := by
  have mirrored : tail.reverse = [] ∨ tail.reverse = [s] := by
    rcases ends with rfl | rfl
    · exact .inl rfl
    · exact .inr rfl
  by_cases some : words = []
  · subst some
    have gone := dropWhile_ends ends blank []
    rw [List.append_nil] at gone
    rw [trim, dropWhile_ends begins blank, List.intercalate_nil, List.nil_append, gone]
    rfl
  · obtain ⟨first, text, front, final, starts, closes, head, last⟩ :=
      intercalate_ends (s := s) some solid
    have front_kept : ([s].intercalate words ++ tail).dropWhile white =
        [s].intercalate words ++ tail := by
      rw [head, List.append_assoc, dropWhile_solid starts]
    have back_kept : ([s].intercalate words).reverse.dropWhile white =
        ([s].intercalate words).reverse := by
      rw [last, List.reverse_append, dropWhile_solid closes.reverse]
    rw [trim, dropWhile_ends begins blank, front_kept, List.reverse_append,
      dropWhile_ends mirrored blank, back_kept, List.reverse_reverse]

/-! ### Both -/

theorem Spaced.solid {words : List (List α)} {text : List α} (spaced : Spaced white words text) :
    ∀ word ∈ words, Solid white word := by
  induction spaced with
  | blank _ => intro word mem; cases mem
  | last _ solid _ =>
      intro word mem
      obtain rfl := List.mem_singleton.mp mem
      exact solid
  | word _ solid _ _ ih =>
      intro w mem
      rcases List.mem_cons.mp mem with rfl | later
      · exact solid
      · exact ih w later

/-- Collapsed and trimmed, a text is its words with one separator between them. -/
theorem trim_squeeze {words : List (List α)} {text : List α} (blank : white s = true)
    (spaced : Spaced white words text) :
    trim white (squeeze white s false text) = [s].intercalate words := by
  obtain ⟨lead, begins, whole⟩ := squeeze_starts white s text
  obtain ⟨tail, ends, inner⟩ := spaced.squeezed (s := s)
  rw [whole, inner, trim_intercalate blank begins ends spaced.solid]

end Lib
