/-
Module: GyreWard.Lib.Quotes
Purpose: Quoted literals in which a quote stands for itself when it is doubled.
Trusted boundary: human-reviewed spec (`readLiteral`, `undouble`)
Main exports: double, undouble, readLiteral, undouble_double, readLiteral_double
-/
import Mathlib.Data.List.Basic

namespace Lib

variable {α : Type} [DecidableEq α]

/-- A text with every quote doubled. -/
def double (quote : α) (s : List α) : List α :=
  s.flatMap fun c => if c = quote then [quote, quote] else [c]

/-- A text with every pair of quotes read as one. -/
def undouble (quote : α) : List α → List α
  | [] => []
  | [c] => [c]
  | c :: d :: rest =>
      if c = quote ∧ d = quote then quote :: undouble quote rest
      else c :: undouble quote (d :: rest)

/-- The inside of a literal behind its opening quote, up to the quote that closes it, and what stands
behind that. -/
def readInside (quote : α) : List α → Option (List α × List α)
  | [] => none
  | [c] => if c = quote then some ([], []) else none
  | c :: d :: rest =>
      if c = quote then
        if d = quote then (readInside quote rest).map fun (s, rest) => (quote :: s, rest)
        else some ([], d :: rest)
      else (readInside quote (d :: rest)).map fun (s, rest) => (c :: s, rest)

/-- A literal at the front of a text: what it stands for, and what is behind it. -/
def readLiteral (quote : α) : List α → Option (List α × List α)
  | [] => none
  | c :: rest => if c = quote then readInside quote rest else none

variable {quote : α}

@[simp] theorem double_quote (s : List α) : double quote (quote :: s) = quote :: quote :: double quote s := by
  simp [double]

theorem double_other {c : α} (other : c ≠ quote) (s : List α) :
    double quote (c :: s) = c :: double quote s := by
  simp [double, other]

theorem undouble_other {c : α} (other : c ≠ quote) (s : List α) :
    undouble quote (c :: s) = c :: undouble quote s := by
  cases s with
  | nil => rfl
  | cons d s => rw [undouble, if_neg fun both => other both.1]

@[simp] theorem undouble_double (s : List α) : undouble quote (double quote s) = s := by
  induction s with
  | nil => rfl
  | cons c s ih =>
      by_cases same : c = quote
      case pos => rw [same, double_quote, undouble, if_pos ⟨rfl, rfl⟩, ih]
      case neg => rw [double_other same, undouble_other same, ih]

theorem readInside_other {c : α} (other : c ≠ quote) (s : List α) :
    readInside quote (c :: s) = (readInside quote s).map fun (s, rest) => (c :: s, rest) := by
  cases s with
  | nil => simp [readInside, other]
  | cons d s => rw [readInside, if_neg other]

/-- A closing quote that no quote follows closes. -/
theorem readInside_close {rest : List α} (closed : rest.head? ≠ some quote) :
    readInside quote (quote :: rest) = some ([], rest) := by
  cases rest with
  | nil => rw [readInside, if_pos rfl]
  | cons d rest =>
      have other : d ≠ quote := fun same => closed (congrArg some same)
      rw [readInside, if_pos rfl, if_neg other]

/-- A text with its quotes doubled is the inside of one literal, whatever follows but a quote. -/
theorem readInside_double (s : List α) {rest : List α} (closed : rest.head? ≠ some quote) :
    readInside quote (double quote s ++ quote :: rest) = some (s, rest) := by
  induction s with
  | nil => exact readInside_close closed
  | cons c s ih =>
      by_cases same : c = quote
      case pos =>
          rw [same, double_quote, List.cons_append, List.cons_append, readInside, if_pos rfl,
            if_pos rfl, ih]
          rfl
      case neg =>
          rw [double_other same, List.cons_append, readInside_other same, ih]
          rfl

theorem readLiteral_double (s : List α) {rest : List α} (closed : rest.head? ≠ some quote) :
    readLiteral quote (quote :: (double quote s ++ quote :: rest)) = some (s, rest) := by
  rw [readLiteral, if_pos rfl, readInside_double s closed]

end Lib
