/-
Module: GyreWard.Lib.Calls
Purpose: Where a piece of code makes its calls: every one of them, in a state in which it may be made.
Trusted boundary: none
Main exports: Action.Abides, Action.Abides.mono, Action.Abides.keeps, Action.Safely, Action.Safely.bind,
  Action.Safely.forEach, Action.MadeOf.safely
-/
import GyreWard.Lib.Action

namespace Lib

namespace Action

/-!
A postcondition says how a call leaves the state.  It does not say what was done on the way, and
a write to the wrong place that is overwritten later is invisible to it.  So the calls themselves
are looked at, each in the state in which the run makes it.
-/

variable {σ α β ι : Type}

/-- Every call that the code makes when it runs from a state is allowed where it is made.  Code that
returns, gives up or reads makes none. -/
inductive Abides (allowed : (α : Type) → Action σ α → σ → Prop) :
    (α : Type) → Action σ α → σ → Prop where
  | call {α : Type} {x : Action σ α} {s : σ} (may : allowed α x s) : Abides allowed α x s
  | pure {α : Type} (a : α) (s : σ) : Abides allowed α (pure a) s
  | fail {α : Type} (s : σ) : Abides allowed α fail s
  | halt {α : Type} (s : σ) : Abides allowed α halt s
  | read {α : Type} (f : σ → α) (s : σ) : Abides allowed α (read f) s
  | bind {α β : Type} {x : Action σ α} {next : α → Action σ β} {s : σ}
      (first : Abides allowed α x s)
      (rest : ∀ a s', x s = (.ret a, s') → Abides allowed β (next a) s') :
      Abides allowed β (x >>= next) s
  | attempt {α : Type} {x : Action σ α} {s : σ} (call : Abides allowed α x s) :
      Abides allowed (Option α) (attempt x) s
  | onFail {α : Type} {x : Action σ α} {cleanUp : Action σ Unit} {s : σ}
      (call : Abides allowed α x s)
      (label : ∀ s', x s = (.fail, s') → Abides allowed Unit cleanUp s') :
      Abides allowed α (onFail x cleanUp) s

variable {allowed larger : (α : Type) → Action σ α → σ → Prop}

/-- What is allowed may be described more generously. -/
theorem Abides.mono {x : Action σ α} {s : σ} (abides : Abides allowed α x s)
    (covers : ∀ (β : Type) (y : Action σ β) (s : σ), allowed β y s → larger β y s) :
    Abides larger α x s := by
  induction abides with
  | call may => exact .call (covers _ _ _ may)
  | pure a s => exact .pure a s
  | fail s => exact .fail s
  | halt s => exact .halt s
  | read f s => exact .read f s
  | bind _ _ ihFirst ihRest => exact .bind ihFirst ihRest
  | attempt _ ih => exact .attempt ih
  | onFail _ _ ihCall ihLabel => exact .onFail ihCall ihLabel

/-- What every allowed call keeps, a run that makes no others keeps. -/
theorem Abides.keeps {I : σ → Prop} {x : Action σ α} {s : σ} (abides : Abides allowed α x s)
    (each : ∀ (β : Type) (y : Action σ β) (s : σ), allowed β y s → I s → I (y s).2) (start : I s) :
    I (x s).2 := by
  induction abides with
  | call may => exact each _ _ _ may start
  | pure a s => exact start
  | fail s => exact start
  | halt s => exact start
  | read f s => exact start
  | @bind α β x next s _ _ ihFirst ihRest =>
      have kept := ihFirst start
      rw [bind_apply]
      rcases first : x s with ⟨_ | _ | _, middle⟩
      · rw [first] at kept
        exact ihRest _ middle first kept
      · rw [first] at kept
        exact kept
      · rw [first] at kept
        exact kept
  | @attempt α x s _ ih =>
      have kept := ih start
      unfold Action.attempt
      rcases call : x s with ⟨_ | _ | _, after⟩
      · rw [call] at kept
        exact kept
      · rw [call] at kept
        exact kept
      · rw [call] at kept
        exact kept
  | @onFail α x cleanUp s _ _ ihCall ihLabel =>
      have kept := ihCall start
      unfold Action.onFail
      rcases call : x s with ⟨_ | _ | _, after⟩
      · rw [call] at kept
        exact kept
      · rw [call] at kept
        have cleaned := ihLabel after call kept
        rcases label : cleanUp after with ⟨_ | _ | _, last⟩
        · rw [label] at cleaned
          simp only [label]
          exact cleaned
        · rw [label] at cleaned
          simp only [label]
          exact cleaned
        · rw [label] at cleaned
          simp only [label]
          exact cleaned
      · rw [call] at kept
        exact kept

/-! ### Calls and what comes of them -/

/-- Run from `s`, the code makes only calls that are allowed; then `Q` holds if it returned and `E` if
it failed. -/
structure Safely (allowed : (α : Type) → Action σ α → σ → Prop) (x : Action σ α)
    (Q : α → σ → Prop) (E : σ → Prop) (s : σ) : Prop where
  abides : Abides allowed α x s
  ends : wp x Q E s

namespace Safely

variable {x : Action σ α} {Q : α → σ → Prop} {E : σ → Prop} {s : σ}

theorem call (may : allowed α x s) (ends : wp x Q E s) : Safely allowed x Q E s :=
  ⟨.call may, ends⟩

theorem pure {a : α} (after : Q a s) : Safely allowed (Pure.pure a) Q E s :=
  ⟨.pure a s, after⟩

theorem fail (after : E s) : Safely allowed (Action.fail : Action σ α) Q E s :=
  ⟨.fail s, after⟩

theorem halt : Safely allowed (Action.halt : Action σ α) Q E s := ⟨.halt s, trivial⟩

theorem mono {Q' : α → σ → Prop} {E' : σ → Prop} (safely : Safely allowed x Q E s)
    (ret : ∀ a s', Q a s' → Q' a s') (err : ∀ s', E s' → E' s') : Safely allowed x Q' E' s :=
  ⟨safely.abides, wp_mono safely.ends ret err⟩

theorem bind {Q : β → σ → Prop} {next : α → Action σ β}
    (first : Safely allowed x (fun a s' => Safely allowed (next a) Q E s') E s) :
    Safely allowed (x >>= next) Q E s := by
  constructor
  · apply Abides.bind first.abides
    intro a s' ran
    exact (wp_ret first.ends ran).abides
  · rw [wp_bind]
    exact wp_mono first.ends (fun a s' safely => safely.ends) fun _ err => err

/-- What is read is known, and nothing has changed. -/
theorem read {Q : β → σ → Prop} {f : σ → α} {next : α → Action σ β}
    (rest : Safely allowed (next (f s)) Q E s) : Safely allowed (Action.read f >>= next) Q E s :=
  bind ⟨.read f s, rest⟩

theorem attempt {Q : Option α → σ → Prop}
    (safely : Safely allowed x (fun a => Q (some a)) (Q none) s) :
    Safely allowed (Action.attempt x) Q E s := by
  constructor
  · exact .attempt safely.abides
  · rw [wp_attempt]
    exact safely.ends

/-- What a label finds is what the call failed with. -/
theorem onFail {F : σ → Prop} {cleanUp : Action σ Unit} (call : Safely allowed x Q F s)
    (label : ∀ s', F s' → Safely allowed cleanUp (fun _ => E) E s') :
    Safely allowed (Action.onFail x cleanUp) Q E s := by
  constructor
  · apply Abides.onFail call.abides
    intro s' failed
    exact (label s' (wp_err call.ends failed)).abides
  · rw [wp_onFail]
    exact wp_mono call.ends (fun _ _ kept => kept) fun s' kept => (label s' kept).ends

theorem ite {c : Prop} [Decidable c] {y : Action σ α} (yes : c → Safely allowed x Q E s)
    (no : ¬ c → Safely allowed y Q E s) : Safely allowed (if c then x else y) Q E s := by
  split
  · exact yes ‹_›
  · exact no ‹_›

/-- The loop rule, for the calls and the invariant at once. -/
theorem forEach {I : List ι → σ → Prop} {body : ι → Action σ Unit} {items : List ι}
    (start : I items s)
    (step : ∀ i rest s, I (i :: rest) s → Safely allowed (body i) (fun _ => I rest) E s) :
    Safely allowed (Action.forEach items body) (fun _ => I []) E s := by
  induction items generalizing s with
  | nil => exact pure start
  | cons i rest ih =>
      change Safely allowed (body i >>= fun _ => Action.forEach rest body) _ _ _
      exact bind ((step i rest s start).mono (fun _ _ next => ih next) fun _ err => err)

end Safely

/-- Code put together from moves makes only calls that are allowed if each move does, from a state
with the invariant and back to one. -/
theorem MadeOf.safely {move : (α : Type) → Action σ α → Prop} {I : σ → Prop} {x : Action σ α}
    (made : MadeOf move α x)
    (each : ∀ (β : Type) (y : Action σ β), move β y → ∀ s, I s →
      Safely allowed y (fun _ => I) I s) {s : σ} (start : I s) :
    Safely allowed x (fun _ => I) I s := by
  induction made generalizing s with
  | move isMove => exact each _ _ isMove s start
  | pure a => exact .pure start
  | fail => exact .fail start
  | halt => exact .halt
  | read f => exact ⟨.read f s, start⟩
  | bind _ _ ihFirst ihRest =>
      exact .bind ((ihFirst start).mono (fun a s' kept => ihRest a kept) fun _ kept => kept)
  | attempt _ ih => exact .attempt (ih start)
  | onFail _ _ ihCall ihLabel => exact .onFail (ihCall start) fun _ kept => ihLabel kept

end Action

end Lib
