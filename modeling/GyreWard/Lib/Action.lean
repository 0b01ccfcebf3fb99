/-
Module: GyreWard.Lib.Action
Purpose: Imperative calls that may fail after taking effect, and the rules for reasoning about them.
Trusted boundary: none
Main exports: Result, Action, Action.attempt, Action.onFail, Action.forEach,
  Action.Leaves, Action.Keeps, Action.MadeOf, Action.MadeOf.keeps, Action.Finishes,
  Action.Unfailing, Action.wp, Action.Along, Action.Lands
-/
import Mathlib.Logic.Basic

namespace Lib

/-!
A C function that returns an error code has usually done something by the time it returns it.
So a failed call is not a call that did nothing: the state it leaves behind is part of its
result.  An `Action` keeps that state in every outcome, which is the one difference from the
usual exception monads over a state.
-/

/-- How a call comes back: with a value, with an error, or never. -/
inductive Result (α : Type) where
  | ret (value : α)
  | fail
  | halt
deriving DecidableEq, Repr

/-- A call over a state, with the state it leaves behind whatever its result. -/
def Action (σ α : Type) := σ → Result α × σ

namespace Action

variable {σ α β ι : Type}

protected def pure (a : α) : Action σ α := fun s => (.ret a, s)

protected def bind (x : Action σ α) (next : α → Action σ β) : Action σ β := fun s =>
  match x s with
  | (.ret a, s') => next a s'
  | (.fail, s') => (.fail, s')
  | (.halt, s') => (.halt, s')

instance : Monad (Action σ) where
  pure := Action.pure
  bind := Action.bind

/-- Return an error, with nothing undone. -/
def fail : Action σ α := fun s => (.fail, s)

/-- Never return. -/
def halt : Action σ α := fun s => (.halt, s)

/-- Read something off the state. -/
def read (f : σ → α) : Action σ α := fun s => (.ret (f s), s)

/-- Change the state, without failing. -/
def modify (f : σ → σ) : Action σ Unit := fun s => (.ret (), f s)

/-- Call and look at the return code instead of passing an error on. -/
def attempt (x : Action σ α) : Action σ (Option α) := fun s =>
  match x s with
  | (.ret a, s') => (.ret (some a), s')
  | (.fail, s') => (.ret none, s')
  | (.halt, s') => (.halt, s')

/-- `goto` a label on error: run the clean-up there, then return the error. -/
def onFail (x : Action σ α) (cleanUp : Action σ Unit) : Action σ α := fun s =>
  match x s with
  | (.fail, s') =>
      match cleanUp s' with
      | (.halt, s'') => (.halt, s'')
      | (_, s'') => (.fail, s'')
  | other => other

/-- A `for` loop whose body may fail. -/
def forEach : List ι → (ι → Action σ Unit) → Action σ Unit
  | [], _ => Action.pure ()
  | i :: rest, body => Action.bind (body i) fun _ => forEach rest body

/-! ### Running one call after another -/

@[simp] theorem pure_apply (a : α) (s : σ) : (pure a : Action σ α) s = (.ret a, s) := rfl

theorem bind_apply (x : Action σ α) (next : α → Action σ β) (s : σ) :
    (x >>= next) s =
      match x s with
      | (.ret a, s') => next a s'
      | (.fail, s') => (.fail, s')
      | (.halt, s') => (.halt, s') := rfl

@[simp] theorem fail_apply (s : σ) : (fail : Action σ α) s = (.fail, s) := rfl

@[simp] theorem halt_apply (s : σ) : (halt : Action σ α) s = (.halt, s) := rfl

@[simp] theorem read_apply (f : σ → α) (s : σ) : (read f) s = (.ret (f s), s) := rfl

@[simp] theorem modify_apply (f : σ → σ) (s : σ) : (modify f) s = (.ret (), f s) := rfl

theorem bind_ret {x : Action σ α} {next : α → Action σ β} {s s' : σ} {a : α}
    (h : x s = (.ret a, s')) : (x >>= next) s = next a s' := by
  rw [bind_apply, h]

theorem bind_fail {x : Action σ α} {next : α → Action σ β} {s s' : σ}
    (h : x s = (.fail, s')) : (x >>= next) s = (.fail, s') := by
  rw [bind_apply, h]

theorem pure_eq_ret {a b : α} {s s' : σ} (h : (pure a : Action σ α) s = (.ret b, s')) :
    a = b ∧ s = s' := by
  obtain ⟨value, state⟩ := Prod.mk.inj h
  exact ⟨Result.ret.inj value, state⟩

/-- A sequence that returned went through its first part. -/
theorem bind_eq_ret {x : Action σ α} {next : α → Action σ β} {s s' : σ} {b : β}
    (h : (x >>= next) s = (.ret b, s')) :
    ∃ a middle, x s = (.ret a, middle) ∧ next a middle = (.ret b, s') := by
  rw [bind_apply] at h
  rcases first : x s with ⟨_ | _ | _, middle⟩
  · rw [first] at h
    exact ⟨_, middle, rfl, h⟩
  · simp [first] at h
  · simp [first] at h

/-- What returned past a label never went there. -/
theorem onFail_eq_ret {x : Action σ α} {cleanUp : Action σ Unit} {s s' : σ} {a : α}
    (h : onFail x cleanUp s = (.ret a, s')) : x s = (.ret a, s') := by
  unfold onFail at h
  cases run : x s with
  | mk result middle =>
      cases result with
      | ret b =>
          simp only [run] at h
          exact h
      | fail =>
          simp only [run] at h
          cases cleaned : cleanUp middle with
          | mk label after => cases label <;> simp [cleaned] at h
      | halt => simp [run] at h

/-- An attempt that returned tells what came of it. -/
theorem attempt_eq_ret {x : Action σ α} {s s' : σ} {r : Option α}
    (h : attempt x s = (.ret r, s')) :
    (∃ a, r = some a ∧ x s = (.ret a, s')) ∨ r = none ∧ x s = (.fail, s') := by
  unfold attempt at h
  cases run : x s with
  | mk result middle =>
      cases result with
      | ret a =>
          simp only [run, Prod.mk.injEq, Result.ret.injEq] at h
          exact Or.inl ⟨a, h.1.symm, h.2 ▸ rfl⟩
      | fail =>
          simp only [run, Prod.mk.injEq, Result.ret.injEq] at h
          exact Or.inr ⟨h.1.symm, h.2 ▸ rfl⟩
      | halt => simp [run] at h

theorem attempt_ret {x : Action σ α} {s s' : σ} {a : α} (h : x s = (.ret a, s')) :
    attempt x s = (.ret (some a), s') := by
  rw [attempt, h]

theorem attempt_fail {x : Action σ α} {s s' : σ} (h : x s = (.fail, s')) :
    attempt x s = (.ret none, s') := by
  rw [attempt, h]

instance : LawfulMonad (Action σ) := by
  refine LawfulMonad.mk' _ ?_ ?_ ?_
  · intro α x
    funext s
    change Action.bind x _ s = x s
    unfold Action.bind
    rcases x s with ⟨_ | _ | _, _⟩ <;> rfl
  · intros
    rfl
  · intro α β γ x f g
    funext s
    change Action.bind (Action.bind x f) g s = Action.bind x (fun a => Action.bind (f a) g) s
    unfold Action.bind
    rcases x s with ⟨_ | _ | _, _⟩ <;> rfl

/-! ### What a call does not touch -/

/-- The call leaves the view `f` of the state as it was, whatever its result. -/
def Leaves (f : σ → β) (x : Action σ α) : Prop :=
  ∀ s, f (x s).2 = f s

/-- The call keeps the invariant `I`, whatever its result. -/
def Keeps (I : σ → Prop) (x : Action σ α) : Prop :=
  ∀ s, I s → I (x s).2

theorem Leaves.keeps {f : σ → β} {x : Action σ α} (h : Leaves f x) (P : β → Prop) :
    Keeps (fun s => P (f s)) x := by
  intro s hs
  rw [h s]
  exact hs

theorem leaves_of_keeps {f : σ → β} {x : Action σ α}
    (h : ∀ c, Keeps (fun s => f s = c) x) : Leaves f x :=
  fun s => h (f s) s rfl

theorem Leaves.comp {γ : Type} {f : σ → β} {x : Action σ α} (h : Leaves f x) (g : β → γ) :
    Leaves (fun s => g (f s)) x :=
  fun s => congrArg g (h s)

/-! ### Calls put together from moves -/

/-- Code put together from given moves by sequencing, branching, looping, looking at return
codes and cleaning up.  What the moves keep, the code keeps. -/
inductive MadeOf (move : (α : Type) → Action σ α → Prop) : (α : Type) → Action σ α → Prop where
  | move {α : Type} {x : Action σ α} (isMove : move α x) : MadeOf move α x
  | pure {α : Type} (a : α) : MadeOf move α (pure a)
  | fail {α : Type} : MadeOf move α fail
  | halt {α : Type} : MadeOf move α halt
  | read {α : Type} (f : σ → α) : MadeOf move α (read f)
  | bind {α β : Type} {x : Action σ α} {next : α → Action σ β}
      (first : MadeOf move α x) (rest : ∀ a, MadeOf move β (next a)) :
      MadeOf move β (x >>= next)
  | attempt {α : Type} {x : Action σ α} (call : MadeOf move α x) :
      MadeOf move (Option α) (attempt x)
  | onFail {α : Type} {x : Action σ α} {cleanUp : Action σ Unit}
      (call : MadeOf move α x) (label : MadeOf move Unit cleanUp) :
      MadeOf move α (onFail x cleanUp)

namespace MadeOf

variable {move larger : (α : Type) → Action σ α → Prop}

theorem ite {c : Prop} [Decidable c] {x y : Action σ α}
    (yes : c → MadeOf move α x) (no : ¬ c → MadeOf move α y) :
    MadeOf move α (if c then x else y) := by
  split
  · exact yes ‹_›
  · exact no ‹_›

/-- An `if` that returns an error, in front of the rest. -/
theorem guard {c : Prop} [Decidable c] {rest : Unit → Action σ α}
    (made : MadeOf move α (rest ())) :
    MadeOf move α (if c then Action.fail >>= rest else rest ()) :=
  ite (fun _ => .bind .fail fun _ => made) fun _ => made

theorem forEach {body : ι → Action σ Unit} :
    ∀ {items : List ι}, (∀ i ∈ items, MadeOf move Unit (body i)) →
      MadeOf move Unit (forEach items body)
  | [], _ => .pure ()
  | _ :: _, each =>
      .bind (each _ (List.mem_cons_self ..)) fun _ =>
        forEach fun i hi => each i (List.mem_cons_of_mem _ hi)

/-- Code made of code made of moves is made of those moves. -/
theorem mono {x : Action σ α} (made : MadeOf move α x)
    (covers : ∀ (β : Type) (y : Action σ β), move β y → MadeOf larger β y) :
    MadeOf larger α x := by
  induction made with
  | move isMove => exact covers _ _ isMove
  | pure a => exact .pure a
  | fail => exact .fail
  | halt => exact .halt
  | read f => exact .read f
  | bind _ _ ihFirst ihRest => exact .bind ihFirst ihRest
  | attempt _ ih => exact .attempt ih
  | onFail _ _ ihCall ihLabel => exact .onFail ihCall ihLabel

/-- What every move keeps, the code made of them keeps. -/
theorem keeps {I : σ → Prop} {x : Action σ α} (made : MadeOf move α x)
    (each : ∀ (β : Type) (y : Action σ β), move β y → Keeps I y) : Keeps I x := by
  induction made with
  | move isMove => exact each _ _ isMove
  | pure a => exact fun s hs => hs
  | fail => exact fun s hs => hs
  | halt => exact fun s hs => hs
  | read f => exact fun s hs => hs
  | @bind α β x next _ _ ihFirst ihRest =>
      intro s hs
      have kept := ihFirst s hs
      rw [bind_apply]
      rcases first : x s with ⟨_ | _ | _, middle⟩ <;> rw [first] at kept
      · exact ihRest _ middle kept
      · exact kept
      · exact kept
  | @attempt α x _ ih =>
      intro s hs
      have kept := ih s hs
      unfold Action.attempt
      rcases call : x s with ⟨_ | _ | _, after⟩ <;> rw [call] at kept <;> exact kept
  | @onFail α x cleanUp _ _ ihCall ihLabel =>
      intro s hs
      have kept := ihCall s hs
      unfold Action.onFail
      rcases call : x s with ⟨_ | _ | _, after⟩ <;> rw [call] at kept
      · exact kept
      · have cleaned := ihLabel after kept
        rcases label : cleanUp after with ⟨_ | _ | _, last⟩ <;> rw [label] at cleaned
          <;> simpa [label] using cleaned
      · exact kept

/-- A view every move leaves alone is left alone by the code made of them. -/
theorem leaves {f : σ → β} {x : Action σ α} (made : MadeOf move α x)
    (each : ∀ (γ : Type) (y : Action σ γ), move γ y → Leaves f y) : Leaves f x :=
  leaves_of_keeps fun _ => made.keeps fun _ y isMove => (each _ y isMove).keeps (· = _)

end MadeOf

/-! ### Calls that come back -/

/-- The call comes back, with a value or with an error. -/
def Finishes (x : Action σ α) : Prop := ∀ s, (x s).1 ≠ .halt

namespace Finishes

variable {x : Action σ α}

theorem pure (a : α) : Finishes (pure a : Action σ α) := fun _ => nofun

theorem fail : Finishes (fail : Action σ α) := fun _ => nofun

theorem read (f : σ → α) : Finishes (read f) := fun _ => nofun

theorem modify (f : σ → σ) : Finishes (modify f) := fun _ => nofun

theorem bind {next : α → Action σ β} (first : Finishes x) (rest : ∀ a, Finishes (next a)) :
    Finishes (x >>= next) := by
  intro s
  rw [bind_apply]
  have came := first s
  rcases run : x s with ⟨_ | _ | _, s'⟩
  · exact rest _ s'
  · exact nofun
  · exact absurd (congrArg Prod.fst run) came

theorem attempt (call : Finishes x) : Finishes (attempt x) := by
  intro s
  have came := call s
  unfold Action.attempt
  rcases run : x s with ⟨_ | _ | _, s'⟩
  · exact nofun
  · exact nofun
  · exact absurd (congrArg Prod.fst run) came

theorem onFail {cleanUp : Action σ Unit} (call : Finishes x) (label : Finishes cleanUp) :
    Finishes (onFail x cleanUp) := by
  intro s
  have came := call s
  unfold Action.onFail
  rcases run : x s with ⟨_ | _ | _, s'⟩
  · exact nofun
  · have cleaned := label s'
    rcases last : cleanUp s' with ⟨_ | _ | _, s''⟩ <;> simp_all
  · exact absurd (congrArg Prod.fst run) came

theorem ite {c : Prop} [Decidable c] {y : Action σ α} (yes : Finishes x) (no : Finishes y) :
    Finishes (if c then x else y) := by
  split
  · exact yes
  · exact no

theorem forEach {body : ι → Action σ Unit} (each : ∀ i, Finishes (body i)) :
    ∀ items : List ι, Finishes (forEach items body)
  | [] => pure ()
  | _ :: rest => bind (each _) fun _ => forEach each rest

end Finishes

/-! ### Calls that return no error -/

/-- The call returns no error, whatever fails on the way. -/
def Unfailing (x : Action σ α) : Prop := ∀ s, (x s).1 ≠ .fail

namespace Unfailing

variable {x : Action σ α}

theorem pure (a : α) : Unfailing (pure a : Action σ α) := fun _ same => by cases same

theorem read (f : σ → α) : Unfailing (read f) := fun _ same => by cases same

theorem modify (f : σ → σ) : Unfailing (modify f) := fun _ same => by cases same

theorem bind {next : α → Action σ β} (first : Unfailing x) (rest : ∀ a, Unfailing (next a)) :
    Unfailing (x >>= next) := by
  intro s
  have well := first s
  rw [bind_apply]
  rcases run : x s with ⟨_ | _ | _, s'⟩
  · exact rest _ s'
  · exact absurd (congrArg Prod.fst run) well
  · exact fun same => by cases same

theorem attempt (x : Action σ α) : Unfailing (attempt x) := by
  intro s
  unfold Action.attempt
  rcases x s with ⟨_ | _ | _, s'⟩
  · exact fun same => by cases same
  · exact fun same => by cases same
  · exact fun same => by cases same

theorem ite {c : Prop} [Decidable c] {y : Action σ α} (yes : Unfailing x) (no : Unfailing y) :
    Unfailing (if c then x else y) := by
  split
  · exact yes
  · exact no

end Unfailing

/-! ### What holds when a call comes back -/

/-- After the call from `s`, `Q` holds if it returned and `E` if it failed. -/
def wp (x : Action σ α) (Q : α → σ → Prop) (E : σ → Prop) (s : σ) : Prop :=
  match x s with
  | (.ret a, s') => Q a s'
  | (.fail, s') => E s'
  | (.halt, _) => True

section Rules

variable {Q : α → σ → Prop} {E : σ → Prop} {s : σ}

@[simp] theorem wp_pure (a : α) : wp (pure a) Q E s ↔ Q a s := Iff.rfl

@[simp] theorem wp_fail : wp (fail : Action σ α) Q E s ↔ E s := Iff.rfl

@[simp] theorem wp_halt : wp (halt : Action σ α) Q E s ↔ True := Iff.rfl

@[simp] theorem wp_read (f : σ → α) : wp (read f) Q E s ↔ Q (f s) s := Iff.rfl

@[simp] theorem wp_modify {Q : Unit → σ → Prop} (f : σ → σ) :
    wp (modify f) Q E s ↔ Q () (f s) := Iff.rfl

@[simp] theorem wp_bind {Q : β → σ → Prop} {x : Action σ α} {next : α → Action σ β} :
    wp (x >>= next) Q E s ↔ wp x (fun a => wp (next a) Q E) E s := by
  unfold wp
  rw [bind_apply]
  rcases x s with ⟨_ | _ | _, _⟩ <;> rfl

/-- The rest of a call, from where its first part came back. -/
theorem wp_bind_ret {Q : β → σ → Prop} {x : Action σ α} {next : α → Action σ β} {s' : σ} {a : α}
    (first : x s = (.ret a, s')) (rest : wp (next a) Q E s') : wp (x >>= next) Q E s := by
  unfold wp
  rw [bind_ret first]
  exact rest

@[simp] theorem wp_attempt {x : Action σ α} {Q : Option α → σ → Prop} :
    wp (attempt x) Q E s ↔ wp x (fun a => Q (some a)) (Q none) s := by
  unfold wp attempt
  rcases x s with ⟨_ | _ | _, _⟩ <;> rfl

theorem wp_onFail {x : Action σ α} {cleanUp : Action σ Unit} :
    wp (onFail x cleanUp) Q E s ↔ wp x Q (fun s' => wp cleanUp (fun _ => E) E s') s := by
  unfold wp onFail
  rcases x s with ⟨_ | _ | _, s'⟩ <;> try rfl
  rcases h : cleanUp s' with ⟨_ | _ | _, _⟩ <;> simp [h]

theorem wp_ite {c : Prop} [Decidable c] {x y : Action σ α} (yes : c → wp x Q E s)
    (no : ¬ c → wp y Q E s) : wp (if c then x else y) Q E s := by
  split
  · exact yes ‹_›
  · exact no ‹_›

theorem wp_mono {Q' : α → σ → Prop} {E' : σ → Prop} {x : Action σ α} (h : wp x Q E s)
    (ret : ∀ a s', Q a s' → Q' a s') (err : ∀ s', E s' → E' s') : wp x Q' E' s := by
  unfold wp at h ⊢
  rcases run : x s with ⟨_ | _ | _, s'⟩ <;> rw [run] at h
  · exact ret _ _ h
  · exact err _ h
  · trivial

theorem wp_and {Q' : α → σ → Prop} {E' : σ → Prop} {x : Action σ α}
    (h : wp x Q E s) (h' : wp x Q' E' s) :
    wp x (fun a s' => Q a s' ∧ Q' a s') (fun s' => E s' ∧ E' s') s := by
  unfold wp at h h' ⊢
  rcases run : x s with ⟨_ | _ | _, _⟩ <;> rw [run] at h h'
  · exact ⟨h, h'⟩
  · exact ⟨h, h'⟩
  · trivial

/-- Nothing is asked of a failure. -/
theorem wp_any {x : Action σ α} (ret : ∀ a s', Q a s') : wp x Q (fun _ => True) s := by
  unfold wp
  rcases x s with ⟨_ | _ | _, s'⟩
  · exact ret _ s'
  · trivial
  · trivial

/-- Nothing is asked of the first part, and nothing of a failure. -/
theorem wp_bind_any {Q : β → σ → Prop} {x : Action σ α} {next : α → Action σ β}
    (rest : ∀ a s', wp (next a) Q (fun _ => True) s') :
    wp (x >>= next) Q (fun _ => True) s := by
  rw [wp_bind]
  exact wp_any rest

/-- Whatever a call that returns an error does on the way, nothing is asked of it. -/
theorem wp_onFail_any {x : Action σ α} {cleanUp : Action σ Unit}
    (ret : wp x Q (fun _ => True) s) : wp (onFail x cleanUp) Q (fun _ => True) s := by
  rw [wp_onFail]
  exact wp_mono ret (fun _ _ h => h) fun s' _ => wp_any fun _ _ => trivial

/-- A call that leaves a view alone comes back to a state with the same view. -/
theorem Leaves.wp {f : σ → β} {x : Action σ α} (h : Leaves f x) (s : σ) :
    wp x (fun _ s' => f s' = f s) (fun s' => f s' = f s) s := by
  have same := h s
  unfold Action.wp
  rcases run : x s with ⟨_ | _ | _, s'⟩ <;> rw [run] at same
  · exact same
  · exact same
  · trivial

theorem Keeps.wp {I : σ → Prop} {x : Action σ α} (h : Keeps I x) (hs : I s) :
    wp x (fun _ => I) I s := by
  have kept := h s hs
  unfold Action.wp
  rcases run : x s with ⟨_ | _ | _, s'⟩ <;> rw [run] at kept
  · exact kept
  · exact kept
  · trivial

/-- The loop rule: an invariant each turn of the body keeps, or else the loop stops in `E`. -/
theorem wp_forEach {I : List ι → σ → Prop} {body : ι → Action σ Unit} :
    ∀ {items : List ι} {s : σ}, I items s →
      (∀ i rest s, I (i :: rest) s → wp (body i) (fun _ => I rest) E s) →
      wp (forEach items body) (fun _ => I []) E s
  | [], _, start, _ => start
  | i :: rest, s, start, step => by
      change Action.wp (body i >>= fun _ => forEach rest body) _ _ _
      rw [wp_bind]
      exact wp_mono (step i rest s start) (fun _ _ h => wp_forEach h step) (fun _ h => h)

theorem wp_ret {x : Action σ α} {a : α} {s' : σ} (h : wp x Q E s) (run : x s = (.ret a, s')) :
    Q a s' := by
  simpa [wp, run] using h

theorem wp_err {x : Action σ α} {s' : σ} (h : wp x Q E s) (run : x s = (.fail, s')) : E s' := by
  simpa [wp, run] using h

/-- What every move keeps when it comes back, the code made of them keeps when it comes back. -/
theorem MadeOf.wp {move : (α : Type) → Action σ α → Prop} {I : σ → Prop} {x : Action σ α}
    (made : MadeOf move α x)
    (each : ∀ (β : Type) (y : Action σ β), move β y → ∀ s, I s → wp y (fun _ => I) I s) :
    ∀ s, I s → Action.wp x (fun _ => I) I s := by
  induction made with
  | move isMove => exact each _ _ isMove
  | pure a => exact fun s hs => hs
  | fail => exact fun s hs => hs
  | halt => exact fun s hs => trivial
  | read f => exact fun s hs => hs
  | bind _ _ ihFirst ihRest =>
      intro s hs
      rw [wp_bind]
      exact wp_mono (ihFirst s hs) (fun a s' hs' => ihRest a s' hs') fun _ hs' => hs'
  | attempt _ ih =>
      intro s hs
      rw [wp_attempt]
      exact ih s hs
  | onFail _ _ ihCall ihLabel =>
      intro s hs
      rw [wp_onFail]
      exact wp_mono (ihCall s hs) (fun _ _ hs' => hs') fun s' hs' => ihLabel s' hs'

end Rules

/-! ### What every turn of a loop finds -/

/-- `P` holds of every turn of the loop, in the state the turn finds. -/
def Along (P : ι → σ → Prop) (body : ι → Action σ Unit) : List ι → σ → Prop
  | [], _ => True
  | i :: rest, s => P i s ∧ ∀ s', body i s = (.ret (), s') → Along P body rest s'

section Along

variable {P : ι → σ → Prop} {body : ι → Action σ Unit} {I : List ι → σ → Prop} {items : List ι} {s : σ}

/-- The loop rule, where every turn finds `P`. -/
theorem Along.run {s' : σ} (along : Along P body items s) (run : forEach items body s = (.ret (), s'))
    (start : I items s)
    (step : ∀ i rest s₁ s₂, I (i :: rest) s₁ → P i s₁ → body i s₁ = (.ret (), s₂) → I rest s₂) :
    I [] s' := by
  induction items generalizing s with
  | nil =>
      obtain ⟨-, rfl⟩ := pure_eq_ret run
      exact start
  | cons i rest ih =>
      obtain ⟨_, s₁, turn, after⟩ := bind_eq_ret run
      exact ih (along.2 s₁ turn) after (step i rest s s₁ start along.1 turn)

/-- Every turn found `P`, if that can be told of each turn from where the loop came to in the end. -/
theorem Along.of_run {s' : σ} (run : forEach items body s = (.ret (), s')) (start : I items s)
    (step : ∀ i rest s₁ s₂, I (i :: rest) s₁ → body i s₁ = (.ret (), s₂) →
      forEach rest body s₂ = (.ret (), s') → P i s₁ ∧ I rest s₂) : Along P body items s := by
  induction items generalizing s with
  | nil => trivial
  | cons i rest ih =>
      obtain ⟨_, s₁, turn, after⟩ := bind_eq_ret run
      have ⟨found, next⟩ := step i rest s s₁ start turn after
      refine ⟨found, ?_⟩
      intro s₂ turn'
      rw [turn] at turn'
      cases turn'
      exact ih after next

end Along

/-! ### That a call comes back -/

/-- The call from `s` returns, and then `Q` holds. -/
def Lands (x : Action σ α) (Q : α → σ → Prop) (s : σ) : Prop :=
  ∃ a s', x s = (.ret a, s') ∧ Q a s'

namespace Lands

variable {Q : α → σ → Prop} {s : σ}

theorem of_run {x : Action σ α} {a : α} {s' : σ} (run : x s = (.ret a, s')) (after : Q a s') :
    Lands x Q s :=
  ⟨a, s', run, after⟩

theorem mono {Q' : α → σ → Prop} {x : Action σ α} (lands : Lands x Q s)
    (weaker : ∀ a s', Q a s' → Q' a s') : Lands x Q' s := by
  have ⟨a, s', run, after⟩ := lands
  exact ⟨a, s', run, weaker a s' after⟩

/-- The call comes back, so whatever holds when it does, holds. -/
theorem wp {Q' : α → σ → Prop} {E : σ → Prop} {x : Action σ α} (lands : Lands x Q s)
    (partly : Action.wp x Q' E s) : Lands x (fun a s' => Q a s' ∧ Q' a s') s := by
  have ⟨a, s', run, after⟩ := lands
  exact ⟨a, s', run, after, wp_ret partly run⟩

theorem bind {Q : β → σ → Prop} {x : Action σ α} {next : α → Action σ β}
    (lands : Lands x (fun a s' => Lands (next a) Q s') s) : Lands (x >>= next) Q s := by
  have ⟨a, s', first, b, s'', rest, after⟩ := lands
  apply of_run _ after
  rw [bind_ret first, rest]

theorem forEach {I : List ι → σ → Prop} {body : ι → Action σ Unit} {items : List ι}
    (step : ∀ i rest s, I (i :: rest) s → Lands (body i) (fun _ => I rest) s) (start : I items s) :
    Lands (Action.forEach items body) (fun _ => I []) s := by
  induction items generalizing s with
  | nil => exact of_run rfl start
  | cons i rest ih =>
      change Lands (body i >>= fun _ => Action.forEach rest body) _ _
      exact bind ((step i rest s start).mono fun _ _ next => ih next)

end Lands

end Action

end Lib
