/-
Module: GyreWard.Lib.Crash
Purpose: Calls whose process may stop on the way, and the rules for what it leaves behind when it does.
Trusted boundary: none
Main exports: Action.Ends, Action.Ends.bind, Action.Ends.last, Action.Ends.attempt, Action.Ends.forEach,
  Action.Ends.mono, Action.Ends.keeps
-/
import GyreWard.Lib.Action

namespace Lib.Action

variable {σ α β ι : Type}

/-- After the call from `s`: `Q` if it returned, `E` if it failed, `D` if it never came back, about the state it
left.  A process that stops is a call that never comes back, and the state is what is left for the next one. -/
def Ends (x : Action σ α) (Q : α → σ → Prop) (E D : σ → Prop) (s : σ) : Prop :=
  match x s with
  | (.ret a, s') => Q a s'
  | (.fail, s') => E s'
  | (.halt, s') => D s'

namespace Ends

variable {Q : α → σ → Prop} {E D : σ → Prop} {s : σ}

theorem of_ret {x : Action σ α} {a : α} {s' : σ} (run : x s = (.ret a, s')) (after : Q a s') :
    Ends x Q E D s := by
  rw [Ends, run]
  exact after

theorem ret {x : Action σ α} {a : α} {s' : σ} (ends : Ends x Q E D s) (run : x s = (.ret a, s')) :
    Q a s' := by
  rw [Ends, run] at ends
  exact ends

theorem err {x : Action σ α} {s' : σ} (ends : Ends x Q E D s) (run : x s = (.fail, s')) : E s' := by
  rw [Ends, run] at ends
  exact ends

theorem died {x : Action σ α} {s' : σ} (ends : Ends x Q E D s) (run : x s = (.halt, s')) : D s' := by
  rw [Ends, run] at ends
  exact ends

@[simp] theorem read_iff (f : σ → α) : Ends (Action.read f) Q E D s ↔ Q (f s) s := Iff.rfl

@[simp] theorem modify_iff {Q : Unit → σ → Prop} (f : σ → σ) :
    Ends (Action.modify f) Q E D s ↔ Q () (f s) := Iff.rfl

theorem mono {Q' : α → σ → Prop} {E' D' : σ → Prop} {x : Action σ α} (ends : Ends x Q E D s)
    (returned : ∀ a s', Q a s' → Q' a s') (failed : ∀ s', E s' → E' s') (stopped : ∀ s', D s' → D' s') :
    Ends x Q' E' D' s := by
  unfold Ends at ends ⊢
  rcases run : x s with ⟨_ | _ | _, s'⟩ <;> rw [run] at ends
  · exact returned _ _ ends
  · exact failed _ ends
  · exact stopped _ ends

theorem bind_iff {Q : β → σ → Prop} {x : Action σ α} {next : α → Action σ β} :
    Ends (x >>= next) Q E D s ↔ Ends x (fun a => Ends (next a) Q E D) E D s := by
  unfold Ends
  rw [bind_apply]
  rcases x s with ⟨_ | _ | _, _⟩ <;> rfl

theorem bind {Q : β → σ → Prop} {x : Action σ α} {next : α → Action σ β}
    (ends : Ends x (fun a => Ends (next a) Q E D) E D s) : Ends (x >>= next) Q E D s :=
  bind_iff.mpr ends

/-- The rest of a call, from what its first part comes to. -/
theorem andThen {R : α → σ → Prop} {E' D' : σ → Prop} {Q : β → σ → Prop} {x : Action σ α}
    {next : α → Action σ β} (first : Ends x R E' D' s) (rest : ∀ a s', R a s' → Ends (next a) Q E D s')
    (failed : ∀ s', E' s' → E s') (stopped : ∀ s', D' s' → D s') : Ends (x >>= next) Q E D s :=
  bind (first.mono rest failed stopped)

/-- What comes of the last part of a call whenever it comes back comes of the call whenever it does. -/
theorem last {Q : β → σ → Prop} {x : Action σ α} {next : α → Action σ β}
    (each : ∀ a s', Ends (next a) Q (fun _ => True) (fun _ => True) s') :
    Ends (x >>= next) Q (fun _ => True) (fun _ => True) s := by
  apply bind
  unfold Ends
  rcases x s with ⟨a | _ | _, s'⟩
  · exact each a s'
  · trivial
  · trivial

theorem attempt {x : Action σ α} {Q : Option α → σ → Prop}
    (ends : Ends x (fun a => Q (some a)) (Q none) D s) : Ends (Action.attempt x) Q E D s := by
  unfold Ends at ends
  unfold Ends Action.attempt
  rcases run : x s with ⟨_ | _ | _, _⟩ <;> rw [run] at ends <;> exact ends

theorem ite {c : Prop} [Decidable c] {x y : Action σ α} (yes : c → Ends x Q E D s)
    (no : ¬ c → Ends y Q E D s) : Ends (if c then x else y) Q E D s := by
  split
  · exact yes ‹_›
  · exact no ‹_›

/-- The loop rule: an invariant that each turn keeps, or else the loop fails in `E` or stops in `D`. -/
theorem forEach {I : List ι → σ → Prop} {body : ι → Action σ Unit} :
    ∀ {items : List ι} {s : σ}, I items s →
      (∀ i rest s, I (i :: rest) s → Ends (body i) (fun _ => I rest) E D s) →
      Ends (Action.forEach items body) (fun _ => I []) E D s
  | [], _, start, _ => start
  | i :: rest, s, start, step =>
      bind ((step i rest s start).mono (fun _ _ next => forEach next step) (fun _ h => h) fun _ h => h)

theorem keeps {I : σ → Prop} {x : Action σ α} (ends : Ends x (fun _ => I) I I s) : I (x s).2 := by
  unfold Ends at ends
  rcases run : x s with ⟨_ | _ | _, _⟩ <;> rw [run] at ends <;> exact ends

end Ends

end Lib.Action
