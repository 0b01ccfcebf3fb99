/-
Module: GyreWard.Lib.Lockstep
Purpose: Two runs of effectful code side by side: from states that are alike they come back with the
  same result, in states that are alike.
Trusted boundary: none
Main exports: Action.Same, Action.Lockstep, Action.Blind
-/
import GyreWard.Lib.Action

namespace Lib.Action

variable {σ α β ι : Type}

/-- Two outcomes are the same: the same value in states that `Q` relates, an error in states that `E`
relates, or neither comes back. -/
inductive Same (Q : α → σ → σ → Prop) (E : σ → σ → Prop) : Result α × σ → Result α × σ → Prop where
  | ret {a : α} {s t : σ} (after : Q a s t) : Same Q E (.ret a, s) (.ret a, t)
  | fail {s t : σ} (after : E s t) : Same Q E (.fail, s) (.fail, t)
  | halt {s t : σ} : Same Q E (.halt, s) (.halt, t)

/-- From states that `P` relates, `x` and `y` have the same outcome. -/
def Lockstep (P : σ → σ → Prop) (x y : Action σ α) (Q : α → σ → σ → Prop) (E : σ → σ → Prop) : Prop :=
  ∀ s t, P s t → Same Q E (x s) (y t)

/-- What `R` leaves open makes no difference to `x`, and `x` leaves no more open. -/
abbrev Blind (R : σ → σ → Prop) (x : Action σ α) : Prop := Lockstep R x x (fun _ => R) R

theorem Same.mono {Q Q' : α → σ → σ → Prop} {E E' : σ → σ → Prop} {p q : Result α × σ}
    (same : Same Q E p q) (ret : ∀ a s t, Q a s t → Q' a s t) (err : ∀ s t, E s t → E' s t) :
    Same Q' E' p q := by
  cases same with
  | ret after => exact .ret (ret _ _ _ after)
  | fail after => exact .fail (err _ _ after)
  | halt => exact .halt

namespace Lockstep

variable {P P' : σ → σ → Prop} {x y : Action σ α} {Q Q' : α → σ → σ → Prop} {E E' : σ → σ → Prop}

theorem mono (lockstep : Lockstep P x y Q E) (pre : ∀ s t, P' s t → P s t)
    (ret : ∀ a s t, Q a s t → Q' a s t) (err : ∀ s t, E s t → E' s t) : Lockstep P' x y Q' E' :=
  fun s t start => (lockstep s t (pre s t start)).mono ret err

theorem pure (a : α) : Lockstep P (pure a) (pure a) (fun _ => P) E := fun _ _ start => .ret start

theorem fail : Lockstep P (fail : Action σ α) fail Q P := fun _ _ start => .fail start

theorem halt : Lockstep P (halt : Action σ α) halt Q E := fun _ _ _ => .halt

/-- A read that both sides answer alike. -/
theorem read {f f' : σ → α} (same : ∀ s t, P s t → f s = f' t) :
    Lockstep P (read f) (read f') (fun a s t => P s t ∧ f s = a) E := by
  intro s t start
  rw [read_apply, read_apply, ← same s t start]
  exact .ret ⟨start, rfl⟩

theorem modify {f f' : σ → σ} {R : σ → σ → Prop} (after : ∀ s t, P s t → R (f s) (f' t)) :
    Lockstep P (modify f) (modify f') (fun _ => R) E :=
  fun s t start => .ret (after s t start)

theorem bind {next next' : α → Action σ β} {S : β → σ → σ → Prop} (first : Lockstep P x y Q E)
    (rest : ∀ a, Lockstep (Q a) (next a) (next' a) S E) :
    Lockstep P (x >>= next) (y >>= next') S E := by
  intro s t start
  have came := first s t start
  rw [bind_apply, bind_apply]
  generalize x s = p, y t = q at came
  cases came with
  | ret after => exact rest _ _ _ after
  | fail after => exact .fail after
  | halt => exact .halt

/-- What the first run leaves alone still holds of it afterwards. -/
theorem frame {f : σ → β} (leaves : Leaves f x) (lockstep : Lockstep P x y Q E) (p : β → Prop) :
    Lockstep (fun s t => P s t ∧ p (f s)) x y (fun a s t => Q a s t ∧ p (f s)) E := by
  intro s t start
  have ⟨related, holds⟩ := start
  have came := lockstep s t related
  have same := leaves s
  generalize x s = q, y t = q' at came same
  cases came with
  | ret after => exact .ret ⟨after, same ▸ holds⟩
  | fail after => exact .fail after
  | halt => exact .halt

/-- A read that the two sides need not answer alike. -/
theorem peek {f f' : σ → α} {next next' : α → Action σ β} {S : β → σ → σ → Prop}
    (rest : ∀ s t, P s t → Same S E (next (f s) s) (next' (f' t) t)) :
    Lockstep P (Action.read f >>= next) (Action.read f' >>= next') S E :=
  fun s t start => rest s t start

theorem ite {c : Prop} [Decidable c] {x' y' : Action σ α} (yes : c → Lockstep P x y Q E)
    (no : ¬ c → Lockstep P x' y' Q E) :
    Lockstep P (if c then x else x') (if c then y else y') Q E := by
  by_cases holds : c
  · rw [if_pos holds, if_pos holds]
    exact yes holds
  · rw [if_neg holds, if_neg holds]
    exact no holds

/-- A check that returns an error. -/
theorem guard {c : Prop} [Decidable c] {next next' : Unit → Action σ α}
    (passed : ¬ c → Lockstep P (next ()) (next' ()) Q P) :
    Lockstep P (if c then Action.fail >>= next else next ())
      (if c then Action.fail >>= next' else next' ()) Q P := by
  apply ite
  · intro _
    exact fun s t start => .fail start
  · exact passed

theorem attempt {S : Option α → σ → σ → Prop}
    (call : Lockstep P x y (fun a => S (some a)) (S none)) :
    Lockstep P (attempt x) (attempt y) S E := by
  intro s t start
  have came := call s t start
  unfold Action.attempt
  generalize x s = p, y t = q at came
  cases came with
  | ret after => exact .ret after
  | fail after => exact .ret after
  | halt => exact .halt

theorem onFail {cleanUp cleanUp' : Action σ Unit} {F : σ → σ → Prop}
    (call : Lockstep P x y Q F) (label : Lockstep F cleanUp cleanUp' (fun _ => E) E) :
    Lockstep P (onFail x cleanUp) (onFail y cleanUp') Q E := by
  intro s t start
  have came := call s t start
  unfold Action.onFail
  generalize x s = p, y t = q at came
  cases came with
  | ret after => exact .ret after
  | @fail s' t' after =>
      have cleaned := label s' t' after
      dsimp only
      generalize cleanUp s' = p, cleanUp' t' = q at cleaned
      cases cleaned with
      | ret done => exact .fail done
      | fail done => exact .fail done
      | halt => exact .halt
  | halt => exact .halt

theorem forEach {items : List ι} {body body' : ι → Action σ Unit}
    (each : ∀ i ∈ items, Lockstep P (body i) (body' i) (fun _ => P) E) :
    Lockstep P (forEach items body) (forEach items body') (fun _ => P) E := by
  induction items with
  | nil => exact Lockstep.pure ()
  | cons i rest ih =>
      apply Lockstep.bind (each i (List.mem_cons_self ..))
      intro _
      exact ih fun j mem => each j (List.mem_cons_of_mem _ mem)

end Lockstep

end Lib.Action
