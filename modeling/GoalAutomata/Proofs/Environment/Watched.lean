/-
  Environments under watch.

  A watched environment writes down its calls, and sets a bound of its own to the
  steps of an episode.  It answers like the environment that it watches.
-/
import GoalAutomata.Proofs.Environment.Episodes

namespace GoalAutomata

/-- Whether a call is a step. -/
def Act.isStep {A : Type} : Act A → Bool
  | reset => false
  | step _ => true

/-- An environment with a list of the calls so far and a horizon. -/
structure Watched (E A : Type) where
  environment : E
  bound : Nat
  calls : List (Act A) := []

namespace Watched

variable {E O A R : Type}

/-- The number of steps so far. -/
def steps (w : Watched E A) : Nat := w.calls.countP (·.isStep)

/-- One more call, after which the environment is `e`. -/
def note (w : Watched E A) (c : Act A) (e : E) : Watched E A :=
  { w with environment := e, calls := w.calls ++ [c] }

variable [Environment E O A R]

instance : Environment (Watched E A) O A R where
  reset w := (Environment.reset w.environment).within (w.note .reset)
  step w a := (Environment.step w.environment a).within (w.note (.step a))
  observations w := Environment.observations w.environment
  actions w := Environment.actions w.environment
  horizon w := w.bound

open Environment

variable {w : Watched E A} {n : Nat}

theorem state_call (c : Act A) :
    (call w c).state = w.note c (call w.environment c).state := by
  cases c <;> rfl

/-- **All calls are written down**, in their order. -/
theorem after_eq (cs : List (Act A)) : after w cs =
    { w with environment := after w.environment cs, calls := w.calls ++ cs } := by
  induction cs generalizing w with
  | nil => rw [List.append_nil]; rfl
  | cons c cs ih =>
    rw [after_cons, after_cons, state_call, ih]
    simp [note]

theorem endsIn (h : EndsIn n w.environment) : EndsIn n w := by
  induction n generalizing w with
  | zero => exact h
  | succ n ih => exact fun a hover => ih (h a hover)

/-- Episodes end in time, by the horizon of the environment and by the bound of the watch. -/
structure InTime (n : Nat) (w : Watched E A) : Prop where
  inner : Timely n w.environment
  le_bound : n ≤ w.bound

theorem InTime.timely (h : w.InTime n) : Timely n w where
  endsWithin past o ho := by
    rw [after_eq] at ho ⊢
    exact endsIn (h.inner.endsWithin past o ho)
  le_horizon cs := by
    rw [after_eq]
    exact h.le_bound

theorem InTime.after (h : w.InTime n) (cs : List (Act A)) : (after w cs).InTime n := by
  rw [after_eq]
  exact ⟨h.inner.after cs, h.le_bound⟩

theorem steps_after (cs : List (Act A)) :
    (after w cs).steps = w.steps + cs.countP (·.isStep) := by
  rw [after_eq, steps, List.countP_append]
  rfl

theorem rollout_eq (as : List A) : rollout w as = rollout w.environment as := by
  induction as generalizing w with
  | nil => rfl
  | cons a as ih =>
    rw [rollout, rollout, ih]
    rfl

end Watched

end GoalAutomata
