/-
  Runs of simulators.

  A run is a list of calls, resets and steps, in any order; a failed step is a
  call like any other.  `Simulator.after` is the simulator that a run leaves,
  `Simulator.answers` what its calls answer, and `Simulator.stages` the successful
  ones among some steps.

  What holds of a run follows from what holds of one call: `after_induction` for
  what every call keeps, `isChain_stages` for what a successful step does to the
  simulator before it.
-/
import GoalAutomata.Simulator
import Mathlib.Data.List.Chain

namespace GoalAutomata

/-- A call of a simulator. -/
inductive Call where
  | reset
  | step (symbol : Fluents) (last : Bool)

namespace Call

/-- Some steps, with their flags, as calls. -/
def steps (w : List (Fluents × Bool)) : List Call := w.map fun m => .step m.1 m.2

@[simp] theorem steps_nil : steps [] = [] := rfl

@[simp] theorem steps_cons {I : Fluents} {last : Bool} {w : List (Fluents × Bool)} :
    steps ((I, last) :: w) = .step I last :: steps w := rfl

@[simp] theorem steps_append {v w : List (Fluents × Bool)} : steps (v ++ w) = steps v ++ steps w :=
  List.map_append

end Call

/-- What a call answers: a reset the initial state, a step the new state with the reward. -/
inductive Answer (R : Type) where
  | started (state : Nat)
  | stepped (result : Except Error (Nat × R))

namespace Answer

variable {R : Type}

/-- The reward of a successful step. -/
def reward? : Answer R → Option R
  | stepped (.ok (_, x)) => some x
  | _ => none

end Answer

/-- A successful step: the flag that it got, what it answered and the simulator that it left. -/
structure Stage (S R : Type) where
  last : Bool
  state : Nat
  reward : R
  simulator : S

namespace Simulator

variable {S R : Type} [Simulator S R]

/-- One call. -/
def call (s : S) : Call → S × Answer R
  | .reset => ((reset s).1, .started (reset s).2)
  | .step I last => ((step s I last).state, .stepped (step s I last).result)

/-- The simulator after a run. -/
def after (s : S) (cs : List Call) : S := cs.foldl (fun s c => (call s c).1) s

/-- The answers of a run. -/
def answers (s : S) : List Call → List (Answer R)
  | [] => []
  | c :: cs => (call s c).2 :: answers (call s c).1 cs

/-- The successful ones among some steps. -/
def stages (s : S) : List (Fluents × Bool) → List (Stage S R)
  | [] => []
  | (I, last) :: w =>
    match (step s I last).result with
    | .error _ => stages (step s I last).state w
    | .ok (q, x) => ⟨last, q, x, (step s I last).state⟩ :: stages (step s I last).state w

variable {s : S} {I : Fluents} {last : Bool} {w : List (Fluents × Bool)} {cs ds : List Call}

@[simp] theorem after_nil : after s [] = s := rfl

@[simp] theorem after_cons {c : Call} : after s (c :: cs) = after (call s c).1 cs := rfl

@[simp] theorem after_append : after s (cs ++ ds) = after (after s cs) ds := List.foldl_append

theorem after_concat_reset : after s (cs ++ [.reset]) = (reset (after s cs)).1 := after_append

theorem answers_append :
    answers s (cs ++ ds) = answers s cs ++ answers (after s cs) ds := by
  induction cs generalizing s with
  | nil => rfl
  | cons c cs ih => rw [List.cons_append, answers, answers, ih, after_cons, List.cons_append]

/-- Every successful step answers the state at which it leaves the simulator. -/
def Truthful (S : Type) {R : Type} [Simulator S R] : Prop :=
  ∀ (s : S) I last q x, (step s I last).result = .ok (q, x) → state? (step s I last).state = some q

/-- After some steps of which the last succeeds, a simulator is at the state that it answers. -/
theorem Truthful.state?_after (hS : Truthful S) {m : Fluents × Bool} {ps : List (Nat × R)}
    {p : Nat × R} (h : answers s (Call.steps (w ++ [m])) =
      (ps ++ [p]).map fun p => .stepped (.ok p)) :
    state? (after s (Call.steps (w ++ [m]))) = some p.1 := by
  rw [Call.steps_append, answers_append, List.map_append] at h
  obtain ⟨-, hlast⟩ := List.append_inj' h rfl
  rw [Call.steps_append, after_append]
  exact hS _ m.1 m.2 p.1 p.2 (Answer.stepped.inj (List.cons_eq_cons.1 hlast).1)

theorem stages_of_error {e : Error} (h : (step s I last).result = .error e) :
    stages s ((I, last) :: w) = stages (step s I last).state w := by
  simp only [stages, h]

theorem stages_of_ok {q : Nat} {x : R} (h : (step s I last).result = .ok (q, x)) :
    stages s ((I, last) :: w) =
      ⟨last, q, x, (step s I last).state⟩ :: stages (step s I last).state w := by
  simp only [stages, h]

/-- What holds at first and is kept by every call holds after every run. -/
theorem after_induction {P : S → Prop} (h : P s) (hreset : ∀ s : S, P s → P (reset s).1)
    (hstep : ∀ (s : S) I last, P s → P (step s I last).state) (cs : List Call) : P (after s cs) := by
  induction cs generalizing s with
  | nil => exact h
  | cons c cs ih =>
    cases c with
    | reset => exact ih (hreset s h)
    | step I last => exact ih (hstep s I last h)

/-- What holds at first and is kept by every step holds as long as there is no reset. -/
theorem after_steps_induction {P : S → Prop} (h : P s)
    (hstep : ∀ (s : S) I last, P s → P (step s I last).state) (w : List (Fluents × Bool)) :
    P (after s (Call.steps w)) := by
  induction w generalizing s with
  | nil => exact h
  | cons m w ih => exact ih (hstep s m.1 m.2 h)

/-- Consecutive stages are related as a successful step relates the simulators around it, if a
    failed one changes nothing. -/
theorem isChain_stages {P : S → S → Prop}
    (herror : ∀ (s : S) I last e, (step s I last).result = .error e → (step s I last).state = s)
    (hok : ∀ (s : S) I last p, (step s I last).result = .ok p → P s (step s I last).state)
    (s : S) (w : List (Fluents × Bool)) : (s :: (stages s w).map (·.simulator)).IsChain P := by
  induction w generalizing s with
  | nil => simp [stages]
  | cons m w ih =>
    obtain ⟨I, last⟩ := m
    cases h : (step s I last).result with
    | error e =>
      have hs := ih (step s I last).state
      rw [stages_of_error h]
      rwa [herror s I last e h] at hs ⊢
    | ok p =>
      rw [stages_of_ok h, List.map_cons, List.isChain_cons_cons]
      exact ⟨hok s I last p h, ih _⟩

/-- What holds of every successful step from a good simulator holds of every stage, if steps keep
    a simulator good. -/
theorem forall_mem_stages {G : S → Prop} {P : Stage S R → Prop}
    (hstep : ∀ (s : S) I last, G s → G (step s I last).state)
    (hok : ∀ (s : S) I last q x, G s → (step s I last).result = .ok (q, x) →
      P ⟨last, q, x, (step s I last).state⟩)
    (h : G s) (w : List (Fluents × Bool)) : ∀ e ∈ stages s w, P e := by
  induction w generalizing s with
  | nil => simp [stages]
  | cons m w ih =>
    obtain ⟨I, last⟩ := m
    have hrest := ih (hstep s I last h)
    cases hr : (step s I last).result with
    | error e => rwa [stages_of_error hr]
    | ok p =>
      rw [stages_of_ok hr]
      exact List.forall_mem_cons.2 ⟨hok s I last _ _ h hr, hrest⟩

end Simulator

end GoalAutomata
