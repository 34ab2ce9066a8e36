/-
  Runs of environments.

  A run is a list of calls, resets and steps, in any order.  `Environment.run?` is
  a run in which no call fails: what its calls answer, and the environment that it
  leaves.  `Environment.answers` and `after` are the same for a run in which calls
  may fail.  An environment restores its start if a reset does the same whatever was
  done before (`Environment.Restores`).
-/
import GoalAutomata.Environment

namespace GoalAutomata

/-! ## Operations in a row -/

namespace Outcome

variable {R S T α β : Type} {o : Outcome R S α} {b : β}

@[simp] theorem result_within (f : S → T) : (o.within f).result = o.result := rfl

theorem exists_of_map_ok {f : α → β} (h : (o.map f).result = .ok b) :
    ∃ a, o.result = .ok a ∧ f a = b := by
  obtain ⟨r, s, es⟩ := o
  cases r with
  | error e => cases h
  | ok a => exact ⟨a, rfl, Except.ok.inj h⟩

/-- If an operation and one that follows it succeed together, then both do. -/
theorem exists_of_andThen_ok {k : α → S → Outcome R S β} (h : (o.andThen k).result = .ok b) :
    ∃ a, o.result = .ok a ∧ (k a o.state).result = .ok b ∧
      (o.andThen k).state = (k a o.state).state := by
  obtain ⟨r, s, es⟩ := o
  cases r with
  | error e => cases h
  | ok a => exact ⟨a, rfl, h, rfl⟩

/-- An operation that is followed by one that leaves the state alone leaves its own. -/
theorem state_andThen_of_keeps (o : Outcome R S α) {k : α → S → Outcome R S β}
    (h : ∀ a s, (k a s).state = s) : (o.andThen k).state = o.state := by
  obtain ⟨r, s, es⟩ := o
  cases r with
  | error e => rfl
  | ok a => exact h a s

theorem andThen_eq_of_ok {k : α → S → Outcome R S β} {a : α} (h : o.result = .ok a) :
    o.andThen k = (k a o.state).after o.events := by
  rw [andThen, h]

theorem andThen_eq_of_error {k : α → S → Outcome R S β} {e : Error} (h : o.result = .error e) :
    o.andThen k = failed e o.state o.events := by
  rw [andThen, h]
  rfl

theorem andThen_of_ok {k : α → S → Outcome R S β} {a : α} (h : o.result = .ok a) :
    (o.andThen k).result = (k a o.state).result ∧ (o.andThen k).state = (k a o.state).state := by
  rw [andThen_eq_of_ok h]
  exact ⟨rfl, rfl⟩

theorem andThen_of_error {k : α → S → Outcome R S β} {e : Error} (h : o.result = .error e) :
    (o.andThen k).result = .error e ∧ (o.andThen k).state = o.state := by
  rw [andThen_eq_of_error h]
  exact ⟨rfl, rfl⟩

/-- What holds after an operation, and after the next one if there is one. -/
theorem state_andThen_induction {P : S → Prop} {k : α → S → Outcome R S β} (h : P o.state)
    (hok : ∀ a, o.result = .ok a → P (k a o.state).state) : P (o.andThen k).state := by
  obtain ⟨r, s, es⟩ := o
  cases r with
  | error e => exact h
  | ok a => exact hok a rfl

/-- Operations in a row on a part of a state are a part of operations in a row. -/
theorem within_andThen {f : S → T} {k : α → S → Outcome R S β} {k' : α → T → Outcome R T β}
    (h : ∀ a, o.result = .ok a → (k a o.state).within f = k' a (f o.state)) :
    (o.andThen k).within f = (o.within f).andThen k' := by
  obtain ⟨r, s, es⟩ := o
  cases r with
  | error e => rfl
  | ok a => exact congrArg (·.after es) (h a rfl)

end Outcome

/-! ## Runs -/

/-- A call of an environment. -/
inductive Act (A : Type) where
  | reset
  | step (action : A)

/-- What a call of an environment answers. -/
inductive Reply (O R : Type) where
  | started (observation : O)
  | stepped (step : Step O R)

namespace Environment

variable {E O A R : Type} [Environment E O A R]

/-- One call. -/
def call (e : E) : Act A → Outcome R E (Reply O R)
  | .reset => (reset e).map .started
  | .step a => (step e a).map .stepped

/-- What the calls of a run answer, and the environment after it, if no call fails. -/
def run? (e : E) : List (Act A) → Option (List (Reply O R) × E)
  | [] => some ([], e)
  | c :: cs =>
    match (call e c).result with
    | .error _ => none
    | .ok y => (run? (call e c).state cs).map fun p => (y :: p.1, p.2)

theorem exists_of_run?_cons {e f : E} {c : Act A} {cs : List (Act A)} {ys : List (Reply O R)}
    (h : run? e (c :: cs) = some (ys, f)) : ∃ y zs, (call e c).result = .ok y ∧
      run? (call e c).state cs = some (zs, f) ∧ ys = y :: zs := by
  unfold run? at h
  split at h
  · cases h
  · next y hy =>
    obtain ⟨⟨zs, f'⟩, hrest, heq⟩ := Option.map_eq_some_iff.1 h
    cases heq
    exact ⟨y, zs, hy, hrest, rfl⟩

/-- A run that answers nothing is no run. -/
theorem eq_of_run?_nil {e f : E} {cs : List (Act A)}
    (h : run? e cs = some (([] : List (Reply O R)), f)) : cs = [] ∧ f = e := by
  cases cs with
  | nil =>
    cases h
    exact ⟨rfl, rfl⟩
  | cons c cs =>
    obtain ⟨y, zs, -, -, heq⟩ := exists_of_run?_cons h
    cases heq

/-- A call that succeeds, followed by a run without failures, is one. -/
theorem run?_cons_of_ok {e f : E} {c : Act A} {cs : List (Act A)} {y : Reply O R}
    {zs : List (Reply O R)} (hy : (call e c).result = .ok y)
    (hrest : run? (call e c).state cs = some (zs, f)) :
    run? e (c :: cs) = some (y :: zs, f) := by
  simp only [run?, hy, hrest, Option.map_some]

/-! ## Runs with failures -/

/-- The environment after a run, in which calls may fail. -/
def after (e : E) (cs : List (Act A)) : E := cs.foldl (fun e c => (call e c).state) e

/-- What the calls of a run answer, failures included. -/
def answers (e : E) : List (Act A) → List (Except Error (Reply O R))
  | [] => []
  | c :: cs => (call e c).result :: answers (call e c).state cs

section After

variable {e : E} {cs ds : List (Act A)} {o : O}

@[simp] theorem after_nil : after e [] = e := rfl

@[simp] theorem after_cons {c : Act A} : after e (c :: cs) = after (call e c).state cs := rfl

@[simp] theorem after_append : after e (cs ++ ds) = after (after e cs) ds := List.foldl_append

theorem after_concat_reset : after e (cs ++ [.reset]) = (reset (after e cs)).state := after_append

/-- What holds at first and is kept by every call, failed or not, holds after every run. -/
theorem after_induction {P : E → Prop} (h : P e) (hcall : ∀ e c, P e → P (call e c).state)
    (cs : List (Act A)) : P (after e cs) := by
  induction cs generalizing e with
  | nil => exact h
  | cons c cs ih => exact ih (hcall e c h)

/-- Every reset that succeeds, whatever the calls before it, does what a reset of `e` does. -/
def Restores (e : E) : Prop :=
  ∀ (past : List (Act A)) (o : O), (reset (after e past)).result = .ok o →
    (reset e).result = .ok o ∧ (reset (after e past)).state = (reset e).state

/-- From such a reset on, a run is the one that starts with a reset of `e`. -/
theorem Restores.answers_eq (h : Restores e) {past : List (Act A)}
    (ho : (reset (after e past)).result = .ok o) (cs : List (Act A)) :
    answers (after e past) (.reset :: cs) = answers e (.reset :: cs) := by
  obtain ⟨hfirst, hstate⟩ := h past o ho
  have hresult : (call (after e past) .reset).result = (call e .reset).result := by
    change Reply.started <$> (reset (after e past)).result = Reply.started <$> (reset e).result
    rw [ho, hfirst]
  have hleft : (call (after e past) .reset).state = (call e .reset).state := hstate
  rw [answers, answers, hresult, hleft]

end After

end Environment

end GoalAutomata
