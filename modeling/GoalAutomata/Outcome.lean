/-
  Outcomes of operations on a state.

  An operation that can fail leaves a state behind in either case: a failure
  halfway keeps what was done before it.  An `Outcome` is hence the result, the
  state left behind and the events reported on the way.
-/
import GoalAutomata.Error
import GoalAutomata.Event

namespace GoalAutomata

/-- The result of an operation, the state that it leaves and what it reported. -/
structure Outcome (R S α : Type) where
  result : Except Error α
  state : S
  events : List (Event R) := []

namespace Outcome

variable {R S T α β : Type}

/-- Success. -/
def done (a : α) (s : S) (es : List (Event R) := []) : Outcome R S α := ⟨.ok a, s, es⟩

/-- Failure. -/
def failed (e : Error) (s : S) (es : List (Event R) := []) : Outcome R S α := ⟨.error e, s, es⟩

/-- The answer to a query, which leaves the state as it is. -/
def ask (r : Except Error α) (s : S) (es : List (Event R) := []) : Outcome R S α := ⟨r, s, es⟩

/-- The value that there must be. -/
def require (a? : Option α) (e : Error) (s : S) : Outcome R S α := ask (a?.elim (.error e) .ok) s

/-- The same outcome, with the state as part of a larger one. -/
def within (o : Outcome R S α) (f : S → T) : Outcome R T α := ⟨o.result, f o.state, o.events⟩

/-- The same outcome, after the events `es`. -/
def after (o : Outcome R S α) (es : List (Event R)) : Outcome R S α :=
  { o with events := es ++ o.events }

/-- Runs one operation after another, which starts from the state that the first leaves. -/
def andThen (o : Outcome R S α) (k : α → S → Outcome R S β) : Outcome R S β :=
  match o.result with
  | .error e => ⟨.error e, o.state, o.events⟩
  | .ok a => (k a o.state).after o.events

/-- The same outcome, with another value on success. -/
def map (f : α → β) (o : Outcome R S α) : Outcome R S β := ⟨f <$> o.result, o.state, o.events⟩

/-! ## How operations follow each other -/

variable (a : α) (e : Error) (s : S) (es fs : List (Event R)) (k : α → S → Outcome R S β)

@[simp] theorem result_done : (done a s es : Outcome R S α).result = .ok a := rfl

@[simp] theorem state_done : (done a s es : Outcome R S α).state = s := rfl

@[simp] theorem result_failed : (failed e s es : Outcome R S α).result = .error e := rfl

@[simp] theorem state_failed : (failed e s es : Outcome R S α).state = s := rfl

@[simp] theorem ask_ok : (ask (.ok a) s es : Outcome R S α) = done a s es := rfl

@[simp] theorem ask_error : (ask (.error e) s es : Outcome R S α) = failed e s es := rfl

@[simp] theorem require_some : (require (some a) e s : Outcome R S α) = done a s := rfl

@[simp] theorem require_none : (require none e s : Outcome R S α) = failed e s := rfl

@[simp] theorem within_done (f : S → T) : (done a s es).within f = done a (f s) es := rfl

@[simp] theorem within_failed (f : S → T) :
    (failed e s es : Outcome R S α).within f = failed e (f s) es := rfl

@[simp] theorem after_done : (done a s es).after fs = done a s (fs ++ es) := rfl

@[simp] theorem after_failed :
    (failed e s es : Outcome R S α).after fs = failed e s (fs ++ es) := rfl

@[simp] theorem andThen_done : (done a s es).andThen k = (k a s).after es := rfl

@[simp] theorem andThen_failed :
    (failed e s es : Outcome R S α).andThen k = failed e s es := rfl

end Outcome

end GoalAutomata
