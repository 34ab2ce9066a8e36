/-
  Gates by an automaton that reads the fluents of every tick.

  The gate is open exactly while the automaton sits in an accepting state.
-/
import GoalAutomata.Automaton
import GoalAutomata.Gate

namespace GoalAutomata

/-- A gate by an automaton. -/
structure EngagementGate where
  acceptor : Automaton
  state : Nat

namespace EngagementGate

variable {R : Type}

/-- The gate by the automaton `A`, at its initial state. -/
def new (A : Automaton) : EngagementGate := ⟨A, A.initial⟩

/-- One tick of the automaton. -/
def step (k : EngagementGate) (I : Fluents) : Outcome R EngagementGate Bool :=
  (Outcome.ask (k.acceptor.successor k.state I) k (k.acceptor.remarks k.state I)).andThen fun q k =>
  .done (k.acceptor.isAccepting q) { k with state := q }

instance : Gate EngagementGate R where
  step := step
  reset k := { k with state := k.acceptor.initial }
  resetRemarks _ := []

end EngagementGate

end GoalAutomata
