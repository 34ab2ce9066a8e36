/-
  Building an automaton step by step.

  A builder starts with the single state `0`, which is the initial one.  Guards
  can be given as text, and are then read at once.  Nothing else is checked before
  the end.
-/
import GoalAutomata.Dfa

namespace GoalAutomata

/-- An automaton under construction. -/
structure Builder where
  size : Nat := 1
  initial : Nat := 0
  accepting : States := ∅
  transitions : List Transition := []

namespace Builder

/-- One more state. -/
def addState (b : Builder) : Builder := { b with size := b.size + 1 }

/-- Another initial state. -/
def setInitial (b : Builder) (q : Nat) : Builder := { b with initial := q }

/-- A state becomes accepting, or ceases to be. -/
def setAccepting (b : Builder) (q : Nat) (accepting : Bool) : Builder :=
  { b with accepting := if accepting then b.accepting.insert q else b.accepting.erase q }

/-- One more transition, after those already there. -/
def addTransition (b : Builder) (t : Transition) : Builder :=
  { b with transitions := b.transitions ++ [t] }

/-- One more transition, with its guard as text. -/
def addWritten (b : Builder) (source : Nat) (guard : String) (destination : Nat) :
    Except Error Builder :=
  (fun g => b.addTransition ⟨source, g, destination⟩) <$> Guard.read guard

/-- The automaton, checked. -/
def build (b : Builder) : Except Error Dfa :=
  Dfa.ofTransitions b.size b.initial b.accepting b.transitions

end Builder

end GoalAutomata
