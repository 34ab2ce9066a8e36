/-
  Automata listed by their edges, without any check.

  The states need not be consecutive, edges may overlap, leave the listed states
  or start at the sink, and some states refuse to list their edges.  The first
  edge whose guard holds is taken.
-/
import GoalAutomata.Automaton

namespace GoalAutomata

/-- An automaton as a plain list of edges. -/
structure ListedAutomaton where
  states : States
  initial : Nat
  accepting : States
  edges : List Transition
  /-- the states that refuse to list their transitions -/
  broken : States

namespace ListedAutomaton

/-- One past the last listed state. -/
def sink (A : ListedAutomaton) : Nat := Automaton.sinkOf A.states

/-- The edges from a state. -/
def edgesFrom (A : ListedAutomaton) (q : Nat) : List Transition :=
  A.edges.filter (·.source = q)

/-- The destination of the first edge whose guard holds, or else the sink. -/
def successor (A : ListedAutomaton) (q : Nat) (I : Fluents) : Except Error Nat :=
  if q = A.sink ∨ q ∈ A.states then
    .ok <| ((A.edgesFrom q).find? (·.guard.holds I)).elim A.sink (·.destination)
  else .error (.unknownState q)

/-- The edges from a listed state that is not broken. -/
def transitionsFrom (A : ListedAutomaton) (q : Nat) : Except Error (List Transition) :=
  if q ∈ A.states ∧ q ∉ A.broken then .ok (A.edgesFrom q) else .error (.unknownState q)

/-- A listed automaton as an automaton. -/
def toAutomaton (A : ListedAutomaton) : Automaton where
  states := A.states
  initial := A.initial
  accepting := A.accepting
  sink := A.sink
  isAccepting q := A.accepting.contains q
  successor := A.successor
  transitionsFrom := A.transitionsFrom

end ListedAutomaton

end GoalAutomata
