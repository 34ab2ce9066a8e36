/-
  Automata that are explored one configuration at a time.

  An unfolding answers for a configuration and an interpretation the next
  configuration, and tells of a configuration whether it is accepting, and whether
  it provably cannot reach acceptance.  Whole automata can be unfolded, and so can
  lists of moves between named configurations.
-/
import GoalAutomata.Levels

namespace GoalAutomata

/-- An automaton over the configurations in `C`, known only by what is asked of it. -/
structure Unfolding (C : Type) where
  /-- the fluents that matter -/
  alphabet : Fluents
  initial : C
  successor : C → Fluents → Except Error C
  isAccepting : C → Bool
  /-- whether acceptance provably cannot be reached -/
  isFailed : C → Bool
  /-- the state to report if no guard accepts the interpretation -/
  unmatched? : C → Fluents → Option Nat := fun _ _ => none

namespace Unfolding

/-- What the query for a successor reports. -/
def remarks {C R : Type} (O : Unfolding C) (c : C) (I : Fluents) : List (Event R) :=
  ((O.unmatched? c I).map (.unmatched · I)).toList

end Unfolding

/-- A whole automaton as an unfolding, whose configurations are its states. -/
def Automaton.unfold (A : Automaton) (alphabet : Fluents) : Unfolding Nat :=
  let failures := (Levels.ofAutomaton A).failures
  { alphabet
    initial := A.initial
    successor := A.successor
    isAccepting := A.isAccepting
    isFailed := failures.contains
    unmatched? := fun q I => if A.unmatched q I then some q else none }

/-- A move between named configurations. -/
structure Move where
  source : String
  guard : Guard
  destination : String

/-- Named configurations with the moves between them. -/
structure MoveList where
  initial : String
  alphabet : Fluents
  moves : List Move
  accepting : List String
  failed : List String

namespace MoveList

/-- The destination of the first move whose guard holds. -/
def successor (M : MoveList) (c : String) (I : Fluents) : Except Error String :=
  match M.moves.find? fun m => m.source = c && m.guard.holds I with
  | some m => .ok m.destination
  | none => .error (.badFormula c "no move")

/-- A list of moves as an unfolding. -/
def unfold (M : MoveList) : Unfolding String where
  alphabet := M.alphabet
  initial := M.initial
  successor := M.successor
  isAccepting := M.accepting.contains
  isFailed := M.failed.contains

end MoveList

end GoalAutomata
