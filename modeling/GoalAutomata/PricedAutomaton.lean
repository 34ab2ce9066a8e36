/-
  Automata whose acceptance pays a reward.

  The levels and the potentials are found once, when the reward is fixed.
-/
import GoalAutomata.Potential

namespace GoalAutomata

/-- An automaton with the reward that its acceptance pays. -/
structure PricedAutomaton (R : Type) where
  automaton : Automaton
  reward : R
  levels : Levels
  potential : Potential R

namespace PricedAutomaton

variable {R : Type} [Amount R]

/-- The automaton `A` with a reward. -/
def new (A : Automaton) (reward : R) : PricedAutomaton R :=
  let L := Levels.ofAutomaton A
  ⟨A, reward, L, .ofLevels L A.initial reward⟩

/-- What being in a state pays: the reward if it is accepting. -/
def payment (M : PricedAutomaton R) (q : Nat) : R :=
  if M.automaton.isAccepting q then M.reward else 0

/-- The reward of a step without shaping: the payment of the state that it reaches. -/
def stepReward (M : PricedAutomaton R) (q : Nat) (I : Fluents) : Except Error R :=
  M.payment <$> M.automaton.successor q I

/-- Whether a state has no path to acceptance. -/
def isFailure (M : PricedAutomaton R) (q : Nat) : Bool := M.levels.isFailure q

end PricedAutomaton

end GoalAutomata
