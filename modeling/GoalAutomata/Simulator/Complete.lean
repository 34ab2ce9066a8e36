/-
  Simulation of an automaton that is known as a whole.

  With sparse payment a step pays the reward whenever it ends in an accepting
  state.  With payment by potential it pays the gain in potential, and the reward
  only if it is the last step and ends in an accepting state.
-/
import GoalAutomata.PricedAutomaton
import GoalAutomata.Shaping
import GoalAutomata.Simulator

namespace GoalAutomata

/-- A simulator of a priced automaton. -/
structure CompleteSimulator (R : Type) where
  name : String := "goal"
  machine : PricedAutomaton R
  shaping : Shaping R
  state? : Option Nat := none

namespace CompleteSimulator

variable {R : Type} [Amount R]

/-- An unstarted simulator of the automaton `A`. -/
def new (A : Automaton) (reward : R) (shaping : Shaping R) : CompleteSimulator R :=
  { machine := .new A reward, shaping }

/-- The reward of a step from the state `q` to the state `r`. -/
def pay (S : CompleteSimulator R) (q r : Nat) (last : Bool) : R :=
  match S.shaping.mode with
  | .sparse => S.machine.payment r
  | .potential =>
    shapedReward (S.machine.potential.eval q false) (S.machine.potential.eval r last)
      (if last then S.machine.payment r else 0) S.shaping.discount

/-- What the payment reports of its queries: sparse payment asks for the successor once more. -/
def payRemarks (S : CompleteSimulator R) (q : Nat) (I : Fluents) : List (Event R) :=
  match S.shaping.mode with
  | .sparse => S.machine.automaton.remarks q I
  | .potential => []

/-- Back to the initial state. -/
def reset (S : CompleteSimulator R) : CompleteSimulator R × Nat :=
  ({ S with state? := some S.machine.automaton.initial }, S.machine.automaton.initial)

/-- One step of the automaton, paid. -/
def step (S : CompleteSimulator R) (I : Fluents) (last : Bool) :
    Outcome R (CompleteSimulator R) (Nat × R) :=
  (Outcome.require S.state? .notStarted S).andThen fun q S =>
  (Outcome.ask (S.machine.automaton.successor q I) S (S.machine.automaton.remarks q I)).andThen
    fun r S =>
  let x := S.pay q r last
  let moved := if q = r then [] else [Event.moved S.name q r I x]
  .done (r, x) { S with state? := some r } (S.payRemarks q I ++ moved)

instance : Simulator (CompleteSimulator R) R where
  reset := reset
  step := step
  state? S := S.state?
  isTrue S := S.state?.any S.machine.automaton.isAccepting
  isFailed S := S.state?.any S.machine.isFailure
  width S := S.machine.automaton.sink
  reward S := S.machine.reward
  automaton S := S.machine.automaton
  rename name S := { S with name }

end CompleteSimulator

end GoalAutomata
