/-
  Simulators: automata driven one interpretation at a time, with rewards.

  A simulator starts unstarted, and a step before the first reset fails.  A failed
  step leaves the simulator as it was.
-/
import GoalAutomata.Automaton
import GoalAutomata.Outcome

namespace GoalAutomata

/-- What drives an automaton and pays for its steps. -/
class Simulator (S : Type) (R : outParam Type) where
  /-- back to the initial state, which is answered too -/
  reset : S → S × Nat
  /-- one step: the new state, and the reward; the flag tells the last step of an episode -/
  step : S → Fluents → Bool → Outcome R S (Nat × R)
  /-- the current state, none before the first reset -/
  state? : S → Option Nat
  /-- whether the current state is accepting -/
  isTrue : S → Bool
  /-- whether acceptance cannot be reached any more -/
  isFailed : S → Bool
  /-- the number of states that can be reported, without the sink -/
  width : S → Nat
  /-- what acceptance pays -/
  reward : S → R
  automaton : S → Automaton
  /-- the name under which events are reported -/
  rename : String → S → S

/-- Two kinds of simulators side by side. -/
instance {S T R : Type} [Simulator S R] [Simulator T R] : Simulator (S ⊕ T) R where
  reset
    | .inl s => (.inl (Simulator.reset s).1, (Simulator.reset s).2)
    | .inr t => (.inr (Simulator.reset t).1, (Simulator.reset t).2)
  step
    | .inl s, I, last => (Simulator.step s I last).within .inl
    | .inr t, I, last => (Simulator.step t I last).within .inr
  state?
    | .inl s => Simulator.state? s
    | .inr t => Simulator.state? t
  isTrue
    | .inl s => Simulator.isTrue s
    | .inr t => Simulator.isTrue t
  isFailed
    | .inl s => Simulator.isFailed s
    | .inr t => Simulator.isFailed t
  width
    | .inl s => Simulator.width s
    | .inr t => Simulator.width t
  reward
    | .inl s => Simulator.reward s
    | .inr t => Simulator.reward t
  automaton
    | .inl s => Simulator.automaton s
    | .inr t => Simulator.automaton t
  rename name
    | .inl s => .inl (Simulator.rename name s)
    | .inr t => .inr (Simulator.rename name t)

end GoalAutomata
