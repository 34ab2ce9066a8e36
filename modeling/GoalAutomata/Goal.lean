/-
  Goals: a simulator of an automaton behind a gate.

  A closed gate leaves a goal in its state and pays nothing.

  * `Goal.ofAutomaton`, `Goal.ofUnfolding`: goals with an open gate;
  * `Goal.ofFormula`: the goal of a formula, through a compiler.
-/
import GoalAutomata.Dfa
import GoalAutomata.Gate.Stateless
import GoalAutomata.Simulator.Complete
import GoalAutomata.Simulator.Exploring
import GoalAutomata.Space

namespace GoalAutomata

/-- A goal with a simulator in `S` and a gate in `K`. -/
structure Goal (S K : Type) where
  name : String := "goal"
  /-- the formula that the goal was compiled from -/
  formula? : Option String := none
  simulator : S
  gate : K

namespace Goal

variable {S K L R : Type} [Simulator S R]

/-- The goal under another name, which its simulator reports too. -/
def rename (g : Goal S K) (name : String) : Goal S K :=
  { g with name, simulator := Simulator.rename name g.simulator }

/-- The goal behind another gate. -/
def behind (g : Goal S K) (gate : L) : Goal S L :=
  { name := g.name, formula? := g.formula?, simulator := g.simulator, gate }

/-- The goal with its simulator and its gate among others. -/
def embed {T : Type} (g : Goal S K) (f : S → T) (h : K → L) : Goal T L :=
  { name := g.name, formula? := g.formula?, simulator := f g.simulator, gate := h g.gate }

/-- The current state. -/
def state? (g : Goal S K) : Option Nat := Simulator.state? g.simulator

/-- Whether the goal is reached. -/
def isTrue (g : Goal S K) : Bool := Simulator.isTrue g.simulator

/-- Whether the goal cannot be reached any more. -/
def isFailed (g : Goal S K) : Bool := Simulator.isFailed g.simulator

/-- One value for each state, the sink included. -/
def space (g : Goal S K) : Space := .discrete (Simulator.width g.simulator + 1)

/-- What a reset reports. -/
def resetRemarks [Gate K R] (g : Goal S K) : List (Event R) := Gate.resetRemarks g.gate

/-- Back to the initial state, with the gate at the start of an episode. -/
def reset [Gate K R] (g : Goal S K) : Goal S K × Nat :=
  let (simulator, q) := Simulator.reset g.simulator
  ({ g with simulator, gate := Gate.reset R g.gate }, q)

/-- One tick: the gate sees the fluents first, and the simulator only if it is open. -/
def step [Zero R] [Gate K R] (g : Goal S K) (I : Fluents) (last : Bool) :
    Outcome R (Goal S K) (Nat × R) :=
  (Outcome.require g.state? .notStarted g).andThen fun q g =>
  ((Gate.step g.gate I).within ({ g with gate := · })).andThen fun isOpen g =>
  if isOpen then (Simulator.step g.simulator I last).within ({ g with simulator := · })
  else .done (q, 0) g

/-! ## Construction -/

variable [Amount R]

/-- The goal of reaching acceptance in an automaton. -/
def ofAutomaton (A : Automaton) (reward : R) (shaping : Shaping R) :
    Goal (CompleteSimulator R) (StatelessGate ListedTest) :=
  { simulator := .new A reward shaping, gate := .always }

/-- The goal of reaching acceptance in an automaton that is discovered on the way. -/
def ofUnfolding {C : Type} (O : Unfolding C) (reward : R) (config : Exploration R) :
    Goal (ExploringSimulator C R) (StatelessGate ListedTest) :=
  { simulator := .new O reward config, gate := .always }

/-- What turns a formula over an alphabet into an automaton. -/
abbrev Compiler := String → Fluents → Except Error Dfa

/-- The goal of a formula, named after it, with what its compilation reports. -/
def ofFormula (compile : Compiler) (formula : String) (alphabet : Fluents) (reward : R)
    (shaping : Shaping R) :
    Except Error (Goal (CompleteSimulator R) (StatelessGate ListedTest) × List (Event R)) :=
  match compile formula alphabet with
  | .error e => .error e
  | .ok d =>
    let g := { ofAutomaton d.toAutomaton reward shaping with formula? := some formula }
    .ok (g.rename formula, [.compiled formula d.size])

end Goal

end GoalAutomata
