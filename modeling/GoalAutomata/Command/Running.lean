/-
  Carrying out commands.

  A command is carried out over any storage of files, and answered by a report:
  the lines that it prints, the events on the way, and its error if it has failed.
-/
import GoalAutomata.Chain.Visiting
import GoalAutomata.Command
import GoalAutomata.Command.Storage
import GoalAutomata.Description.Automaton
import GoalAutomata.Environment.Chain
import GoalAutomata.Monitored
import GoalAutomata.PricedAutomaton
import GoalAutomata.QTable
import GoalAutomata.XorShift

namespace GoalAutomata

/-- What comes of a command. -/
structure Report where
  result : Except Error Unit := .ok ()
  lines : List String := []
  events : List (Event Float32) := []

namespace Report

/-- The report of a failure. -/
def failed (e : Error) : Report := { result := .error e }

/-- The events that are shown: all but those for debugging. -/
def shown (r : Report) : List (Event Float32) := r.events.filter (·.severity ≠ .debug)

end Report

/-- The automaton of a file. -/
def Storage.load {m : Type → Type} [Monad m] (store : Storage m) (path : String) :
    m (Except Error Dfa) := do
  match ← store.read path with
  | .ok text => return Dfa.read text
  | .error e => return .error (.badFile e)

/-! ## Training -/

namespace Training

/-- How the goal pays. -/
def shaping (t : Training) : Shaping Float32 := if t.sparse then .sparse else .standard

/-- The fluents of all cells. -/
def alphabet (t : Training) : Fluents := .ofList ((List.range t.states).map cellFluent)

/-- A goal with a complete automaton, or with one that is discovered on the way. -/
abbrev AnyGoal :=
  Goal (CompleteSimulator Float32 ⊕ ExploringSimulator Nat Float32) (StatelessGate ListedTest)

/-- The goal of reaching acceptance in an automaton. -/
def goal (t : Training) (d : Dfa) : AnyGoal :=
  let g : AnyGoal :=
    if t.onTheFly then
      (Goal.ofUnfolding (d.toAutomaton.unfold t.alphabet) t.reward
        { Exploration.standard with shaping := t.shaping }).embed .inr id
    else (Goal.ofAutomaton d.toAutomaton t.reward t.shaping).embed .inl id
  g.rename "visiting sequence"

/-- A chain with a goal, whose fluents are the cells. -/
def environment (t : Training) (c : ChainEnvironment Float32) (d : Dfa) :
    Monitored (ChainEnvironment Float32)
      (CompleteSimulator Float32 ⊕ ExploringSimulator Nat Float32) (StatelessGate ListedTest)
      (Nat → Option ChainAction → Fluents) Nat (Nat × List Nat) where
  environment := c
  goals := [t.goal d]
  sensor := fun position _ => cellFluents position
  combine := Prod.mk

/-- Training, and then the evaluation. -/
def run (t : Training) (c : ChainEnvironment Float32) (d : Dfa) : Report :=
  let m := t.environment c d
  let q : QTable (Nat × List Nat) Float32 XorShift :=
    .new ChainAction.count ⟨t.alpha, t.epsilon, t.gamma⟩ t.seed.toUInt64
  let o : Outcome Float32 _ Unit :=
    (q.train t.episodes m).andThen fun _ (q, m) =>
      (q.evaluate t.evaluations m).andThen fun returns (q, m) =>
        let mean := Amount.average returns (max returns.length 1)
        .done () (q, m) [.evaluated mean m.allTrue]
  { result := o.result, events := .trainingStarted m.space t.episodes :: o.events }

end Training

/-! ## Inspection -/

namespace PricedAutomaton

/-- What there is to say of a state. -/
def marks (M : PricedAutomaton Float32) (q : Nat) : List String :=
  (if M.automaton.isAccepting q then ["accepting"] else []) ++
    (if M.isFailure q then ["failure"] else [])

/-- The line of a state. -/
def stateLine (M : PricedAutomaton Float32) (q : Nat) : String :=
  "  " ++ toString q ++ ": level " ++ toString (M.levels.level q) ++ ", potential " ++
    Single.fixed 3 (M.potential.eval q false) ++ " " ++ " ".intercalate (M.marks q)

/-- The line of a transition. -/
def transitionLine (t : Transition) : String :=
  "  " ++ toString t.source ++ " --[" ++ t.guard.render ++ "]--> " ++ toString t.destination

/-- The table of an automaton: a summary, its states with the sink, and its transitions. -/
def table (M : PricedAutomaton Float32) : List String :=
  let A := M.automaton
  let summary :=
    toString A.states.size ++ " states, initial " ++ toString A.initial ++ ", sink " ++
      toString A.sink ++ ", max level " ++ toString M.levels.top
  [summary] ++ (A.states.toList ++ [A.sink]).map M.stateLine ++
    A.transitions.toList.map transitionLine

end PricedAutomaton

/-! ## Commands -/

namespace Command

variable {m : Type → Type} [Monad m]

/-- Training on a chain: the chain is checked before the automaton is read. -/
def runTraining (store : Storage m) (t : Training) : m Report := do
  match ChainEnvironment.new t.states with
  | .error e => return .failed e
  | .ok c =>
    let automaton ← match t.automaton? with
      | some path => store.load path
      | none => pure (visitingSequence t.states)
    match automaton with
    | .error e => return .failed e
    | .ok d => return t.run c d

/-- The table of an automaton. -/
def runInspection (store : Storage m) (path : String) (reward : Float32) : m Report := do
  match ← store.load path with
  | .error e => return .failed e
  | .ok d => return { lines := (PricedAutomaton.new d.toAutomaton reward).table }

/-- A file with the goal automaton of a chain. -/
def runExport (store : Storage m) (path : String) (states : Nat) : m Report := do
  match visitingSequence states with
  | .error e => return .failed e
  | .ok d => match ← store.write path d.toDescription.render with
    | .error e => return .failed (.badFile e)
    | .ok () => return { events := [.written path states] }

/-- Carries out a command. -/
def run (store : Storage m) : Command → m Report
  | train t => runTraining store t
  | inspect path reward => runInspection store path reward
  | write path states => runExport store path states

end Command

end GoalAutomata
