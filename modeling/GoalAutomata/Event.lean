/-
  Events: what the library reports while it works.

  An event names what happened, with the values that matter.  Its severity, its
  wording and the names of its fields are fixed here and nowhere else.
-/
import GoalAutomata.Amount
import GoalAutomata.Fluents
import GoalAutomata.Space

namespace GoalAutomata

/-- How much an event matters. -/
inductive Severity where
  | debug
  | info
  | warn
  deriving DecidableEq

/-- Something worth reporting. -/
inductive Event (R : Type) where
  /-- a state with too many atoms for its determinism to be checked -/
  | determinismUnchecked (state : Nat)
  /-- an interpretation that no guard of the state accepts -/
  | unmatched (state : Nat) (symbol : Fluents)
  /-- a formula turned into an automaton -/
  | compiled (formula : String) (states : Nat)
  /-- a step of a goal to another state -/
  | moved (goal : String) (source destination : Nat) (symbol : Fluents) (reward : R)
  /-- a step that added to the known graph -/
  | extended (goal : String) (episode source destination : Nat) (symbol : Fluents)
      (discovered : Nat)
  /-- a goal that became true -/
  | satisfied (goal : String) (state : Nat)
  /-- an episode through which a gate stayed closed -/
  | neverOpened (ticks : Nat)
  /-- the start of training -/
  | trainingStarted (space : Space) (episodes : Nat)
  /-- the end of one training episode -/
  | episodeFinished (episode : Nat) (total : R)
  /-- the mean return of the last episodes -/
  | progress (episode : Nat) (meanReturn : R) (visited : Nat)
  /-- the mean return without exploration -/
  | evaluated (meanReturn : R) (satisfied : Bool)
  /-- an automaton written to a file -/
  | written (file : String) (states : Nat)
  deriving DecidableEq

namespace Event

/-- The value of a field of an event. -/
inductive Value (R : Type) where
  | count (n : Nat)
  | flag (b : Bool)
  | amount (x : R)
  | text (s : String)

/-- The severity of an event. -/
def severity {R : Type} : Event R → Severity
  | determinismUnchecked .. | unmatched .. | compiled .. | moved .. | extended .. | satisfied ..
  | episodeFinished .. => .debug
  | neverOpened .. => .warn
  | trainingStarted .. | progress .. | evaluated .. | written .. => .info

/-- The wording of an event. -/
def message {R : Type} : Event R → String
  | determinismUnchecked .. => "too many atoms, skipping the determinism check"
  | unmatched .. => "no guard matched, moving to the sink state"
  | compiled .. => "formula compiled"
  | moved .. => "automaton transition"
  | extended .. => "partial automaton extended"
  | satisfied .. => "temporal goal satisfied"
  | neverOpened .. => "step controller never opened during the episode"
  | trainingStarted .. => "training on the chain"
  | episodeFinished .. => "episode finished"
  | progress .. => "training"
  | evaluated .. => "greedy evaluation"
  | written .. => "goal automaton written"

/-- The fields of an event, with their names. -/
def fields {R : Type} : Event R → List (String × Value R)
  | determinismUnchecked q => [("state", .count q)]
  | unmatched q I => [("state", .count q), ("symbol", .text I.render)]
  | compiled formula n => [("formula", .text formula), ("states", .count n)]
  | moved goal q r I x =>
    [("goal", .text goal), ("from", .count q), ("to", .count r), ("symbol", .text I.render),
     ("reward", .amount x)]
  | extended goal episode q r I n =>
    [("goal", .text goal), ("episode", .count episode), ("from", .count q), ("to", .count r),
     ("symbol", .text I.render), ("discovered", .count n)]
  | satisfied goal q => [("goal", .text goal), ("state", .count q)]
  | neverOpened n => [("ticks", .count n)]
  | trainingStarted space n => [("observation_space", .text space.render), ("episodes", .count n)]
  | episodeFinished n x => [("episode", .count n), ("total", .amount x)]
  | progress n x visited =>
    [("episode", .count n), ("mean_return", .amount x), ("visited", .count visited)]
  | evaluated x b => [("mean_return", .amount x), ("goal_satisfied", .flag b)]
  | written file n => [("file", .text file), ("states", .count n)]

end Event

end GoalAutomata
