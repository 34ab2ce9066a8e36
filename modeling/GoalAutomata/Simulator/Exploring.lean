/-
  Simulation of an unfolding while it is discovered.

  Two snapshots of the potentials are kept: `prior` prices the source of a step
  and `current` its destination.  Every step starts with the current snapshot as
  the prior one, and only a step that changes the known graph finds a new one.  A
  state is therefore always left with the potential with which it was entered, and
  rewards telescope although the potentials change.

  A new state that is neither accepting nor failed gets a bonus, which decays at
  every reset and is dropped below a threshold.
-/
import GoalAutomata.KnownGraph.Potential
import GoalAutomata.Shaping
import GoalAutomata.Simulator
import GoalAutomata.Unfolding

namespace GoalAutomata

/-- A simulator of an unfolding, with what it has seen of it. -/
structure ExploringSimulator (C R : Type) where
  name : String := "goal"
  oracle : Unfolding C
  graph : KnownGraph C
  reward : R
  config : Exploration R
  /-- the current state with its configuration -/
  position? : Option (Nat × C) := none
  /-- the potentials before the last step -/
  prior : Potential R
  /-- the potentials since then -/
  current : Potential R
  bonuses : StateMap R := ∅
  /-- the number of resets -/
  episode : Nat := 0

namespace ExploringSimulator

variable {C R : Type} [Amount R]

/-- An unstarted simulator that knows the initial configuration. -/
def new (O : Unfolding C) (reward : R) (config : Exploration R) : ExploringSimulator C R :=
  let G := KnownGraph.new O.initial (O.isAccepting O.initial) (O.isFailed O.initial) O.alphabet
    config.maxStates
  let P := G.potentials ∅ reward
  { oracle := O, graph := G, reward, config, prior := P, current := P }

/-- The bonus of a state that has just been discovered. -/
def freshBonus (S : ExploringSimulator C R) : R := S.config.initialBonus * S.reward

/-- A bonus after one more reset. -/
def decayed (S : ExploringSimulator C R) (x : R) : R :=
  let y := x * S.config.decay
  if Amount.less y (S.config.threshold * S.reward) then 0 else y

/-- Back to the initial configuration: the bonuses decay and both snapshots are found anew. -/
def reset (S : ExploringSimulator C R) : ExploringSimulator C R × Nat :=
  let bonuses := S.bonuses.map fun _ x => S.decayed x
  let P := S.graph.potentials bonuses S.reward
  ({ S with
      bonuses, prior := P, current := P
      position? := some (0, S.oracle.initial)
      episode := S.episode + 1 }, 0)

/-- The reward of a step from the state `q`, priced before it, to the state `r`. -/
def pay (S : ExploringSimulator C R) (q r : Nat) (last : Bool) : R :=
  let payment := if r ∈ S.graph.accepting then S.reward else 0
  match S.config.shaping.mode with
  | .sparse => payment
  | .potential =>
    shapedReward (S.prior.eval q false) (S.current.eval r last) (if last then payment else 0)
      S.config.shaping.discount

section Step

variable [DecidableEq C]

/-- The simulator after a step from the state `q` to the configuration `c`, whose transition has
    brought `d` and left the graph `G`. -/
def advance (S : ExploringSimulator C R) (c : C) (G : KnownGraph C) (d : Discovery) :
    ExploringSimulator C R :=
  let explored := d.isNew && !S.oracle.isAccepting c && !S.oracle.isFailed c
  let bonuses := if explored then S.bonuses.insert d.state S.freshBonus else S.bonuses
  { S with
    graph := G
    bonuses
    prior := S.current
    current := if d.changed then G.potentials bonuses S.reward else S.current
    position? := some (d.state, c) }

/-- What a step from the state `q` on `I` reports when it has brought `d`. -/
def discoveryRemarks (S : ExploringSimulator C R) (q : Nat) (I : Fluents) (d : Discovery) :
    List (Event R) :=
  if d.changed then [.extended S.name S.episode q d.state I S.graph.size] else []

/-- One step of the unfolding, recorded and paid. -/
def step (S : ExploringSimulator C R) (I : Fluents) (last : Bool) :
    Outcome R (ExploringSimulator C R) (Nat × R) :=
  (Outcome.require S.position? .notStarted S).andThen fun (q, c) S =>
  (Outcome.ask (S.oracle.successor c I) S (S.oracle.remarks c I)).andThen fun c' S =>
  ((S.graph.record q (S.graph.label I) c' (S.oracle.isAccepting c') (S.oracle.isFailed c')).within
    ({ S with graph := · })).andThen fun d S =>
  let T := S.advance c' S.graph d
  .done (d.state, T.pay q d.state last) T (T.discoveryRemarks q I d)

instance : Simulator (ExploringSimulator C R) R where
  reset := reset
  step := step
  state? S := S.position?.map (·.1)
  isTrue S := S.position?.any fun p => S.graph.accepting.contains p.1
  isFailed S := S.position?.any fun p => S.graph.failures.contains p.1
  width S := S.graph.capacity
  reward S := S.reward
  automaton S := S.graph.toAutomaton
  rename name S := { S with name }

end Step

end ExploringSimulator

end GoalAutomata
