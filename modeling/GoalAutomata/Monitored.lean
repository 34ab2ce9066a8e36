/-
  Environments with goals.

  A monitored environment runs goals beside an environment.  At every tick the
  sensor reads the observation once for each goal, in order, and the goal takes
  what was read.  The rewards of the goals add to that of the environment, and
  their states join its observation; whether the episode is over and the notes are
  those of the environment.  A monitored environment is an environment again.

  A failure halfway keeps what was done before it: the environment has stepped,
  the goals before the failing one have ticked, and those after it have not.
-/
import GoalAutomata.Environment
import GoalAutomata.Goal
import GoalAutomata.Sensor

namespace GoalAutomata

/-- An environment in `E` with observations in `O`, and goals that a sensor in `X` informs. -/
structure Monitored (E S K X O T : Type) where
  environment : E
  goals : List (Goal S K)
  sensor : X
  /-- an observation joined with the states of the goals -/
  combine : O → List Nat → T
  /-- whether the goals also take the observation of a reset -/
  observeReset : Bool := false

namespace Monitored

variable {E S K X O T A R : Type}

/-! ## Ticks -/

section Tick

variable [Amount R] [Simulator S R] [Gate K R] [Sensor X O A]

/-- What is reported of a tick: a goal that has become true, unless nothing was done for it. -/
def tickRemarks (a? : Option A) (g h : Goal S K) (q : Nat) : List (Event R) :=
  if a?.isSome && h.isTrue && !g.isTrue then [.satisfied g.name q] else []

/-- One tick of a goal. -/
def tick (o : O) (a? : Option A) (last : Bool) (x : X) (g : Goal S K) :
    Outcome R (X × Goal S K) (Nat × R) :=
  match Sensor.read x o a? with
  | (.error cause, y) => .failed (.sensorFailed cause) (y, g)
  | (.ok I, y) =>
    ((g.step I last).andThen fun p h => .done p h (tickRemarks a? g h p.1)).within (y, ·)

/-- One tick of every goal, in order, up to the first failure. -/
def tickAll (o : O) (a? : Option A) (last : Bool) :
    X → List (Goal S K) → Outcome R (X × List (Goal S K)) (List (Nat × R))
  | x, [] => .done [] (x, [])
  | x, g :: gs =>
    let t := tick o a? last x g
    match t.result with
    | .error e => .failed e (t.state.1, t.state.2 :: gs) t.events
    | .ok p =>
      let rest := tickAll o a? last t.state.1 gs
      ((rest.map (p :: ·)).within fun s => (s.1, t.state.2 :: s.2)).after t.events

end Tick

/-! ## The environment -/

variable [Environment E O A R] [Simulator S R]

/-- Whether every goal is reached. -/
def allTrue (m : Monitored E S K X O T) : Bool := m.goals.all (·.isTrue)

/-- Whether some goal cannot be reached any more. -/
def anyFailed (m : Monitored E S K X O T) : Bool := m.goals.any (·.isFailed)

/-- The states of the goals, unless one has not been started. -/
def states? (m : Monitored E S K X O T) : Option (List Nat) := m.goals.mapM (·.state?)

/-- The goals and the sensor after a tick of every goal. -/
def observe [Amount R] [Gate K R] [Sensor X O A] (m : Monitored E S K X O T) (o : O)
    (a? : Option A) (last : Bool) : Outcome R (Monitored E S K X O T) (List (Nat × R)) :=
  (tickAll o a? last m.sensor m.goals).within fun s => { m with sensor := s.1, goals := s.2 }

/-- Every goal back to its start. -/
def restartGoals [Gate K R] (m : Monitored E S K X O T) :
    Outcome R (Monitored E S K X O T) Unit :=
  .done () { m with goals := m.goals.map (·.reset.1) } (m.goals.flatMap (·.resetRemarks))

/-- An observation of a reset, joined with the states of the goals. -/
def join (m : Monitored E S K X O T) (o : O) : Outcome R (Monitored E S K X O T) T :=
  match m.states? with
  | some qs => .done (m.combine o qs) m
  | none => .failed .notStarted m

/-- A reset of the environment and of every goal; the rewards of a tick on its observation are
    dropped. -/
def reset [Amount R] [Gate K R] [Sensor X O A] (m : Monitored E S K X O T) :
    Outcome R (Monitored E S K X O T) T :=
  ((Environment.reset m.environment).within ({ m with environment := · })).andThen fun o m =>
    m.restartGoals.andThen fun _ m =>
      if m.observeReset then (m.observe o (none : Option A) false).andThen fun _ m => m.join o
      else m.join o

/-- A step of the environment and a tick of every goal. -/
def step [Amount R] [Gate K R] [Sensor X O A] (m : Monitored E S K X O T) (a : A) :
    Outcome R (Monitored E S K X O T) (Step T R) :=
  ((Environment.step m.environment a).within ({ m with environment := · })).andThen fun s m =>
    (m.observe s.observation (some a) s.done).map fun ticks =>
      { observation := m.combine s.observation (ticks.map (·.1))
        reward := s.reward + Amount.sum (ticks.map (·.2))
        done := s.done
        info := s.info }

/-- The space of the environment's observations together with those of the goals' states. -/
def space (m : Monitored E S K X O T) : Space :=
  (Environment.observations m.environment).compose (.multi (m.goals.flatMap (·.space.dims)))

instance [Amount R] [Gate K R] [Sensor X O A] : Environment (Monitored E S K X O T) T A R where
  reset := reset
  step := step
  observations := space
  actions m := Environment.actions m.environment
  horizon m := Environment.horizon m.environment

end Monitored

end GoalAutomata
