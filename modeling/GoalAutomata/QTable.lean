/-
  Learning by tables of action values.

  A table has a row for every observation at which an action was chosen, or from
  which one was to be chosen next: an estimate of the return of each action.  New
  rows hold small random values.  A step moves the estimate of its action by the
  share `alpha` towards the reward plus `gamma` times the best estimate at the next
  observation, which counts as zero at the end of an episode.

  * `QTable.choose`: a random action with probability `epsilon` while exploring,
    otherwise the first of the best ones;
  * `QTable.update`: what a step teaches;
  * `QTable.episode`, `QTable.train`, `QTable.evaluate`: whole episodes, which
    fail when they exceed the horizon of the environment.
-/
import GoalAutomata.Environment
import GoalAutomata.Generator
import Std.Data.ExtTreeMap

namespace GoalAutomata

/-- Observations with states of goals come in the order of their parts. -/
instance ordWithStates {O : Type} [Ord O] : Ord (O × List Nat) := lexOrd

/-- How much is learned, explored and looked ahead. -/
structure Learning (R : Type) where
  /-- the share by which an estimate moves -/
  alpha : R
  /-- the probability of a random action -/
  epsilon : R
  /-- the factor of what comes later -/
  gamma : R

/-! ## Rows -/

namespace ActionValues

variable {R G : Type} [Amount R] [Generator G]

/-- The better of the best action so far and the next one, with their values; a tie keeps the
    first. -/
def better (best : Nat × R) (next : R × Nat) : Nat × R :=
  if Amount.less best.2 next.1 then (next.2, next.1) else best

/-- The first action of greatest value. -/
def bestAction (row : List R) : Nat := (row.zipIdx.foldl better (0, Amount.least)).1

/-- The greatest value. -/
def bestValue (row : List R) : R := row.foldl Amount.greater Amount.least

/-- Small random values, one for each of `n` actions. -/
def draw : Nat → G → List R × G
  | 0, k => ([], k)
  | n + 1, k =>
    let (u, k) := Generator.unit (R := R) k
    let (row, k) := draw n k
    (u * (1 / Amount.ofNat 1000) :: row, k)

theorem length_draw (n : Nat) (k : G) : (draw (R := R) n k).1.length = n := by
  induction n generalizing k with
  | zero => rfl
  | succ n ih => simp [draw, ih]

end ActionValues

/-! ## Tables -/

/-- A table of action values for the observations in `O`, with a generator in `G`. -/
structure QTable (O R G : Type) [Ord O] where
  rows : Std.ExtTreeMap O (List R) compare := ∅
  /-- the number of actions -/
  actions : Nat
  learning : Learning R
  generator : G

namespace QTable

variable {O R G : Type} [Ord O]

/-- The table without rows. -/
def new [Generator G] (actions : Nat) (learning : Learning R) (seed : UInt64) : QTable O R G :=
  { actions, learning, generator := Generator.ofSeed seed }

variable [Std.TransOrd O]

/-- The number of observations with a row. -/
def size (t : QTable O R G) : Nat := t.rows.size

variable [Amount R] [Generator G]

/-- The row of an observation, which is drawn if there is none. -/
def row (t : QTable O R G) (o : O) : List R × QTable O R G :=
  match t.rows[o]? with
  | some row => (row, t)
  | none =>
    let (row, k) := ActionValues.draw t.actions t.generator
    (row, { t with rows := t.rows.insert o row, generator := k })

/-- The first of the best actions. -/
def greedy (t : QTable O R G) (o : O) : Nat × QTable O R G :=
  let (row, t) := t.row o
  (ActionValues.bestAction row, t)

/-- An action at an observation. -/
def choose (t : QTable O R G) (o : O) (explore : Bool) : Nat × QTable O R G :=
  if explore then
    let (u, k) := Generator.unit (R := R) t.generator
    let t := { t with generator := k }
    if Amount.less u t.learning.epsilon then
      let (a, k) := Generator.below t.actions k
      (a, { t with generator := k })
    else t.greedy o
  else t.greedy o

/-- The best estimate at the next observation, zero at the end of an episode. -/
def outlook (t : QTable O R G) (o : O) (last : Bool) : R × QTable O R G :=
  if last then (0, t)
  else
    let (row, t) := t.row o
    (ActionValues.bestValue row, t)

/-- An estimate after a step with the given reward, which leads to an outlook. -/
def learn (t : QTable O R G) (reward outlook value : R) : R :=
  value + t.learning.alpha * (reward + t.learning.gamma * outlook - value)

/-- The table after a step from an observation, by an action, to the next observation. -/
def update (t : QTable O R G) (o : O) (action : Nat) (reward : R) (next : O) (last : Bool) :
    QTable O R G :=
  let (ahead, t) := t.outlook next last
  let (row, t) := t.row o
  { t with rows := t.rows.insert o (row.modify action (t.learn reward ahead)) }

/-! ## Episodes -/

variable {E A : Type} [Environment E O A R] [Numbered A]

/-- At most `n` steps of an episode with the given horizon, after those that brought `total`. -/
def play (learning : Bool) (horizon : Nat) :
    Nat → QTable O R G → E → O → R → Outcome R (QTable O R G × E) R
  | 0, t, e, _, _ => .failed (.endless horizon) (t, e)
  | n + 1, t, e, o, total =>
    let (a, t) := t.choose o learning
    ((Environment.step e (Numbered.ofCode a)).within (t, ·)).andThen fun s (t, e) =>
      let t := if learning then t.update o a s.reward s.observation s.done else t
      if s.done then .done (total + s.reward) (t, e)
      else play learning horizon n t e s.observation (total + s.reward)

/-- One episode, answered by the sum of its rewards. -/
def episode (learning : Bool) (t : QTable O R G) (e : E) : Outcome R (QTable O R G × E) R :=
  ((Environment.reset e).within (t, ·)).andThen fun o (t, e) =>
    let n := Environment.horizon e
    play learning n n t e o 0

/-- The mean return of the last `period` episodes, every `period` episodes; `past` lists the returns
    of the `k` episodes so far, from the last one back. -/
def report (period k : Nat) (past : List R) (t : QTable O R G) : List (Event R) :=
  if k % period = 0 then
    let recent := (past.take period).reverse
    [.progress k (Amount.average recent recent.length) t.size]
  else []

/-- So many more training episodes, after `k` episodes with the returns `past`. -/
def trainFrom (period : Nat) :
    Nat → Nat → List R → QTable O R G → E → Outcome R (QTable O R G × E) (List R)
  | 0, _, past, t, e => .done past.reverse (t, e)
  | n + 1, k, past, t, e =>
    (t.episode true e).andThen fun total (t, e) =>
      let all := total :: past
      (trainFrom period n (k + 1) all t e).after
        (.episodeFinished k total :: report period (k + 1) all t)

/-- Training episodes, answered by their returns, with ten reports or so. -/
def train (episodes : Nat) (t : QTable O R G) (e : E) : Outcome R (QTable O R G × E) (List R) :=
  trainFrom (max (episodes / 10) 1) episodes 0 [] t e

/-- Episodes without learning, answered by their returns. -/
def evaluate : Nat → QTable O R G → E → Outcome R (QTable O R G × E) (List R)
  | 0, t, e => .done [] (t, e)
  | n + 1, t, e =>
    (t.episode false e).andThen fun total (t, e) => (evaluate n t e).map (total :: ·)

end QTable

end GoalAutomata
