/-
  A chain of cells, walked from left to right.

  Bumping into either end costs one.  Reaching the last cell pays one and ends the
  episode, which otherwise ends after ten steps for each cell.
-/
import GoalAutomata.Amount
import GoalAutomata.Environment

namespace GoalAutomata

/-- A move on a chain. -/
inductive ChainAction where
  | left
  | stay
  | right
  deriving DecidableEq

namespace ChainAction

/-- The number of actions. -/
def count : Nat := 3

/-- The action with a code; from two on every code is a move to the right. -/
def ofCode : Nat → ChainAction
  | 0 => left
  | 1 => stay
  | _ => right

/-- The code of an action. -/
def code : ChainAction → Nat
  | left => 0
  | stay => 1
  | right => 2

/-- How far an action moves a walker. -/
def offset : ChainAction → Int
  | left => -1
  | stay => 0
  | right => 1

/-- The name of an action. -/
def name : ChainAction → String
  | left => "Left"
  | stay => "Nop"
  | right => "Right"

instance : Numbered ChainAction := ⟨ofCode, code⟩

@[simp] theorem ofCode_code (a : ChainAction) : ofCode a.code = a := by cases a <;> rfl

theorem code_lt (a : ChainAction) : a.code < count := by cases a <;> decide

end ChainAction

/-- A walker on a chain. -/
structure Chain where
  cells : Nat
  position : Nat
  /-- the number of steps of this episode -/
  counter : Nat := 0
  lastAction? : Option ChainAction := none
  position_lt : position < cells

namespace Chain

/-- A chain of at least two cells, with the walker on the first. -/
def new (n : Nat) : Except Error Chain :=
  if h : n < 2 then .error (.chainTooShort n)
  else .ok { cells := n, position := 0, position_lt := by omega }

/-- The last cell. -/
def lastCell (c : Chain) : Nat := c.cells - 1

/-- The greatest number of steps in an episode. -/
def maxSteps (c : Chain) : Nat := c.cells * 10

section Step

variable {R : Type} [Amount R]

/-- The cell of a walker who goes to a place, and the reward for it: whoever goes beyond an end is
    held there, which costs one. -/
def hold (c : Chain) (target : Int) : Nat × R :=
  if target < 0 then (0, -1)
  else if c.lastCell < target.toNat then (c.lastCell, -1)
  else (target.toNat, 0)

theorem hold_lt (c : Chain) (target : Int) : (c.hold (R := R) target).1 < c.cells := by
  have hpos := c.position_lt
  unfold hold lastCell
  split
  · exact Nat.zero_lt_of_lt hpos
  · split <;> dsimp only <;> omega

/-- A step of the walker.  On the last cell the reward is one, whatever it would have been, and the
    episode is over; elsewhere it is over when it has had all its steps. -/
def walk (c : Chain) (a : ChainAction) : Step Nat R × Chain :=
  let counter := c.counter + 1
  let held : Nat × R := c.hold (c.position + a.offset)
  let (reward, done) :=
    if held.1 = c.lastCell then (1, true) else (held.2, decide (c.maxSteps ≤ counter))
  (⟨held.1, reward, done, ∅⟩,
    { cells := c.cells
      position := held.1
      counter
      lastAction? := some a
      position_lt := c.hold_lt _ })

end Step

/-- The walker back on the first cell. -/
def restart (c : Chain) : Chain :=
  { cells := c.cells
    position := 0
    position_lt := Nat.zero_lt_of_lt c.position_lt }

end Chain

/-- A chain that pays in `R`. -/
structure ChainEnvironment (R : Type) where
  chain : Chain

namespace ChainEnvironment

variable {R : Type} [Amount R]

/-- A chain of at least two cells. -/
def new (n : Nat) : Except Error (ChainEnvironment R) := mk <$> Chain.new n

instance : Environment (ChainEnvironment R) Nat ChainAction R where
  reset e := .done 0 ⟨e.chain.restart⟩
  step e a :=
    let (s, chain) := e.chain.walk a
    .done s ⟨chain⟩
  observations e := .discrete e.chain.cells
  actions _ := .discrete ChainAction.count
  horizon e := e.chain.maxSteps

end ChainEnvironment

end GoalAutomata
