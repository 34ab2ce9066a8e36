/-
  How a simulator pays: the mode of payment, and the tunables of exploration.
-/
import GoalAutomata.Amount

namespace GoalAutomata

/-- When a reward is paid. -/
inductive Mode where
  /-- only where the state reached is accepting -/
  | sparse
  /-- on every step, by the gain in potential -/
  | potential
  deriving DecidableEq

namespace Mode

/-- The name of a mode. -/
def name : Mode → String
  | sparse => "sparse"
  | potential => "potential"

end Mode

/-- How steps are paid. -/
structure Shaping (R : Type) where
  mode : Mode
  /-- the factor of the destination potential; only with one do episodes telescope to their end -/
  discount : R

namespace Shaping

variable {R : Type} [Amount R]

/-- Payment by potential, without discount. -/
def standard : Shaping R := ⟨.potential, 1⟩

/-- Payment on acceptance only. -/
def sparse : Shaping R := { standard with mode := .sparse }

end Shaping

/-- How an automaton is explored while it is simulated. -/
structure Exploration (R : Type) where
  shaping : Shaping R
  /-- the bonus of a state when it is discovered, as a share of the reward -/
  initialBonus : R
  /-- the factor of every bonus from one episode to the next -/
  decay : R
  /-- the share of the reward below which a bonus is dropped -/
  threshold : R
  /-- the greatest number of states -/
  maxStates : Nat

namespace Exploration

variable {R : Type} [Amount R]

/-- A full bonus that loses a hundredth each episode, and room for 64 states. -/
def standard : Exploration R where
  shaping := .standard
  initialBonus := 1
  decay := Amount.ofNat 99 / Amount.ofNat 100
  threshold := 1 / Amount.ofNat 10000
  maxStates := 64

end Exploration

end GoalAutomata
