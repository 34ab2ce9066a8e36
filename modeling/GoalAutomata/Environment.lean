/-
  Environments: what an agent acts in.

  An environment answers a reset with an observation and an action with an
  observation, a reward, whether the episode is over, and notes.
-/
import GoalAutomata.Outcome

namespace GoalAutomata

/-- Notes on a step, by name. -/
abbrev Notes := Std.ExtTreeMap String String compare

/-- What an action brings. -/
structure Step (O R : Type) where
  observation : O
  reward : R
  /-- whether the episode is over -/
  done : Bool
  info : Notes := ∅

/-- The observations in `O`, actions in `A` and rewards in `R` of an environment with state in
    `E`. -/
class Environment (E : Type) (O A R : outParam Type) where
  reset : E → Outcome R E O
  step : E → A → Outcome R E (Step O R)
  observations : E → Space
  actions : E → Space
  /-- the number of steps within which every episode ends that ends at all -/
  horizon : E → Nat

/-- Actions that have a number. -/
class Numbered (A : Type) where
  ofCode : Nat → A
  code : A → Nat

/-- Two kinds of environments side by side. -/
instance {E F O A R : Type} [Environment E O A R] [Environment F O A R] :
    Environment (E ⊕ F) O A R where
  reset
    | .inl e => (Environment.reset e).within .inl
    | .inr f => (Environment.reset f).within .inr
  step
    | .inl e, a => (Environment.step e a).within .inl
    | .inr f, a => (Environment.step f a).within .inr
  observations
    | .inl e => Environment.observations e
    | .inr f => Environment.observations f
  actions
    | .inl e => Environment.actions e
    | .inr f => Environment.actions f
  horizon
    | .inl e => Environment.horizon e
    | .inr f => Environment.horizon f

end GoalAutomata
