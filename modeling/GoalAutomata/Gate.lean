/-
  Gates: what decides, tick by tick, whether a goal observes the fluents.
-/
import GoalAutomata.Outcome

namespace GoalAutomata

/-- What lets a goal observe a tick or not.  The events may carry amounts in `R`. -/
class Gate (K R : Type) where
  /-- takes the fluents of one tick, and tells whether the gate is open -/
  step : K → Fluents → Outcome R K Bool
  /-- back to the start of an episode -/
  reset : K → K
  /-- what a reset reports of the episode that it ends -/
  resetRemarks : K → List (Event R)

/-- Two kinds of gates side by side. -/
instance {K L R : Type} [Gate K R] [Gate L R] : Gate (K ⊕ L) R where
  step
    | .inl k, I => (Gate.step k I).within .inl
    | .inr l, I => (Gate.step l I).within .inr
  reset
    | .inl k => .inl (Gate.reset R k)
    | .inr l => .inr (Gate.reset R l)
  resetRemarks
    | .inl k => Gate.resetRemarks k
    | .inr l => Gate.resetRemarks l

end GoalAutomata
