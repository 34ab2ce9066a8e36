/-
  Potentials of states, and the rewards that they shape.

  A potential grows towards acceptance.  Paying for each step the gain in
  potential, instead of a reward at the very end, leaves the total of an episode
  as it was: the gains telescope.  For that the potential is zero at the end of
  an episode, whatever the state.

  * `Potential.ofLevels`: potentials from distances to acceptance;
  * `shapedReward`: the reward of one step.
-/
import GoalAutomata.Amount
import GoalAutomata.Levels

namespace GoalAutomata

variable {R : Type} [Amount R]

/-- A snapshot of the potential of every known state. -/
structure Potential (R : Type) where
  values : StateMap R

namespace Potential

/-- The potential of no state. -/
def empty : Potential R := ⟨∅⟩

/-- The potential of a state, zero for an unknown one. -/
def get (P : Potential R) (q : Nat) : R := P.values[q]?.getD 0

/-- The potential of a state as the last one of an episode, or else in the midst of it. -/
def eval (P : Potential R) (q : Nat) (terminal : Bool) : R := if terminal then 0 else P.get q

/-- The potential at level `l` when the initial state is at level `l₀`: the share of the way to
    acceptance already covered, `(l₀ - l) / l₀`, times the reward.  From an initial state that is
    accepting there is no way to cover, and the share is `-l`. -/
def atLevel (l₀ l : Nat) (reward : R) : R :=
  let covered : R := Amount.ofNat l₀ - Amount.ofNat l
  (if l₀ = 0 then covered else covered / Amount.ofNat l₀) * reward

/-- The potentials of the states with a known level. -/
def ofLevels (L : Levels) (initial : Nat) (reward : R) : Potential R :=
  ⟨L.known.map fun _ l => atLevel (L.level initial) l reward⟩

end Potential

/-- The reward of a step between states of the given potentials. -/
def shapedReward (source destination bonus discount : R) : R :=
  discount * destination - source + bonus

end GoalAutomata
