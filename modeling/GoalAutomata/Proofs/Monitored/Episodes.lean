/-
  Episodes under layers of goals.

  Whatever is put around an environment, its episodes end when its own do: a layer of
  goals hands on whether a step is done, and fails if the step does.

  * `Monitored.timely`: a layer does not make episodes longer;
  * `OverChain.timely`: on a chain with any layers they end within ten steps for each
    cell.
-/
import GoalAutomata.Proofs.Environment.Chain
import GoalAutomata.Proofs.Monitored.Calls

namespace GoalAutomata

open Environment

namespace Monitored

variable {E S K X O T A R : Type} [Amount R] [Simulator S R] [Gate K R] [Sensor X O A]
  [Environment E O A R] {m : Monitored E S K X O T} {n : Nat}

/-- **A layer of goals does not make an episode longer**, whatever the goals pay. -/
theorem endsIn (h : EndsIn n m.environment) : EndsIn n m := by
  induction n generalizing m with
  | zero => exact h
  | succ n ih =>
    intro a hover
    obtain ⟨y, hy, hdone⟩ := exists_of_not_isOver hover
    obtain ⟨s, Is, x, hs, -, hstate, ps, heq, -⟩ := step_ok hy
    cases heq
    have hrest : EndsIn n (Environment.step m.environment a).state := by
      refine h a ?_
      rw [hs]
      exact hdone
    refine ih ?_
    change EndsIn n (m.step a).state.environment
    rw [hstate]
    exact hrest

theorem environment_after (cs : List (Act A)) :
    (after m cs).environment = after m.environment cs := by
  obtain ⟨y, f, heq, -⟩ := exists_after m cs
  rw [heq]

/-- **So episodes under a layer end in time** if they do without it. -/
theorem timely (h : Timely n m.environment) : Timely n m where
  endsWithin past t ht := by
    obtain ⟨o, Is, x, ho, -, hstate, -, -⟩ := reset_ok ht
    rw [environment_after] at ho hstate
    refine endsIn ?_
    change EndsIn n (Monitored.reset (after m past)).state.environment
    rw [hstate]
    exact h.endsWithin past o ho
  le_horizon cs := by
    change n ≤ horizon (after m cs).environment
    rw [environment_after]
    exact h.le_horizon cs

end Monitored

/-- A chain of `n` cells with any number of layers of any goals, gates and sensors around it. -/
inductive OverChain {R : Type} [Amount R] (n : Nat) :
    {E O : Type} → [Environment E O ChainAction R] → E → Prop
  | chain (e : ChainEnvironment R) (h : e.chain.cells = n) : OverChain n e
  | layer {E S K X O T : Type} [Environment E O ChainAction R] [Simulator S R] [Gate K R]
    [Sensor X O ChainAction] (m : Monitored E S K X O T) (h : OverChain n m.environment) :
    OverChain n m

/-- **Under any layers a chain has its episodes in time.** -/
theorem OverChain.timely {R : Type} [Amount R] {n : Nat} {E O : Type}
    [Environment E O ChainAction R] {e : E} (h : OverChain n e) : Timely (10 * n) e := by
  induction h with
  | chain e h => exact h ▸ e.timely
  | layer m _ ih => exact Monitored.timely ih

end GoalAutomata
