/-
  The potentials over a known graph that exploration leaves alone.

  The forward pass gives potentials to exploring states only, so every other
  state keeps its settled potential (`KnownGraph.get_potentials`).  The settled
  potential is zero for a failure and that of the distance for a state with a path
  to acceptance (`KnownGraph.getElem?_settled`).  Such states are never exploring,
  and the bonuses do not matter for them.  Neither is the initial state, and its
  potential is zero (`KnownGraph.eval_initial`).
-/
import Mathlib.Algebra.Order.Field.Rat
import GoalAutomata.KnownGraph.Potential
import GoalAutomata.Proofs.Potential

namespace GoalAutomata

namespace KnownGraph

variable {C R : Type} [Amount R] {G : KnownGraph C} {L : Levels} {bonuses P : StateMap R}
  {reward : R} {p q r : Nat}

/-! ## The forward pass -/

theorem getElem?_relax (h : G.isExploring L q = false) :
    (G.relax L bonuses reward p P r)[q]? = P[q]? := by
  unfold relax
  split_ifs with hr
  · have hne : r ≠ q := by
      rintro rfl
      exact absurd hr (by simp [h])
    simp [Std.ExtTreeMap.getElem?_alter, hne]
  · rfl

theorem getElem?_expand (h : G.isExploring L q = false) :
    (G.expand L bonuses reward P p)[q]? = P[q]? :=
  List.foldlRecOn (motive := fun M => M[q]? = P[q]?) _ _ rfl
    fun _ hM _ _ => (getElem?_relax h).trans hM

/-- **A state that is not exploring keeps its settled potential.** -/
theorem get_potentials (h : G.isExploring (.ofAutomaton G.toAutomaton) q = false) :
    (G.potentials bonuses reward).get q =
      (G.settled (.ofAutomaton G.toAutomaton) reward)[q]?.getD 0 := by
  have hkeep : (G.potentials bonuses reward).values[q]? =
      (G.settled (.ofAutomaton G.toAutomaton) reward)[q]? :=
    List.foldlRecOn (motive := fun M => M[q]? = _) _ _ rfl
      fun _ hM _ _ => (getElem?_expand h).trans hM
  rw [Potential.get, hkeep]

/-! ## Settled potentials -/

theorem getElem?_settled : (G.settled L reward)[q]? =
    if q ∈ G.failures then some 0
    else if G.accepting ≠ ∅ ∧ q < G.size ∧ L.isFailure q = false then
      some ((Potential.ofLevels L 0 reward).get q)
    else if q = 0 then some 0 else none := by
  have hreach : q ∈ (if G.accepting.isEmpty then [] else
      (List.range G.size).filter (!L.isFailure ·)) ↔
      G.accepting ≠ ∅ ∧ q < G.size ∧ L.isFailure q = false := by
    split_ifs with ha
    · simp [Std.ExtTreeSet.isEmpty_iff.1 ha]
    · have hne : G.accepting ≠ ∅ := fun h => ha (Std.ExtTreeSet.isEmpty_iff.2 h)
      simp [hne]
  rw [settled, StateMap.getElem?_insertIfNew, StateMap.getElem?_foldl_insert,
    StateMap.getElem?_foldl_insert]
  simp only [Std.ExtTreeSet.mem_toList, hreach]
  split_ifs <;> simp

/-- A known failure has no potential. -/
theorem get_potentials_of_mem_failures (bonuses : StateMap R) (reward : R) (hq : q ∈ G.failures) :
    (G.potentials bonuses reward).get q = 0 := by
  have hsettled : G.isExploring (.ofAutomaton G.toAutomaton) q = false := by
    simp [isExploring, hq]
  rw [get_potentials hsettled, getElem?_settled, if_pos hq, Option.getD_some]

/-- **A known state with a path has the potential of its level**, whatever the bonuses. -/
theorem get_potentials_of_reaches (bonuses : StateMap R) (reward : R) (hq : q < G.size)
    (hfail : q ∉ G.failures) (hr : G.toAutomaton.Reaches q) :
    (G.potentials bonuses reward).get q =
      (Potential.ofLevels (.ofAutomaton G.toAutomaton) 0 reward).get q := by
  have hpath : (Levels.ofAutomaton G.toAutomaton).isFailure q = false := by
    rw [← Bool.not_eq_true, Levels.isFailure_iff]
    exact not_not.2 hr
  have hsettled : G.isExploring (.ofAutomaton G.toAutomaton) q = false := by
    simp [isExploring, hpath]
  have hacc : G.accepting ≠ ∅ := by
    intro hnone
    have htop : (Levels.ofAutomaton G.toAutomaton).top = 0 := Levels.top_eq_zero hnone
    have hlt := Levels.level_lt_top_iff.2 hr
    rw [htop] at hlt
    exact Nat.not_lt_zero _ hlt
  rw [get_potentials hsettled, getElem?_settled, if_neg hfail, if_pos ⟨hacc, hq, hpath⟩,
    Option.getD_some]

theorem isExploring_zero : G.isExploring L 0 = false := by simp [isExploring]

/-- **The initial state has no potential**, whatever is known of the graph. -/
theorem eval_initial (G : KnownGraph C) (bonuses : StateMap Rat) (reward : Rat) :
    (G.potentials bonuses reward).eval 0 false = 0 := by
  rw [Potential.eval_rat, if_neg Bool.false_ne_true, get_potentials isExploring_zero,
    getElem?_settled]
  rw [if_pos rfl]
  split_ifs
  · rfl
  · exact Potential.get_ofLevels_self _ _ _
  · rfl

end KnownGraph

end GoalAutomata
