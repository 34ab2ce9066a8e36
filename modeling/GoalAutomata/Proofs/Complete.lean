/-
  Simulation of an automaton that is known as a whole: steps and returns.

  A simulator that is paid by potential pays gains, for its potentials are found
  once and for all.  The potential of the initial state is zero whatever the
  automaton, so an episode brings the bonus of its end and nothing else.

  * `CompleteSimulator.step_cases`: what a step can do;
  * `discounted_complete_episode`: the discounted sum of an episode.
-/
import Mathlib.Algebra.Order.Field.Rat
import Mathlib.Tactic.NormNum
import GoalAutomata.Dfa
import GoalAutomata.Proofs.Telescoping
import GoalAutomata.Simulator.Complete

namespace GoalAutomata

namespace CompleteSimulator

/-! ## One step -/

section Step

variable {R : Type} [Amount R] {S : CompleteSimulator R} {I : Fluents} {last : Bool}

theorem isTrue_eq : Simulator.isTrue S = S.state?.any S.machine.automaton.isAccepting := rfl

theorem isTrue_of_state? {q : Nat} (hq : S.state? = some q) :
    Simulator.isTrue S = S.machine.automaton.isAccepting q := by
  rw [isTrue_eq, hq, Option.any_some]

theorem pay_sparse (h : S.shaping.mode = .sparse) (q r : Nat) (last : Bool) :
    S.pay q r last = S.machine.payment r := by
  simp only [pay, h]

/-- A step fails before the first reset and where the automaton has no successor, and changes
    nothing then; it moves to the successor and pays otherwise. -/
theorem step_cases (S : CompleteSimulator R) (I : Fluents) (last : Bool) :
    (S.state? = none ∧ (S.step I last).result = .error .notStarted ∧ (S.step I last).state = S) ∨
    (∃ q e, S.state? = some q ∧ S.machine.automaton.successor q I = .error e ∧
      (S.step I last).result = .error e ∧ (S.step I last).state = S) ∨
    ∃ q r, S.state? = some q ∧ S.machine.automaton.successor q I = .ok r ∧
      (S.step I last).result = .ok (r, S.pay q r last) ∧
      (S.step I last).state = { S with state? := some r } := by
  unfold step
  cases hq : S.state? with
  | none => exact Or.inl ⟨rfl, rfl, rfl⟩
  | some q =>
    cases hr : S.machine.automaton.successor q I with
    | error e => exact Or.inr (Or.inl ⟨q, e, rfl, hr, by simp [hr]⟩)
    | ok r => exact Or.inr (Or.inr ⟨q, r, rfl, hr, by simp [hr]⟩)

theorem step_of_none (I : Fluents) (last : Bool) (hq : S.state? = none) :
    S.step I last = .failed .notStarted S := by
  rw [step, hq]
  rfl

/-- A step changes nothing but the state. -/
theorem state_cases (S : CompleteSimulator R) (I : Fluents) (last : Bool) :
    (S.step I last).state = S ∨ ∃ r, (S.step I last).state = { S with state? := some r } := by
  rcases step_cases S I last with ⟨-, -, hs⟩ | ⟨_, _, -, -, -, hs⟩ | ⟨_, r, -, -, -, hs⟩
  · exact Or.inl hs
  · exact Or.inl hs
  · exact Or.inr ⟨r, hs⟩

/-- A step to a successor. -/
theorem step_of_successor {q r : Nat} (last : Bool) (hq : S.state? = some q)
    (hr : S.machine.automaton.successor q I = .ok r) :
    (S.step I last).result = .ok (r, S.pay q r last) ∧
      (S.step I last).state = { S with state? := some r } := by
  rcases step_cases S I last with ⟨hn, -, -⟩ | ⟨_, _, hq', he, -, -⟩ | ⟨_, _, hq', hr', hres, hs⟩
  · cases hn.symm.trans hq
  · cases hq'.symm.trans hq
    cases he.symm.trans hr
  · cases hq'.symm.trans hq
    cases hr'.symm.trans hr
    exact ⟨hres, hs⟩

/-- What a successful step has done. -/
theorem exists_of_ok {r : Nat} {x : R} (h : (S.step I last).result = .ok (r, x)) :
    ∃ q, S.state? = some q ∧ S.machine.automaton.successor q I = .ok r ∧ x = S.pay q r last ∧
      (S.step I last).state = { S with state? := some r } := by
  rcases step_cases S I last with ⟨-, hr, -⟩ | ⟨_, _, -, -, hr, -⟩ | ⟨q, _, hq, hsucc, hr, hs⟩
  · cases hr.symm.trans h
  · cases hr.symm.trans h
  · cases hr.symm.trans h
    exact ⟨q, hq, hsucc, rfl, hs⟩

/-- **A step fails before the first reset, and where the automaton does.** -/
theorem result_eq_error_iff {e : Error} : (S.step I last).result = .error e ↔
    S.state? = none ∧ e = .notStarted ∨
      ∃ q, S.state? = some q ∧ S.machine.automaton.successor q I = .error e := by
  rcases step_cases S I last with ⟨hn, hr, -⟩ | ⟨q, _, hq, he, hr, -⟩ | ⟨q, _, hq, hsucc, hr, -⟩
  · simp [hr, hn, eq_comm]
  · simp [hr, hq, he]
  · simp [hr, hq, hsucc]

theorem state_of_error {e : Error} (h : (S.step I last).result = .error e) :
    (S.step I last).state = S := by
  rcases step_cases S I last with ⟨-, -, hs⟩ | ⟨q, e, -, -, -, hs⟩ | ⟨q, r, -, -, hr, -⟩
  · exact hs
  · exact hs
  · rw [h] at hr
    cases hr

theorem truthful (R : Type) [Amount R] : Simulator.Truthful (CompleteSimulator R) := by
  intro S I last q x hx
  obtain ⟨_, -, -, -, hs⟩ := exists_of_ok hx
  exact congrArg state? hs

end Step

/-! ## Returns -/

section Returns

variable {S : CompleteSimulator Rat} {M : PricedAutomaton Rat} {A : Automaton} {reward g : Rat}

/-- The potential of the current state. -/
def height (S : CompleteSimulator Rat) : Rat :=
  (S.state?.map fun q => S.machine.potential.eval q false).getD 0

theorem height_of_state? {q : Nat} (hq : S.state? = some q) :
    S.height = S.machine.potential.eval q false := by
  rw [height, hq, Option.map_some, Option.getD_some]

/-- Paid by potential, with the discount `g`, for the automaton `M`. -/
def Pursues (M : PricedAutomaton Rat) (g : Rat) (S : CompleteSimulator Rat) : Prop :=
  S.machine = M ∧ S.shaping = ⟨.potential, g⟩

theorem pursues_step (h : S.Pursues M g) (I : Fluents) (last : Bool) :
    (S.step I last).state.Pursues M g := by
  rcases state_cases S I last with hs | ⟨_, hs⟩
  all_goals rw [hs]; exact h

theorem pursues_after (h : S.Pursues M g) (cs : List Call) : (Simulator.after S cs).Pursues M g :=
  Simulator.after_induction h (fun _ h => h) (fun _ I last h => pursues_step h I last) cs

theorem paysGains (M : PricedAutomaton Rat) (g : Rat) :
    PaysGains (Pursues M g) height g M.reward where
  refused _ _ _ _ h := state_of_error h
  kept _ I last _ h _ := pursues_step h I last
  paid S I last q x := by
    rintro ⟨rfl, hσ⟩ hx
    obtain ⟨p, hp, -, rfl, hs⟩ := exists_of_ok hx
    have hpay : S.pay p q last = shapedReward (S.machine.potential.eval p false)
        (S.machine.potential.eval q last) (if last then S.machine.payment q else 0) g := by
      simp only [pay, hσ]
    have hstate : (Simulator.step S I last).state = { S with state? := some q } := hs
    rw [hpay, shapedReward_rat, hstate, isTrue_eq]
    simp only [height, hp, Option.map_some, Option.getD_some, Option.any_some]
    cases last <;> rfl

/-- Gains are paid whatever the automaton. -/
theorem paysGains_new (reward g : Rat) :
    PaysGains (fun S => ∃ A, S.Pursues (.new A reward) g) height g reward where
  refused _ _ _ _ h := state_of_error h
  kept := fun _ I last _ ⟨A, hS⟩ _ => ⟨A, pursues_step hS I last⟩
  paid := fun S I last q x ⟨A, hS⟩ => (paysGains (.new A reward) g).paid S I last q x hS

/-- A stage of an episode is at the state that it answers. -/
theorem stage_pursues (h : S.Pursues M g) {w : List (Fluents × Bool)} :
    ∀ e ∈ Simulator.stages S w, e.simulator.machine = M ∧ e.simulator.state? = some e.state := by
  refine Simulator.forall_mem_stages (G := Pursues M g)
    (fun _ I last h => pursues_step h I last) ?_ h w
  intro S I last q x hS hx
  obtain ⟨_, -, -, -, hs⟩ := exists_of_ok hx
  exact ⟨(pursues_step hS I last).1, congrArg state? hs⟩

/-- **The initial state has no potential**, be it accepting, a failure or neither. -/
theorem eval_initial (A : Automaton) (reward : Rat) :
    (PricedAutomaton.new A reward).potential.eval A.initial false = 0 :=
  Potential.get_ofLevels_self _ _ _

theorem height_reset (h : S.machine = .new A reward) : (Simulator.reset S).1.height = 0 := by
  have hreset : (Simulator.reset S).1.height =
      S.machine.potential.eval S.machine.automaton.initial false := rfl
  rw [hreset, h]
  exact eval_initial A reward

end Returns

end CompleteSimulator

/-- **Policy invariance.**  After any earlier calls, the discounted sum of an episode is the
    discounted bonus if it ends in an accepting state, zero if it ends in another one, and the
    discounted potential of its last state if it is broken off.  Without discount a whole episode
    brings just the bonus. -/
theorem discounted_complete_episode (A : Automaton) (reward g : Rat) (history : List Call)
    (w : List (Fluents × Bool)) (es : List (Stage (CompleteSimulator Rat) Rat))
    (e : Stage (CompleteSimulator Rat) Rat)
    (hw : Simulator.stages (Simulator.after (CompleteSimulator.new A reward ⟨.potential, g⟩)
      (history ++ [.reset])) w = es ++ [e])
    (hes : ∀ d ∈ es, d.last = false) :
    discounted g ((es ++ [e]).map (·.reward)) =
      (if e.last then if A.isAccepting e.state then g ^ es.length * reward else 0
        else g ^ (es.length + 1) * (PricedAutomaton.new A reward).potential.eval e.state false) ∧
    (g = 1 → e.last = true →
      ((es ++ [e]).map (·.reward)).sum = if A.isAccepting e.state then reward else 0) ∧
    (PricedAutomaton.new A reward).potential.eval A.initial false = 0 := by
  have hold := CompleteSimulator.pursues_after
    (S := .new A reward ⟨.potential, g⟩) (M := .new A reward) ⟨rfl, rfl⟩ history
  rw [Simulator.after_append] at hw
  generalize Simulator.after (CompleteSimulator.new A reward ⟨.potential, g⟩) history = S at hw hold
  have hstart : (Simulator.after S [.reset]).Pursues (.new A reward) g := hold
  have hzero : (Simulator.after S [.reset]).height = 0 := CompleteSimulator.height_reset hold.1
  have hsum := (CompleteSimulator.paysGains _ _).discounted_stages hstart hw hes
  obtain ⟨hM, hq⟩ := CompleteSimulator.stage_pursues (w := w) hstart e (by rw [hw]; simp)
  have hret : discounted g ((es ++ [e]).map (·.reward)) =
      if e.last then if A.isAccepting e.state then g ^ es.length * reward else 0
        else g ^ (es.length + 1) * (PricedAutomaton.new A reward).potential.eval e.state false := by
    rw [hsum, hzero, sub_zero, Stage.outcome, CompleteSimulator.isTrue_eq,
      CompleteSimulator.height, hM, hq]
    rfl
  refine ⟨hret, ?_, CompleteSimulator.eval_initial A reward⟩
  rintro rfl hlast
  rw [← discounted_one, hret, if_pos hlast, one_pow, one_mul]

/-- Accepts after two steps, whatever they read. -/
def Dfa.twoSteps : Dfa where
  initial := 0
  accepting := .ofList [2]
  table := [[(.tt, 1)], [(.tt, 2)], []]
  initial_lt := by decide
  accepting_lt := by simp
  target_lt := by simp

theorem discounted_two_steps :
    discounted (1 / 2) ((Simulator.stages (Simulator.after
      (CompleteSimulator.new Dfa.twoSteps.toAutomaton (3 : Rat) ⟨.potential, 1 / 2⟩) [.reset])
      [(∅, false), (∅, true)]).map (·.reward)) = 3 / 2 := by
  have h := (discounted_complete_episode Dfa.twoSteps.toAutomaton 3 (1 / 2) []
    [(∅, false), (∅, true)] [_] _ rfl (by simp)).1
  refine h.trans ?_
  rw [if_pos rfl, if_pos]
  · norm_num
  · decide

end GoalAutomata
