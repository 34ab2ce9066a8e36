/-
  Failed steps leave no trace.

  A step of a simulator that fails changes nothing (`Simulator.Atomic`), and neither
  does a tick at which a gate fails (`Gate.Atomic`).  So the failed calls can be left
  out of a run: the other calls get the same answers and lead to the same simulator
  (`Simulator.Atomic.after_successes`, `Simulator.Atomic.answers_successes`).

  A goal asks its gate before its simulator.  If the simulator fails, the gate has
  taken the tick already, and that is all that has changed (`Goal.cases_of_error`).

  * `failed_steps_leave_no_trace`: what fails, and what is left of it.
-/
import Mathlib.Algebra.Order.Field.Rat
import GoalAutomata.Gate.Engagement
import GoalAutomata.Proofs.Complete
import GoalAutomata.Proofs.Exploring
import GoalAutomata.Proofs.Goal

namespace GoalAutomata

/-- Whether a call has failed. -/
def Answer.isFailure {R : Type} : Answer R → Bool
  | stepped (.error _) => true
  | _ => false

/-! ## Runs without their failed calls -/

namespace Simulator

variable {S T R : Type} [Simulator S R] [Simulator T R]

/-- A failed step leaves the simulator as it was. -/
def Atomic (S : Type) {R : Type} [Simulator S R] : Prop :=
  ∀ (s : S) I last e, (step s I last).result = .error e → (step s I last).state = s

/-- The calls of a run that succeed. -/
def successes (s : S) : List Call → List Call
  | [] => []
  | c :: cs =>
    if (call s c).2.isFailure then successes (call s c).1 cs
    else c :: successes (call s c).1 cs

theorem Atomic.sum (hS : Atomic S) (hT : Atomic T) : Atomic (S ⊕ T) := by
  rintro (s | t) I last e he
  · exact congrArg Sum.inl (hS s I last e he)
  · exact congrArg Sum.inr (hT t I last e he)

theorem Atomic.call_of_isFailure (h : Atomic S) {s : S} {c : Call}
    (hc : (call s c).2.isFailure = true) : (call s c).1 = s := by
  cases c with
  | reset => cases hc
  | step I last =>
    change (step s I last).state = s
    cases hres : (step s I last).result with
    | error e => exact h s I last e hres
    | ok p =>
      have hno : Answer.isFailure (.stepped (step s I last).result) = true := hc
      rw [hres] at hno
      cases hno

/-- **Without its failed calls a run leads to the same simulator.** -/
theorem Atomic.after_successes (h : Atomic S) (s : S) (cs : List Call) :
    after s (successes s cs) = after s cs := by
  induction cs generalizing s with
  | nil => rfl
  | cons c cs ih =>
    rw [after_cons, ← ih]
    cases hc : (call s c).2.isFailure with
    | true =>
      simp only [successes, hc, if_true]
      rw [h.call_of_isFailure hc]
    | false =>
      simp only [successes, hc, Bool.false_eq_true, if_false]
      rfl

/-- **Without its failed calls a run has the other answers.** -/
theorem Atomic.answers_successes (h : Atomic S) (s : S) (cs : List Call) :
    answers s (successes s cs) = (answers s cs).filter (!·.isFailure) := by
  induction cs generalizing s with
  | nil => rfl
  | cons c cs ih =>
    rw [answers, List.filter_cons, ← ih]
    cases hc : (call s c).2.isFailure with
    | true =>
      simp only [successes, hc, if_true]
      rw [h.call_of_isFailure hc]
      rfl
    | false =>
      simp only [successes, hc, Bool.false_eq_true, if_false]
      rfl

end Simulator

theorem CompleteSimulator.atomic (R : Type) [Amount R] : Simulator.Atomic (CompleteSimulator R) :=
  fun _ _ _ _ => state_of_error

theorem ExploringSimulator.atomic (C R : Type) [Amount R] [DecidableEq C] :
    Simulator.Atomic (ExploringSimulator C R) :=
  fun _ _ _ _ => state_of_error

/-! ## Gates and goals -/

namespace Gate

variable {K L R : Type} [Gate K R] [Gate L R]

/-- A tick at which a gate fails leaves it as it was. -/
def Atomic (K R : Type) [Gate K R] : Prop :=
  ∀ (k : K) I e, (step (R := R) k I).result = .error e → (step (R := R) k I).state = k

theorem Atomic.sum (hK : Atomic K R) (hL : Atomic L R) : Atomic (K ⊕ L) R := by
  rintro (k | l) I e he
  · exact congrArg Sum.inl (hK k I e he)
  · exact congrArg Sum.inr (hL l I e he)

end Gate

/-- A gate by a test never fails. -/
theorem StatelessGate.atomic (P R : Type) [TickTest P] : Gate.Atomic (StatelessGate P) R := by
  intro k I e he
  change (k.step (R := R) I).result = .error e at he
  unfold step at he
  split_ifs at he <;> cases he

theorem EngagementGate.atomic (R : Type) : Gate.Atomic EngagementGate R := by
  intro k I e he
  change (k.step (R := R) I).result = .error e at he
  change (k.step (R := R) I).state = k
  unfold step at he ⊢
  cases hsucc : k.acceptor.successor k.state I with
  | error e' => rfl
  | ok q =>
    rw [hsucc] at he
    cases he

namespace Goal

variable {S K R : Type} [Amount R] [Simulator S R] [Gate K R] {g : Goal S K} {I : Fluents}
  {last : Bool} {e : Error}

/-- **A tick that fails** before the first reset or at the gate leaves the goal as it was; one that
    fails at the simulator has been taken by the gate. -/
theorem cases_of_error (hS : Simulator.Atomic S) (hK : Gate.Atomic K R)
    (h : (g.step I last).result = .error e) :
    ((g.state? = none ∧ e = .notStarted ∨
        (∃ q, g.state? = some q) ∧ (Gate.step (R := R) g.gate I).result = .error e) ∧
      (g.step I last).state = g) ∨
    (∃ q, g.state? = some q) ∧ (Gate.step (R := R) g.gate I).result = .ok true ∧
      (Simulator.step g.simulator I last).result = .error e ∧
      (g.step I last).state = { g with gate := (Gate.step (R := R) g.gate I).state } := by
  rcases step_cases g I last with ⟨hn, hr, hs⟩ | ⟨q, e', hq, hk, hr, hs⟩ | ⟨_, -, -, hr, -⟩ |
    ⟨q, hq, hk, hr, hs⟩
  · cases hr.symm.trans h
    exact Or.inl ⟨Or.inl ⟨hn, rfl⟩, hs⟩
  · cases hr.symm.trans h
    have hgate := hK g.gate I e hk
    rw [hgate] at hs
    exact Or.inl ⟨Or.inr ⟨⟨q, hq⟩, hk⟩, hs⟩
  · cases hr.symm.trans h
  · have hsim := hr.symm.trans h
    rw [hS g.simulator I last e hsim] at hs
    exact Or.inr ⟨⟨q, hq⟩, hk, hsim, hs⟩

end Goal

/-- **Failed steps leave no trace.**  A step of a simulator of a whole automaton fails before the
    first reset and where the automaton fails, one of a simulator of an unfolding fails before the
    first reset, where the unfolding fails and where the graph has no room for a new state.  Either
    is then as if it had not been made: the simulator is the same in all its parts, and without its
    failed calls any run has the same other answers and leads to the same simulator.  So it is with
    recording itself, in any graph: it fails only for a configuration that has no state, if there is
    no room, and leaves the graph as it was.  A tick of a goal over either simulator, behind either
    kind of gate, leaves the whole goal as it was if the goal has not been reset or its gate fails;
    if its simulator fails, the gate has gone on by this one tick, and nothing else has changed. -/
theorem failed_steps_leave_no_trace (C P R : Type) [Amount R] [DecidableEq C] [TickTest P] :
    (∀ (E : CompleteSimulator R) I last e, (E.step I last).result = .error e →
      (E.state? = none ∧ e = .notStarted ∨
        ∃ q, E.state? = some q ∧ E.machine.automaton.successor q I = .error e) ∧
      (E.step I last).state = E) ∧
    (∀ (E : ExploringSimulator C R) I last e, (E.step I last).result = .error e →
      (E.position? = none ∧ e = .notStarted ∨ ∃ q c, E.position? = some (q, c) ∧
        (E.oracle.successor c I = .error e ∨ ∃ b, E.oracle.successor c I = .ok b ∧
          e = .graphFull E.graph.capacity ∧ E.graph.state? b = none ∧
            E.graph.capacity ≤ E.graph.size)) ∧
      (E.step I last).state = E) ∧
    (∀ (G : KnownGraph C) q label c accepting failed e,
      (G.record q label c accepting failed : Outcome R _ _).result = .error e →
      (e = .graphFull G.capacity ∧ G.state? c = none ∧ G.capacity ≤ G.size) ∧
      (G.record q label c accepting failed : Outcome R _ _).state = G) ∧
    (∀ (E : CompleteSimulator R ⊕ ExploringSimulator C R) cs,
      Simulator.after E (Simulator.successes E cs) = Simulator.after E cs ∧
      Simulator.answers E (Simulator.successes E cs) =
        (Simulator.answers E cs).filter (!·.isFailure)) ∧
    (∀ (g : Goal (CompleteSimulator R ⊕ ExploringSimulator C R) (StatelessGate P ⊕ EngagementGate))
      I last e, (g.step I last).result = .error e →
      ((g.state? = none ∧ e = .notStarted ∨
          (∃ q, g.state? = some q) ∧ (Gate.step (R := R) g.gate I).result = .error e) ∧
        (g.step I last).state = g) ∨
      (∃ q, g.state? = some q) ∧ (Gate.step (R := R) g.gate I).result = .ok true ∧
        (Simulator.step g.simulator I last).result = .error e ∧
        (g.step I last).state = { g with gate := (Gate.step (R := R) g.gate I).state }) := by
  have hatomic : Simulator.Atomic (CompleteSimulator R ⊕ ExploringSimulator C R) :=
    (CompleteSimulator.atomic R).sum (ExploringSimulator.atomic C R)
  have hgate : Gate.Atomic (StatelessGate P ⊕ EngagementGate) R :=
    (StatelessGate.atomic P R).sum (EngagementGate.atomic R)
  refine ⟨fun E I last e he => ?_, fun E I last e he => ?_, fun G q label c accepting failed e he =>
    ?_, fun E cs => ?_, fun g I last e he => ?_⟩
  · exact ⟨CompleteSimulator.result_eq_error_iff.1 he, CompleteSimulator.state_of_error he⟩
  · exact ⟨ExploringSimulator.result_eq_error_iff.1 he, ExploringSimulator.state_of_error he⟩
  · exact KnownGraph.state_of_record_error he
  · exact ⟨hatomic.after_successes E cs, hatomic.answers_successes E cs⟩
  · exact Goal.cases_of_error hatomic hgate he

/-- Two steps to acceptance, with room for the first state only: the step fails, and of the goal
    only the gate has gone on. -/
theorem failed_two_steps :
    let E : ExploringSimulator Nat Rat := (ExploringSimulator.new
      (Dfa.twoSteps.toAutomaton.unfold ∅) (3 : Rat)
      { Exploration.standard with maxStates := 1 }).reset.1
    let gate : StatelessGate ListedTest := { test := .every 1 0, allowFirst := false }
    let g : Goal (CompleteSimulator Rat ⊕ ExploringSimulator Nat Rat)
      (StatelessGate ListedTest ⊕ EngagementGate) := { simulator := .inr E, gate := .inl gate }
    (E.step ∅ false).result = .error (.graphFull 1) ∧ (E.step ∅ false).state = E ∧
    (g.step ∅ false).result = .error (.graphFull 1) ∧
    (g.step ∅ false).state =
      { g with gate := .inl { gate with test := .every 1 1, started := true } } := by
  intro E gate g
  have hE : (E.step ∅ false).result = .error (.graphFull 1) := by rfl
  have hg : (g.step ∅ false).result = .error (.graphFull 1) := by rfl
  obtain ⟨-, hexploring, -, -, hgoal⟩ := failed_steps_leave_no_trace Nat ListedTest Rat
  refine ⟨hE, (hexploring E ∅ false _ hE).2, hg, ?_⟩
  rcases hgoal g ∅ false _ hg with ⟨⟨hn, -⟩ | ⟨-, hgate⟩, -⟩ | ⟨-, -, -, hs⟩
  · cases hn
  · cases hgate
  · exact hs

end GoalAutomata
