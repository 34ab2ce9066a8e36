/-
  A goal is a simulator again, run on the ticks at which its gate is open.

  Behind its gate a goal is reset, stepped and asked for its state as its simulator
  is, so what runs of simulators are is said for goals as well.

  * `Goal.step_cases`: what a tick can do;
  * `Goal.ticks_ok`: ticks that succeed, as a run of the gate on all of them and one
    of the simulator on those that the gate lets through.
-/
import GoalAutomata.Goal
import GoalAutomata.Proofs.Gate

namespace GoalAutomata

namespace Goal

variable {S K R : Type} [Amount R] [Simulator S R] [Gate K R]

instance : Simulator (Goal S K) R where
  reset := reset
  step := step
  state? := state?
  isTrue := isTrue
  isFailed := isFailed
  width g := Simulator.width g.simulator
  reward g := Simulator.reward g.simulator
  automaton g := Simulator.automaton g.simulator
  rename name g := g.rename name

variable {g : Goal S K} {I : Fluents} {last : Bool} {p : Nat × R}

/-! ## One tick -/

/-- A tick fails before the first reset and leaves the goal as it is then.  Otherwise the gate takes
    it, and if it answers, the goal stays where it is or does what its simulator does. -/
theorem step_cases (g : Goal S K) (I : Fluents) (last : Bool) :
    (g.state? = none ∧ (g.step I last).result = .error .notStarted ∧ (g.step I last).state = g) ∨
    (∃ q e, g.state? = some q ∧ (Gate.step (R := R) g.gate I).result = .error e ∧
      (g.step I last).result = .error e ∧
      (g.step I last).state = { g with gate := (Gate.step (R := R) g.gate I).state }) ∨
    (∃ q, g.state? = some q ∧ (Gate.step (R := R) g.gate I).result = .ok false ∧
      (g.step I last).result = .ok (q, 0) ∧
      (g.step I last).state = { g with gate := (Gate.step (R := R) g.gate I).state }) ∨
    ∃ q, g.state? = some q ∧ (Gate.step (R := R) g.gate I).result = .ok true ∧
      (g.step I last).result = (Simulator.step g.simulator I last).result ∧
      (g.step I last).state = { g with
        simulator := (Simulator.step g.simulator I last).state
        gate := (Gate.step (R := R) g.gate I).state } := by
  unfold step
  cases hq : g.state? with
  | none => exact Or.inl ⟨rfl, rfl, rfl⟩
  | some q =>
    simp only [Outcome.require_some, Outcome.andThen_done]
    generalize Gate.step (R := R) g.gate I = o
    obtain ⟨answer, k, es⟩ := o
    match answer with
    | .error e => exact Or.inr (Or.inl ⟨q, e, rfl, rfl, rfl, rfl⟩)
    | .ok false => exact Or.inr (Or.inr (Or.inl ⟨q, rfl, rfl, rfl, rfl⟩))
    | .ok true => exact Or.inr (Or.inr (Or.inr ⟨q, rfl, rfl, rfl, rfl⟩))

/-- A tick leaves the simulator as it is, or is one of its steps. -/
theorem simulator_cases (g : Goal S K) (I : Fluents) (last : Bool) :
    (g.step I last).state.simulator = g.simulator ∨
      (g.step I last).result = (Simulator.step g.simulator I last).result ∧
      (g.step I last).state.simulator = (Simulator.step g.simulator I last).state := by
  rcases step_cases g I last with ⟨-, -, hs⟩ | ⟨_, _, -, -, -, hs⟩ | ⟨_, -, -, -, hs⟩ |
    ⟨_, -, -, hr, hs⟩
  · exact Or.inl (by rw [hs])
  · exact Or.inl (by rw [hs])
  · exact Or.inl (by rw [hs])
  · exact Or.inr ⟨hr, by rw [hs]⟩

/-- **A tick that succeeds** stays where the goal is and pays nothing if the gate is closed, and is
    a step of the simulator if it is open. -/
theorem ok_cases (h : (g.step I last).result = .ok p) :
    ((Gate.step (R := R) g.gate I).result = .ok false ∧ g.state? = some p.1 ∧ p.2 = 0 ∧
      (g.step I last).state = { g with gate := (Gate.step (R := R) g.gate I).state }) ∨
    ((Gate.step (R := R) g.gate I).result = .ok true ∧
      (Simulator.step g.simulator I last).result = .ok p ∧
      (g.step I last).state = { g with
        simulator := (Simulator.step g.simulator I last).state
        gate := (Gate.step (R := R) g.gate I).state }) := by
  rcases step_cases g I last with ⟨-, hr, -⟩ | ⟨_, _, -, -, hr, -⟩ | ⟨q, hq, hk, hr, hs⟩ |
    ⟨_, -, hk, hr, hs⟩
  · cases hr.symm.trans h
  · cases hr.symm.trans h
  · cases hr.symm.trans h
    exact Or.inl ⟨hk, hq, rfl, hs⟩
  · exact Or.inr ⟨hk, hr.symm.trans h, hs⟩

/-- A tick that succeeds has been answered by the gate. -/
theorem exists_gate_of_ok (h : (g.step I last).result = .ok p) :
    ∃ b, (Gate.step (R := R) g.gate I).result = .ok b ∧
      (g.step I last).state.gate = (Gate.step (R := R) g.gate I).state := by
  rcases ok_cases h with ⟨hk, -, -, hs⟩ | ⟨hk, -, hs⟩
  · exact ⟨false, hk, congrArg gate hs⟩
  · exact ⟨true, hk, congrArg gate hs⟩

/-! ## Many ticks -/

/-- The first of some ticks that all succeed, and the others. -/
theorem exists_of_ticks_cons {w : List (Fluents × Bool)} {ps : List (Nat × R)}
    (h : Simulator.answers g (Call.steps ((I, last) :: w)) = ps.map fun p => .stepped (.ok p)) :
    ∃ p qs, ps = p :: qs ∧ (g.step I last).result = .ok p ∧
      Simulator.answers (g.step I last).state (Call.steps w) =
        qs.map fun p => .stepped (.ok p) := by
  cases ps with
  | nil => cases h
  | cons p qs =>
    obtain ⟨hp, hqs⟩ := List.cons_eq_cons.1 h
    exact ⟨p, qs, rfl, Answer.stepped.inj hp, hqs⟩

/-- **Ticks that succeed are seen by the gate, and by the simulator as far as the gate is open.**
    A tick at which it is closed answers the state in which the goal is and stays, and pays
    nothing. -/
theorem ticks_ok {w : List (Fluents × Bool)} {ps : List (Nat × R)}
    (h : Simulator.answers g (Call.steps w) = ps.map fun p => .stepped (.ok p)) :
    ∃ bs : List Bool, Gate.answers R g.gate (w.map (·.1)) = bs.map .ok ∧
      Simulator.answers g.simulator (Call.steps (Gate.admitted bs w)) =
        (Gate.admitted bs ps).map (fun p => .stepped (.ok p)) ∧
      ∀ k p, bs[k]? = some false → ps[k]? = some p → p.2 = 0 ∧
        Simulator.state? (Simulator.after g (Call.steps (w.take k))) = some p.1 ∧
        Simulator.state? (Simulator.after g (Call.steps (w.take (k + 1)))) = some p.1 := by
  induction w generalizing g ps with
  | nil =>
    obtain rfl : ps = [] := List.map_eq_nil_iff.1 h.symm
    exact ⟨[], rfl, rfl, by simp⟩
  | cons m w ih =>
    obtain ⟨I, last⟩ := m
    obtain ⟨p, qs, rfl, hp, hrest⟩ := exists_of_ticks_cons h
    obtain ⟨bs, hgate, hsim, hclosed⟩ := ih hrest
    rcases ok_cases hp with ⟨hk, hq, hpay, hs⟩ | ⟨hk, hr, hs⟩
    · -- the simulator stays as it is, so the rest of the run is one of the same simulator
      have hstay : (g.step I last).state.state? = some p.1 := by
        rw [hs]
        exact hq
      rw [hs] at hgate hsim
      refine ⟨false :: bs, ?_, hsim, fun k p' hb hp' => ?_⟩
      · rw [List.map_cons, List.map_cons, ← hgate, Gate.answers, hk]
      · cases k with
        | zero =>
          cases hp'
          exact ⟨hpay, hq, hstay⟩
        | succ k => exact hclosed k p' hb hp'
    · -- the first step of the simulator is this one, and it answers what the goal does
      rw [hs] at hgate hsim
      refine ⟨true :: bs, ?_, ?_, fun k p' hb hp' => ?_⟩
      · rw [List.map_cons, List.map_cons, ← hgate, Gate.answers, hk]
      · rw [Gate.admitted_cons_true, Gate.admitted_cons_true, List.map_cons, ← hsim]
        exact congrArg (fun r => Answer.stepped r :: _) hr
      · cases k with
        | zero => cases hb
        | succ k => exact hclosed k p' hb hp'

end Goal

end GoalAutomata
