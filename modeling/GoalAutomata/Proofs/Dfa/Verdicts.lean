/-
  Verdicts on a table are final.

  A simulator of a table is at one of its states or its sink once it has been reset
  (`CompleteSimulator.Drives`), and from there every interpretation has a successor.
  It fails a state because acceptance cannot be reached, so an accepting state is
  never failed.  What is lost stays lost and the sink is absorbing, whatever is
  read; only a reset leads out.

  * `CompleteSimulator.Drives.exists_step`: every step succeeds;
  * `CompleteSimulator.Drives.isFailed_step`: a step keeps the verdict;
  * `verdicts_are_final`: what this means for runs.
-/
import GoalAutomata.Proofs.Dfa.Words

namespace GoalAutomata

namespace CompleteSimulator

variable {R : Type} [Amount R] {d : Dfa} {reward : R} {S : CompleteSimulator R} {q : Nat}

/-- `S` drives the table `d`, and is at one of its states or its sink if it has been reset. -/
structure Drives (d : Dfa) (reward : R) (S : CompleteSimulator R) : Prop where
  machine : S.machine = .new d.toAutomaton reward
  bounded : ∀ q, S.state? = some q → q ≤ d.size

theorem drives_new (d : Dfa) (reward : R) (shaping : Shaping R) :
    (new d.toAutomaton reward shaping).Drives d reward :=
  ⟨rfl, nofun⟩

namespace Drives

/-! ## Verdicts -/

theorem isTrue_iff (h : S.Drives d reward) :
    Simulator.isTrue S = true ↔ ∃ q, S.state? = some q ∧ q ∈ d.accepting := by
  rw [CompleteSimulator.isTrue_eq, h.machine]
  cases S.state? with
  | none => simp
  | some q =>
    change d.accepting.contains q = true ↔ _
    simp

theorem isFailed_iff (h : S.Drives d reward) :
    Simulator.isFailed S = true ↔ ∃ q, S.state? = some q ∧ ¬ d.toAutomaton.Reaches q := by
  change S.state?.any S.machine.isFailure = true ↔ _
  rw [h.machine]
  cases S.state? with
  | none => simp
  | some q =>
    change (Levels.ofAutomaton d.toAutomaton).isFailure q = true ↔ _
    simp [Levels.isFailure_iff]

/-- **No state is accepting and failed.** -/
theorem not_isTrue_and_isFailed (h : S.Drives d reward) :
    ¬ (Simulator.isTrue S = true ∧ Simulator.isFailed S = true) := by
  rintro ⟨htrue, hfailed⟩
  obtain ⟨q, hq, hacc⟩ := h.isTrue_iff.1 htrue
  obtain ⟨p, hp, hlost⟩ := h.isFailed_iff.1 hfailed
  cases hq.symm.trans hp
  exact hlost (Automaton.reaches_of_mem_accepting hacc)

/-! ## One call -/

variable (I : Fluents) (last : Bool)

theorem reset (h : S.Drives d reward) : (Simulator.reset S).1.Drives d reward where
  machine := h.machine
  bounded := by
    rintro q ⟨⟩
    rw [h.machine]
    exact d.initial_lt.le

/-- **From a state of the table every step succeeds**, and leads to the successor. -/
theorem exists_step (h : S.Drives d reward) (hq : S.state? = some q) :
    ∃ r ≤ d.size, d.successor q I = .ok r ∧
      (S.step I last).result = .ok (r, S.pay q r last) ∧
      (S.step I last).state = { S with state? := some r } := by
  obtain ⟨r, hr, hsucc⟩ := d.exists_successor (h.bounded q hq) I
  have hM : S.machine.automaton.successor q I = .ok r := by
    rw [h.machine]
    exact hsucc
  obtain ⟨hres, hstate⟩ := step_of_successor last hq hM
  exact ⟨r, hr, hsucc, hres, hstate⟩

theorem step (h : S.Drives d reward) : (S.step I last).state.Drives d reward := by
  cases hq : S.state? with
  | none =>
    rw [step_of_none I last hq]
    exact h
  | some q =>
    obtain ⟨r, hr, -, -, hstate⟩ := h.exists_step I last hq
    rw [hstate]
    refine ⟨h.machine, ?_⟩
    rintro _ ⟨⟩
    exact hr

/-- **A step keeps the verdict that all is lost.** -/
theorem isFailed_step (h : S.Drives d reward) (hfailed : Simulator.isFailed S = true) :
    Simulator.isFailed (S.step I last).state = true := by
  obtain ⟨q, hq, hlost⟩ := h.isFailed_iff.1 hfailed
  obtain ⟨r, -, hsucc, -, hstate⟩ := h.exists_step I last hq
  refine (h.step I last).isFailed_iff.2 ⟨r, ?_, Dfa.not_reaches_of_successor hlost hsucc⟩
  rw [hstate]

/-- **A step does not leave the sink.** -/
theorem state?_step_sink (h : S.Drives d reward) (hq : S.state? = some d.sink) :
    (S.step I last).state.state? = some d.sink := by
  obtain ⟨r, -, hsucc, -, hstate⟩ := h.exists_step I last hq
  have hsink : d.successor d.sink I = .ok d.sink := if_pos rfl
  cases hsink.symm.trans hsucc
  rw [hstate]

/-! ## Runs -/

theorem after (h : S.Drives d reward) (cs : List Call) :
    (Simulator.after S cs).Drives d reward :=
  Simulator.after_induction h (fun _ h => h.reset) (fun _ I last h => h.step I last) cs

/-- After a reset there is a state. -/
theorem exists_state? (h : S.Drives d reward) {cs : List Call} (hreset : .reset ∈ cs) :
    ∃ q, (Simulator.after S cs).state? = some q := by
  obtain ⟨before, since, rfl⟩ := List.append_of_mem hreset
  rw [Simulator.after_append, Simulator.after_cons]
  have hstart : (Simulator.reset (Simulator.after S before)).1.Drives d reward :=
    (h.after before).reset
  refine (Simulator.after_induction
    (P := fun T : CompleteSimulator R => T.Drives d reward ∧ ∃ q, T.state? = some q)
    ⟨hstart, _, rfl⟩ (fun _ hT => ⟨hT.1.reset, _, rfl⟩) ?_ since).2
  rintro T I last ⟨hT, q, hq⟩
  obtain ⟨r, -, -, -, hstate⟩ := hT.exists_step I last hq
  exact ⟨hT.step I last, r, congrArg state? hstate⟩

end Drives

end CompleteSimulator

/-- **Runs over a table are safe, and its verdicts are final.**  Make any calls to a simulator of
    the table `d`.  Once there has been a reset it is at a state of the table or its sink, and
    every step succeeds and leads to another such.  It never says that the state is accepting and
    that all is lost.  As long as there is no reset, what is lost stays lost and is not accepting,
    and the sink is not left. -/
theorem verdicts_are_final {R : Type} [Amount R] (d : Dfa) (reward : R) (shaping : Shaping R)
    (cs : List Call) :
    let S := Simulator.after (CompleteSimulator.new d.toAutomaton reward shaping) cs
    (.reset ∈ cs → (∃ q ≤ d.size, Simulator.state? S = some q) ∧
      ∀ I last, ∃ r ≤ d.size, ∃ x, (Simulator.step S I last).result = .ok (r, x)) ∧
    (∀ q, Simulator.state? S = some q → q ≤ d.size) ∧
    ¬ (Simulator.isTrue S = true ∧ Simulator.isFailed S = true) ∧
    ∀ w, (Simulator.isFailed S = true →
        Simulator.isFailed (Simulator.after S (Call.steps w)) = true ∧
        Simulator.isTrue (Simulator.after S (Call.steps w)) = false) ∧
      (Simulator.state? S = some d.sink →
        Simulator.state? (Simulator.after S (Call.steps w)) = some d.sink) := by
  intro S
  have hnew := CompleteSimulator.drives_new d reward shaping
  have hS : S.Drives d reward := hnew.after cs
  refine ⟨fun hreset => ?_, hS.bounded, hS.not_isTrue_and_isFailed, fun w => ⟨?_, ?_⟩⟩
  · obtain ⟨q, hq⟩ := hnew.exists_state? hreset
    refine ⟨⟨q, hS.bounded q hq, hq⟩, fun I last => ?_⟩
    obtain ⟨r, hr, -, hres, -⟩ := hS.exists_step I last hq
    exact ⟨r, hr, _, hres⟩
  · intro hfailed
    obtain ⟨hT, hlost⟩ := Simulator.after_steps_induction
      (P := fun T : CompleteSimulator R => T.Drives d reward ∧ Simulator.isFailed T = true)
      ⟨hS, hfailed⟩ (fun _ I last h => ⟨h.1.step I last, h.1.isFailed_step I last h.2⟩) w
    refine ⟨hlost, Bool.eq_false_iff.2 fun htrue => ?_⟩
    exact hT.not_isTrue_and_isFailed ⟨htrue, hlost⟩
  · intro hq
    exact (Simulator.after_steps_induction
      (P := fun T : CompleteSimulator R => T.Drives d reward ∧ T.state? = some d.sink)
      ⟨hS, hq⟩ (fun _ I last h => ⟨h.1.step I last, h.1.state?_step_sink I last h.2⟩) w).2

end GoalAutomata
