/-
  The table that a simulator discovers.

  The table of an exploring simulator is at all times a part of its oracle, if the
  oracle sees only the fluents of its alphabet.  Resets leave it alone, and a step
  records what the oracle answers: the label is the interpretation restricted to
  the alphabet, and the oracle answers the same for both.  Nothing is ever taken
  away (`ExploringSimulator.extends_after`).

  * `ExploringSimulator.Explores.observes_step`: what a step keeps;
  * `discovered_table_is_faithful`: what all of it means for runs.
-/
import GoalAutomata.Proofs.Complete
import GoalAutomata.Proofs.Dfa.Alphabet
import GoalAutomata.Proofs.Exploring
import GoalAutomata.Proofs.KnownGraph.Observed

namespace GoalAutomata

/-- An unfolded table sees only the fluents of its alphabet. -/
theorem Dfa.local_unfold {d : Dfa} {alphabet : Fluents} (h : ∀ s ∈ d.alphabet, s ∈ alphabet) :
    (d.toAutomaton.unfold alphabet).Local := fun c _ =>
  d.successor_congr (fun s hs => Fluents.mem_restrict.trans (and_iff_left (h s hs))) c

namespace ExploringSimulator

variable {C R : Type} [DecidableEq C] [Amount R] {S : ExploringSimulator C R} {O : Unfolding C}
  {reward : R} {config : Exploration R}

/-! ## Nothing is taken away -/

theorem extends_step (S : ExploringSimulator C R) (I : Fluents) (last : Bool) :
    (S.step I last).state.graph.Extends S.graph := by
  rcases state_cases S I last with hs | ⟨_, _, _, _, _, -, -, hr, hs⟩
  · rw [hs]
    exact .refl _
  · rw [hs]
    exact .of_record hr

/-- **The table only grows**, whatever the calls. -/
theorem extends_after (S : ExploringSimulator C R) (cs : List Call) :
    (Simulator.after S cs).graph.Extends S.graph :=
  Simulator.after_induction (P := fun T : ExploringSimulator C R => T.graph.Extends S.graph)
    (.refl _) (fun _ h => h) (fun T I last h => (extends_step T I last).trans h) cs

/-! ## The table is a part of the oracle -/

/-- **A step records a transition of the oracle.** -/
theorem Explores.observes_step (hO : O.Local) (h : S.Explores O reward config)
    (hG : S.graph.Observes O) (I : Fluents) (last : Bool) :
    (S.step I last).state.graph.Observes O := by
  rcases state_cases S I last with hs | ⟨q, c, b, G, d, hp, hb, hr, hs⟩
  · rwa [hs]
  · rw [hs]
    have hlabel : S.graph.label I = I.restrict O.alphabet := by
      rw [KnownGraph.label, hG.alphabet]
    have hsucc : O.successor c (S.graph.label I) = .ok b := by
      rw [hlabel, hO, ← h.oracle, hb]
    refine hG.record h.faithful.indexed (h.position q c hp) (fun s hs => ?_) hsucc hr
    rw [hlabel] at hs
    exact (Fluents.mem_restrict.1 hs).2

theorem observes_after (hO : O.Local) (reward : R) (config : Exploration R) (cs : List Call) :
    (Simulator.after (new O reward config) cs).graph.Observes O := by
  have hstart : (new O reward config).Explores O reward config ∧
      (new O reward config).graph.Observes O :=
    ⟨explores_new O reward config, KnownGraph.observes_new O _ _ _⟩
  refine (Simulator.after_induction (P := fun T : ExploringSimulator C R =>
    T.Explores O reward config ∧ T.graph.Observes O) hstart (fun _ h => ⟨h.1.reset, h.2⟩) ?_ cs).2
  exact fun _ I last h => ⟨h.1.step I last, h.1.observes_step hO h.2 I last⟩

end ExploringSimulator

namespace KnownGraph

variable {C : Type} [DecidableEq C] {O : Unfolding C} {G : KnownGraph C} {q : Nat} {c : C}
  {I : Fluents}

/-- **Where a label has been observed, the graph answers the state of the oracle's answer.** -/
theorem Observes.successor_of_mem_row (hG : G.Observes O) (hO : O.Local)
    (hF : G.Faithful O.initial O.isAccepting O.isFailed) (hq : G.configuration? q = some c)
    (hl : G.label I ∈ G.row q) :
    ∃ b r, O.successor c I = .ok b ∧ G.state? b = some r ∧ G.successor q I = .ok r := by
  obtain ⟨r, hr⟩ := mem_row_iff.1 hl
  obtain ⟨c', b, hc', hb, -, hsucc⟩ := hG.observed q _ r hr
  cases hc'.symm.trans hq
  rw [label, hG.alphabet, hO] at hsucc
  refine ⟨b, r, hsucc, (hF.indexed b r).2 hb, ?_⟩
  rw [successor_of_lt (List.getElem?_eq_some_iff.1 hq).1 hF.size_le, hr, Option.getD_some]

end KnownGraph

/-- **The discovered table is a faithful part of the oracle that only grows.**  Make any calls,
    failed ones included, to a simulator of an unfolding that sees only the fluents of its
    alphabet.  The known configurations are different, no more than there is room for, and
    inverse to the states, the initial one being the first.  Every observed transition is one of
    the unfolding, with a label in its alphabet.  From a known state an interpretation leads to the
    state of the unfolding's successor if its label has been observed there, and to the sink
    otherwise.  Observed transitions lead from the initial state to every known one.  The accepting
    states and the failures are those whose configurations are so, a failure never being accepting.
    Further calls leave all of this in its place.  Tables whose alphabet is covered are such
    unfoldings. -/
theorem discovered_table_is_faithful {C R : Type} [DecidableEq C] [Amount R] :
    (∀ O : Unfolding C, O.Local → ∀ (reward : R) (config : Exploration R) (cs : List Call),
      let S := Simulator.after (ExploringSimulator.new O reward config) cs
      let G := S.graph
      (G.configurations.Nodup ∧ G.configurations.length ≤ G.capacity ∧
        G.capacity = max config.maxStates 1 ∧ G.configuration? 0 = some O.initial ∧
        ∀ c q, G.ids.lookup c = some q ↔ G.configuration? q = some c) ∧
      (∀ q label r, G.Observed q label r → ∃ c b, G.configuration? q = some c ∧
        G.configuration? r = some b ∧ (∀ s ∈ label, s ∈ O.alphabet) ∧
        O.successor c label = .ok b) ∧
      (∀ q c, G.configuration? q = some c → ∀ I,
        (G.label I ∈ G.row q →
          ∃ b r, O.successor c I = .ok b ∧ G.state? b = some r ∧ G.successor q I = .ok r) ∧
        (G.label I ∉ G.row q → G.successor q I = .ok G.capacity)) ∧
      (∀ q < G.configurations.length, Relation.ReflTransGen G.Linked 0 q) ∧
      (∀ q, q ∈ G.accepting ↔ ∃ c, G.configuration? q = some c ∧ O.isAccepting c = true ∧
        O.isFailed c = false) ∧
      (∀ q, q ∈ G.failures ↔ ∃ c, G.configuration? q = some c ∧ O.isFailed c = true) ∧
      (∀ q ∈ G.accepting, q ∉ G.failures) ∧
      ∀ ds, (Simulator.after S ds).graph.Extends G) ∧
    ∀ (d : Dfa) (alphabet : Fluents), (∀ s ∈ d.alphabet, s ∈ alphabet) →
      (d.toAutomaton.unfold alphabet).Local := by
  refine ⟨?_, fun d alphabet => Dfa.local_unfold⟩
  intro O hO reward config cs S G
  have hS : S.Explores O reward config := ExploringSimulator.explores_after O reward config cs
  have hF : G.Faithful O.initial O.isAccepting O.isFailed := hS.faithful
  have hG : G.Observes O := ExploringSimulator.observes_after hO reward config cs
  refine ⟨⟨hF.indexed.nodup, hF.size_le, hS.capacity, hF.initial, hF.indexed⟩,
    hG.observed, fun q c hq I => ⟨hG.successor_of_mem_row hO hF hq, fun hl => ?_⟩, hG.reachable,
    hF.accepting, hF.failures, fun q hacc hfail => ?_, S.extends_after⟩
  · rw [KnownGraph.successor_of_lt (List.getElem?_eq_some_iff.1 hq).1 hF.size_le,
      Std.ExtTreeMap.getElem?_eq_none hl, Option.getD_none]
  · obtain ⟨c, hc, -, hno⟩ := (hF.accepting q).1 hacc
    rw [hF.mem_failures_iff hc, hno] at hfail
    cases hfail

/-- The second state of the table is reached by the step that discovers it. -/
theorem discovered_two_steps :
    let S := Simulator.after (ExploringSimulator.new (Dfa.twoSteps.toAutomaton.unfold ∅) (3 : Rat)
      .standard) [.reset, .step ∅ false]
    S.graph.configurations = [0, 1] ∧ Relation.ReflTransGen S.graph.Linked 0 1 := by
  have hO : (Dfa.twoSteps.toAutomaton.unfold ∅).Local :=
    (discovered_table_is_faithful (C := Nat) (R := Rat)).2 Dfa.twoSteps ∅
      (by simp [Dfa.mem_alphabet, Row.mem_atoms, Dfa.twoSteps, Guard.names])
  have hconf : (Simulator.after
      (ExploringSimulator.new (Dfa.twoSteps.toAutomaton.unfold ∅) (3 : Rat) .standard)
      [.reset, .step ∅ false]).graph.configurations = [0, 1] := by decide +kernel
  refine ⟨hconf, ?_⟩
  have h := discovered_table_is_faithful.1 _ hO (3 : Rat) .standard [.reset, .step ∅ false]
  exact h.2.2.2.1 1 (by rw [hconf]; decide)

end GoalAutomata
