/-
  Simulation of an unfolding while it is discovered: steps and runs.

  A simulator keeps its oracle, its reward and its configuration, and its graph
  stays faithful to the oracle, whatever the calls (`ExploringSimulator.Explores`).
  The configurations that it knows are the initial one and those at which it has
  been (`ExploringSimulator.mem_configurations_after`).

  * `ExploringSimulator.step_cases`: what a step can do.
-/
import GoalAutomata.Proofs.KnownGraph
import GoalAutomata.Proofs.Runs
import GoalAutomata.Simulator.Exploring

namespace GoalAutomata

namespace ExploringSimulator

variable {C R : Type} [Amount R] {S : ExploringSimulator C R} {O : Unfolding C} {reward : R}
  {config : Exploration R}

theorem pay_sparse (h : S.config.shaping.mode = .sparse) (q r : Nat) (last : Bool) :
    S.pay q r last = if r ∈ S.graph.accepting then S.reward else 0 := by
  simp only [pay, h]

section Advance

variable {b : C} {G : KnownGraph C} {d : Discovery}

@[simp] theorem oracle_advance : (S.advance b G d).oracle = S.oracle := rfl

@[simp] theorem graph_advance : (S.advance b G d).graph = G := rfl

@[simp] theorem reward_advance : (S.advance b G d).reward = S.reward := rfl

@[simp] theorem config_advance : (S.advance b G d).config = S.config := rfl

@[simp] theorem position?_advance : (S.advance b G d).position? = some (d.state, b) := rfl

@[simp] theorem prior_advance : (S.advance b G d).prior = S.current := rfl

end Advance

variable [DecidableEq C]

/-! ## What is kept -/

/-- A simulator of the unfolding `O` whose graph knows a part of it, its position included. -/
structure Explores (O : Unfolding C) (reward : R) (config : Exploration R)
    (S : ExploringSimulator C R) : Prop where
  capacity : S.graph.capacity = max config.maxStates 1
  oracle : S.oracle = O
  reward : S.reward = reward
  config : S.config = config
  faithful : S.graph.Faithful O.initial O.isAccepting O.isFailed
  position : ∀ q c, S.position? = some (q, c) → S.graph.configuration? q = some c

theorem explores_new (O : Unfolding C) (reward : R) (config : Exploration R) :
    (new O reward config).Explores O reward config where
  oracle := rfl
  reward := rfl
  config := rfl
  capacity := rfl
  faithful := KnownGraph.faithful_new _ _ _ _ _
  position := nofun

theorem Explores.reset (h : S.Explores O reward config) : S.reset.1.Explores O reward config where
  oracle := h.oracle
  reward := h.reward
  config := h.config
  capacity := h.capacity
  faithful := h.faithful
  position := by
    rintro q c hp
    obtain ⟨rfl, rfl⟩ : 0 = q ∧ S.oracle.initial = c := by simpa [ExploringSimulator.reset] using hp
    rw [h.oracle]
    exact h.faithful.initial

/-! ## One step -/

section Step

variable {I : Fluents} {last : Bool}

/-- A step fails before the first reset, where the oracle has no successor and where the graph has
    no room for it, and changes nothing then; it moves to the successor and pays otherwise. -/
theorem step_cases (S : ExploringSimulator C R) (I : Fluents) (last : Bool) :
    (S.position? = none ∧ (S.step I last).result = .error .notStarted ∧ (S.step I last).state = S) ∨
    (∃ q c e, S.position? = some (q, c) ∧ S.oracle.successor c I = .error e ∧
      (S.step I last).result = .error e ∧ (S.step I last).state = S) ∨
    (∃ q c b, S.position? = some (q, c) ∧ S.oracle.successor c I = .ok b ∧
      S.graph.state? b = none ∧ S.graph.capacity ≤ S.graph.size ∧
      (S.step I last).result = .error (.graphFull S.graph.capacity) ∧
      (S.step I last).state = S) ∨
    ∃ q c b G d, S.position? = some (q, c) ∧ S.oracle.successor c I = .ok b ∧
      (S.graph.record q (S.graph.label I) b (S.oracle.isAccepting b) (S.oracle.isFailed b) :
        Outcome R _ _) = .done d G ∧
      (S.step I last).result = .ok (d.state, (S.advance b G d).pay q d.state last) ∧
      (S.step I last).state = S.advance b G d := by
  unfold step
  cases hp : S.position? with
  | none => exact Or.inl ⟨rfl, rfl, rfl⟩
  | some p =>
    obtain ⟨q, c⟩ := p
    cases hb : S.oracle.successor c I with
    | error e => exact Or.inr (Or.inl ⟨q, c, e, rfl, hb, by simp [hb]⟩)
    | ok b =>
      rcases KnownGraph.record_cases (R := R) S.graph q (S.graph.label I) b
        (S.oracle.isAccepting b) (S.oracle.isFailed b) with ⟨d, G, hr⟩ | ⟨hnew, hfull, hr⟩
      · refine Or.inr (Or.inr (Or.inr ⟨q, c, b, G, d, rfl, hb, hr, ?_⟩))
        simp only [Outcome.require_some, Outcome.andThen_done, hb, Outcome.ask_ok, hr]
        exact ⟨rfl, rfl⟩
      · refine Or.inr (Or.inr (Or.inl ⟨q, c, b, rfl, hb, hnew, hfull, ?_⟩))
        simp only [Outcome.require_some, Outcome.andThen_done, hb, Outcome.ask_ok, hr]
        exact ⟨rfl, rfl⟩

/-- A step leaves the simulator as it is or advances it. -/
theorem state_cases (S : ExploringSimulator C R) (I : Fluents) (last : Bool) :
    (S.step I last).state = S ∨ ∃ q c b G d, S.position? = some (q, c) ∧
      S.oracle.successor c I = .ok b ∧
      (S.graph.record q (S.graph.label I) b (S.oracle.isAccepting b) (S.oracle.isFailed b) :
        Outcome R _ _) = .done d G ∧
      (S.step I last).state = S.advance b G d := by
  rcases step_cases S I last with ⟨-, -, hs⟩ | ⟨_, _, _, -, -, -, hs⟩ |
    ⟨_, _, _, -, -, -, -, -, hs⟩ | ⟨q, c, b, G, d, hp, hb, hr, -, hs⟩
  · exact Or.inl hs
  · exact Or.inl hs
  · exact Or.inl hs
  · exact Or.inr ⟨q, c, b, G, d, hp, hb, hr, hs⟩

/-- What a successful step has done. -/
theorem exists_of_ok {r : Nat} {x : R} (h : (S.step I last).result = .ok (r, x)) :
    ∃ q c b G d, S.position? = some (q, c) ∧ S.oracle.successor c I = .ok b ∧
      (S.graph.record q (S.graph.label I) b (S.oracle.isAccepting b) (S.oracle.isFailed b) :
        Outcome R _ _) = .done d G ∧
      r = d.state ∧ x = (S.advance b G d).pay q d.state last ∧
      (S.step I last).state = S.advance b G d := by
  rcases step_cases S I last with ⟨-, hr, -⟩ | ⟨_, _, _, -, -, hr, -⟩ |
    ⟨_, _, _, -, -, -, -, hr, -⟩ | ⟨q, c, b, G, d, hp, hb, hrec, hr, hs⟩
  · cases hr.symm.trans h
  · cases hr.symm.trans h
  · cases hr.symm.trans h
  · cases hr.symm.trans h
    exact ⟨q, c, b, G, d, hp, hb, hrec, rfl, rfl, hs⟩

/-- **A step fails before the first reset, where the oracle does, and for want of room.** -/
theorem result_eq_error_iff {e : Error} : (S.step I last).result = .error e ↔
    S.position? = none ∧ e = .notStarted ∨ ∃ q c, S.position? = some (q, c) ∧
      (S.oracle.successor c I = .error e ∨ ∃ b, S.oracle.successor c I = .ok b ∧
        e = .graphFull S.graph.capacity ∧ S.graph.state? b = none ∧
          S.graph.capacity ≤ S.graph.size) := by
  rcases step_cases S I last with ⟨hn, hr, -⟩ | ⟨_, _, _, hp, he, hr, -⟩ |
    ⟨_, _, _, hp, hb, hnew, hfull, hr, -⟩ | ⟨_, _, b, _, _, hp, hb, hrec, hr, -⟩
  · simp [hr, hn, eq_comm]
  · simp [hr, hp, he]
  · simp [hr, hp, hb, hnew, hfull, eq_comm]
  · have hroom : S.graph.state? b = none → S.graph.size < S.graph.capacity := fun hs =>
      ((KnownGraph.recorded_of_record hrec).new hs).1
    simp only [hr, hp, reduceCtorEq, false_and, false_or, false_iff]
    grind

/-- **With a successor at hand, a step fails only for want of room.** -/
theorem Explores.step_eq_error_iff {q : Nat} {c b : C} {e : Error}
    (h : S.Explores O reward config) (hp : S.position? = some (q, c))
    (hb : S.oracle.successor c I = .ok b) : (S.step I last).result = .error e ↔
      e = .graphFull S.graph.capacity ∧ b ∉ S.graph.configurations ∧
        S.graph.capacity ≤ S.graph.size := by
  rw [result_eq_error_iff, ← h.faithful.indexed.state?_eq_none_iff]
  simp [hp, hb]

theorem state_of_error {e : Error} (h : (S.step I last).result = .error e) :
    (S.step I last).state = S := by
  rcases step_cases S I last with ⟨-, -, hs⟩ | ⟨_, _, _, -, -, -, hs⟩ |
    ⟨_, _, _, -, -, -, -, -, hs⟩ | ⟨_, _, _, _, _, -, -, -, hr, -⟩
  · exact hs
  · exact hs
  · exact hs
  · cases h.symm.trans hr

theorem truthful (C R : Type) [Amount R] [DecidableEq C] :
    Simulator.Truthful (ExploringSimulator C R) := by
  intro S I last q x hx
  obtain ⟨_, _, b, G, d, -, -, -, rfl, -, hs⟩ := exists_of_ok hx
  exact congrArg (fun T : ExploringSimulator C R => T.position?.map (·.1)) hs

theorem Explores.advance {q : Nat} {label : Fluents} {b : C} {G : KnownGraph C} {d : Discovery}
    (h : S.Explores O reward config)
    (hr : (S.graph.record q label b (S.oracle.isAccepting b) (S.oracle.isFailed b) :
      Outcome R _ _) = .done d G) :
    (S.advance b G d).Explores O reward config := by
  have hrec := KnownGraph.recorded_of_record hr
  rw [h.oracle] at hrec
  exact {
    oracle := h.oracle
    reward := h.reward
    config := h.config
    capacity := hrec.capacity.trans h.capacity
    faithful := h.faithful.of_recorded hrec
    position := by
      intro p c hp
      obtain ⟨rfl, rfl⟩ : d.state = p ∧ b = c := by simpa using hp
      exact hrec.configuration h.faithful.indexed }

theorem Explores.step (h : S.Explores O reward config) (I : Fluents) (last : Bool) :
    (S.step I last).state.Explores O reward config := by
  rcases state_cases S I last with hs | ⟨_, _, _, _, _, -, -, hr, hs⟩
  · rwa [hs]
  · rw [hs]
    exact h.advance hr

/-- What the oracle keeps from a configuration to the next one holds of all that are known. -/
theorem Explores.forall_mem_configurations_step {P : C → Prop} (h : S.Explores O reward config)
    (hP : ∀ c I b, P c → O.successor c I = .ok b → P b) (hS : ∀ c ∈ S.graph.configurations, P c)
    (I : Fluents) (last : Bool) : ∀ c ∈ (S.step I last).state.graph.configurations, P c := by
  rcases state_cases S I last with hs | ⟨q, c, b, G, d, hp, hb, hr, hs⟩
  · rwa [hs]
  · rw [hs, graph_advance]
    intro b' hb'
    have hrecorded := KnownGraph.recorded_of_record hr
    rcases (hrecorded.mem_configurations h.faithful.indexed).1 hb' with hold | rfl
    · exact hS b' hold
    · rw [h.oracle] at hb
      exact hP c I b' (hS c (List.mem_of_getElem? (h.position q c hp))) hb

/-! ## Runs -/

theorem Explores.after (h : S.Explores O reward config) (cs : List Call) :
    (Simulator.after S cs).Explores O reward config :=
  Simulator.after_induction h (fun _ h => h.reset) (fun _ I last h => h.step I last) cs

theorem explores_after (O : Unfolding C) (reward : R) (config : Exploration R) (cs : List Call) :
    (Simulator.after (new O reward config) cs).Explores O reward config :=
  (explores_new O reward config).after cs

/-- After a reset there is a position. -/
theorem exists_position?_after {cs : List Call} (h : .reset ∈ cs) :
    ∃ p, (Simulator.after S cs).position? = some p := by
  obtain ⟨before, since, rfl⟩ := List.append_of_mem h
  rw [Simulator.after_append, Simulator.after_cons]
  refine Simulator.after_induction
    (P := fun T : ExploringSimulator C R => ∃ p, T.position? = some p)
    ⟨_, rfl⟩ (fun _ _ => ⟨_, rfl⟩) (fun T I last hT => ?_) since
  change ∃ p, (T.step I last).state.position? = some p
  rcases state_cases T I last with hs | ⟨_, _, _, _, _, -, -, -, hs⟩
  · rw [hs]
    exact hT
  · rw [hs]
    exact ⟨_, position?_advance⟩

/-- The configurations at which the simulator `S` is at some time of a run. -/
def Met (S : ExploringSimulator C R) (cs : List Call) (c : C) : Prop :=
  ∃ ds, ds <+: cs ∧ ∃ q, (Simulator.after S ds).position? = some (q, c)

theorem met_concat {cs : List Call} {k : Call} {c : C} : S.Met (cs ++ [k]) c ↔
    S.Met cs c ∨ ∃ q, (Simulator.after S (cs ++ [k])).position? = some (q, c) := by
  unfold Met
  constructor
  · rintro ⟨ds, hds, hq⟩
    rcases List.prefix_concat_iff.1 hds with rfl | hds
    · exact Or.inr hq
    · exact Or.inl ⟨ds, hds, hq⟩
  · rintro (⟨ds, hds, hq⟩ | hq)
    · exact ⟨ds, hds.trans (List.prefix_append cs [k]), hq⟩
    · exact ⟨cs ++ [k], List.prefix_rfl, hq⟩

/-- Every reset meets the initial configuration. -/
theorem met_initial (O : Unfolding C) (reward : R) (config : Exploration R) {cs : List Call}
    (h : .reset ∈ cs) : (new O reward config).Met cs O.initial := by
  obtain ⟨before, since, rfl⟩ := List.append_of_mem h
  have horacle := (explores_after O reward config before).oracle
  refine ⟨before ++ [.reset], ⟨since, by simp⟩, 0, ?_⟩
  rw [Simulator.after_concat_reset]
  exact congrArg (fun U : Unfolding C => some (0, U.initial)) horacle

/-- A call adds the configuration at which it ends. -/
theorem Explores.mem_configurations_call (h : S.Explores O reward config) (k : Call) (c : C) :
    c ∈ (Simulator.call S k).1.graph.configurations ↔ c ∈ S.graph.configurations ∨
      ∃ q, (Simulator.call S k).1.position? = some (q, c) := by
  have hmem : ∀ T : ExploringSimulator C R, T.Explores O reward config →
      ∀ q, T.position? = some (q, c) → c ∈ T.graph.configurations := fun T hT q hq =>
    List.mem_of_getElem? (hT.position q c hq)
  cases k with
  | reset => exact (or_iff_left_of_imp fun ⟨q, hq⟩ => hmem _ h.reset q hq).symm
  | step I last =>
    change c ∈ (S.step I last).state.graph.configurations ↔ c ∈ S.graph.configurations ∨
      ∃ q, (S.step I last).state.position? = some (q, c)
    rcases state_cases S I last with hs | ⟨_, _, b, G, d, -, -, hr, hs⟩
    · rw [hs]
      exact (or_iff_left_of_imp fun ⟨q, hq⟩ => hmem S h q hq).symm
    · rw [hs]
      refine ((KnownGraph.recorded_of_record hr).mem_configurations
        h.faithful.indexed).trans (or_congr_right ?_)
      constructor
      · rintro rfl
        exact ⟨d.state, rfl⟩
      · rintro ⟨q, hq⟩
        cases hq
        rfl

/-- **The known configurations are the initial one and those that have been met.** -/
theorem mem_configurations_after (O : Unfolding C) (reward : R) (config : Exploration R)
    (cs : List Call) (c : C) :
    c ∈ (Simulator.after (new O reward config) cs).graph.configurations ↔
      c = O.initial ∨ (new O reward config).Met cs c := by
  induction cs using List.reverseRecOn with
  | nil => simp [new, KnownGraph.new, Met]
  | append_singleton cs k ih =>
    have hcall := (explores_after O reward config cs).mem_configurations_call k c
    rw [met_concat, Simulator.after_append, Simulator.after_cons, Simulator.after_nil, hcall, ih,
      or_assoc]

end Step

end ExploringSimulator

end GoalAutomata