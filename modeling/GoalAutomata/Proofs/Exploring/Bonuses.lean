/-
  Bonuses decay from their discovery on.

  A state gets its bonus in the step that discovers it, unless it is accepting or
  failed, and never again: steps leave the bonuses of known states alone
  (`ExploringSimulator.getElem?_bonuses_step`).  Every reset decays them, so after a
  run a bonus has decayed as often as there were resets
  (`ExploringSimulator.exists_bonuses_after`).

  In exact arithmetic the decay has a closed form.  A bonus is dropped at the first
  reset that takes it below the threshold, and since it only falls, this is the same
  as comparing the undropped bonus with the threshold now
  (`ExploringSimulator.iterate_decayed`).
-/
import Mathlib.Algebra.Order.Field.Rat
import Mathlib.Algebra.Order.GroupWithZero.Basic
import GoalAutomata.Proofs.Exploring.Returns
import GoalAutomata.Proofs.Exploring.Table

namespace GoalAutomata

/-- Bonuses are not negative and do not grow, and neither is the threshold. -/
structure Exploration.Fading (config : Exploration Rat) : Prop where
  initialBonus_nonneg : 0 ≤ config.initialBonus
  decay_nonneg : 0 ≤ config.decay
  decay_le_one : config.decay ≤ 1
  threshold_nonneg : 0 ≤ config.threshold

/-- What is left of a bonus after `k` resets. -/
def Exploration.bonusAfter (config : Exploration Rat) (reward : Rat) (k : Nat) : Rat :=
  let x := config.initialBonus * reward * config.decay ^ k
  if k = 0 ∨ config.threshold * reward ≤ x then x else 0

theorem Exploration.Fading.bonusAfter_nonneg {config : Exploration Rat} (h : config.Fading)
    {reward : Rat} (hreward : 0 ≤ reward) (k : Nat) : 0 ≤ config.bonusAfter reward k := by
  simp only [Exploration.bonusAfter]
  split_ifs
  · exact mul_nonneg (mul_nonneg h.initialBonus_nonneg hreward) (pow_nonneg h.decay_nonneg k)
  · exact le_rfl

namespace ExploringSimulator

/-! ## Which states have a bonus -/

section Keys

variable {C R : Type} [Amount R] {S : ExploringSimulator C R} {O : Unfolding C}
  {reward : R} {config : Exploration R} {q e : Nat}

/-- The states with a bonus are the known ones that are neither the initial one nor accepting nor
    failed. -/
def Grants (O : Unfolding C) (S : ExploringSimulator C R) : Prop :=
  ∀ q, q ∈ S.bonuses ↔ q ≠ 0 ∧ ∃ c, S.graph.configuration? q = some c ∧
    O.isAccepting c = false ∧ O.isFailed c = false

theorem grants_new (O : Unfolding C) (reward : R) (config : Exploration R) :
    (new O reward config).Grants O := by
  intro q
  have hnone : q ∉ (new O reward config).bonuses := Std.ExtTreeMap.not_mem_empty
  refine iff_of_false hnone ?_
  rintro ⟨hne, c, hc, -⟩
  exact hne (KnownGraph.configuration?_new.1 hc).1

theorem Grants.reset (h : S.Grants O) : S.reset.1.Grants O := by
  intro q
  refine Iff.trans ?_ (h q)
  exact Std.ExtTreeMap.mem_map

theorem mem_bonuses_advance {b : C} {G : KnownGraph C} {d : Discovery} :
    q ∈ (S.advance b G d).bonuses ↔ q ∈ S.bonuses ∨
      q = d.state ∧ d.isNew = true ∧ S.oracle.isAccepting b = false ∧
        S.oracle.isFailed b = false := by
  simp only [advance]
  split_ifs with h
  · simp only [Bool.and_eq_true, Bool.not_eq_true'] at h
    rw [Std.ExtTreeMap.mem_insert, Std.LawfulEqCmp.compare_eq_iff_eq, or_comm, eq_comm]
    exact or_congr_right ⟨fun hq => ⟨hq, h.1.1, h.1.2, h.2⟩, fun hq => hq.1⟩
  · refine (or_iff_left ?_).symm
    rintro ⟨-, hnew, hacc, hfail⟩
    exact h (by rw [hnew, hacc, hfail]; rfl)

variable [DecidableEq C]

theorem Grants.step (hS : S.Explores O reward config) (h : S.Grants O) (I : Fluents) (last : Bool) :
    (S.step I last).state.Grants O := by
  rcases state_cases S I last with hs | ⟨_, _, c, G, d, -, -, hr, hs⟩
  · rwa [hs]
  · have hrec := KnownGraph.recorded_of_record hr
    rw [hs]
    intro q
    rw [mem_bonuses_advance, graph_advance, h q, hS.oracle]
    constructor
    · rintro (⟨hne, b, hb, hno⟩ | ⟨rfl, hnew, hno⟩)
      · exact ⟨hne, b, hrec.configuration_of_some hb, hno⟩
      · obtain ⟨-, hd, -⟩ := hrec.new (hrec.isNew_iff.1 hnew)
        have hpos : 0 < S.graph.size := (List.getElem?_eq_some_iff.1 hS.faithful.initial).1
        exact ⟨by omega, c, hrec.configuration hS.faithful.indexed, hno⟩
    · rintro ⟨hne, b, hb, hno⟩
      rcases hrec.configuration_cases hb with hold | ⟨rfl, rfl⟩
      · exact Or.inl ⟨hne, b, hold, hno⟩
      · cases hstate : S.graph.state? b with
        | some r =>
          obtain ⟨-, -, hconf, -⟩ := hrec.old r hstate
          rw [KnownGraph.configuration?, hconf] at hb
          exact Or.inl ⟨hne, b, hb, hno⟩
        | none => exact Or.inr ⟨rfl, hrec.isNew_iff.2 hstate, hno⟩

theorem grants_after (O : Unfolding C) (reward : R) (config : Exploration R) (cs : List Call) :
    (Simulator.after (new O reward config) cs).Grants O :=
  (Simulator.after_induction (P := fun T : ExploringSimulator C R =>
    T.Explores O reward config ∧ T.Grants O)
    ⟨explores_new O reward config, grants_new O reward config⟩
    (fun _ h => ⟨h.1.reset, h.2.reset⟩)
    (fun _ I last h => ⟨h.1.step I last, h.2.step h.1 I last⟩) cs).2

/-! ## What calls do to a bonus -/

theorem size_le_step (S : ExploringSimulator C R) (I : Fluents) (last : Bool) :
    S.graph.size ≤ (S.step I last).state.graph.size :=
  (extends_step S I last).configurations.length_le

theorem episode_step (S : ExploringSimulator C R) (I : Fluents) (last : Bool) :
    (S.step I last).state.episode = S.episode := by
  rcases state_cases S I last with hs | ⟨_, _, _, _, _, -, -, -, hs⟩
  · rw [hs]
  · rw [hs]
    rfl

theorem decayed_step (S : ExploringSimulator C R) (I : Fluents) (last : Bool) :
    (S.step I last).state.decayed = S.decayed := by
  rcases state_cases S I last with hs | ⟨_, _, _, _, _, -, -, -, hs⟩
  · rw [hs]
  · rw [hs]
    rfl

/-- **A step leaves the bonuses of known states alone**, also when it visits them. -/
theorem getElem?_bonuses_step (hq : q < S.graph.size) (I : Fluents) (last : Bool) :
    (S.step I last).state.bonuses[q]? = S.bonuses[q]? := by
  rcases state_cases S I last with hs | ⟨_, _, c, G, d, -, -, hr, hs⟩
  · rw [hs]
  · have hrec := KnownGraph.recorded_of_record hr
    rw [hs]
    simp only [advance]
    split_ifs with h
    · simp only [Bool.and_eq_true, Bool.not_eq_true'] at h
      obtain ⟨-, hd, -⟩ := hrec.new (hrec.isNew_iff.1 h.1.1)
      have hne : d.state ≠ q := by omega
      simp [Std.ExtTreeMap.getElem?_insert, hne]
    · rfl

/-- **After a run a bonus has decayed once for each episode that has begun.** -/
theorem exists_bonuses_after (hq : q < S.graph.size) (cs : List Call) :
    ∃ k, (Simulator.after S cs).episode = S.episode + k ∧
      (Simulator.after S cs).bonuses[q]? = S.bonuses[q]?.map S.decayed^[k] := by
  refine (Simulator.after_induction (P := fun T : ExploringSimulator C R =>
    q < T.graph.size ∧ T.decayed = S.decayed ∧ ∃ k, T.episode = S.episode + k ∧
      T.bonuses[q]? = S.bonuses[q]?.map S.decayed^[k])
    ⟨hq, rfl, 0, rfl, by simp⟩ ?_ ?_ cs).2.2
  · rintro T ⟨hqT, hdec, k, hk, hb⟩
    refine ⟨hqT, hdec, k + 1, congrArg (· + 1) hk, ?_⟩
    have hmap : T.reset.1.bonuses[q]? = T.bonuses[q]?.map T.decayed := Std.ExtTreeMap.getElem?_map
    change T.reset.1.bonuses[q]? = _
    rw [hmap, hb, hdec, Option.map_map, Function.iterate_succ']
  · rintro T I last ⟨hqT, hdec, k, hk, hb⟩
    exact ⟨hqT.trans_le (size_le_step T I last), (decayed_step T I last).trans hdec, k,
      (episode_step T I last).trans hk, (getElem?_bonuses_step hqT I last).trans hb⟩

/-! ## Discovery -/

/-- Some step of the run `cs` discovers the state `q`, in the episode `e`. -/
def DiscoveredIn (S : ExploringSimulator C R) (cs : List Call) (q e : Nat) : Prop :=
  ∃ before I last since, cs = before ++ .step I last :: since ∧
    (Simulator.after S before).graph.size ≤ q ∧
    q < (Simulator.after S (before ++ [.step I last])).graph.size ∧
    (Simulator.after S before).episode = e

/-- A state that is not known at first and known after a run is discovered by it. -/
theorem exists_discoveredIn {cs : List Call} (hold : S.graph.size ≤ q)
    (hnew : q < (Simulator.after S cs).graph.size) : ∃ e, S.DiscoveredIn cs q e := by
  induction cs using List.reverseRecOn with
  | nil => exact absurd hnew (not_lt.2 hold)
  | append_singleton cs c ih =>
    by_cases hq : q < (Simulator.after S cs).graph.size
    · obtain ⟨e, before, I, last, since, rfl, h⟩ := ih hq
      exact ⟨e, before, I, last, since ++ [c], by simp, h⟩
    · cases c with
      | reset =>
        rw [Simulator.after_concat_reset] at hnew
        exact absurd hnew hq
      | step I last => exact ⟨_, cs, I, last, [], rfl, not_lt.1 hq, hnew, rfl⟩

/-- A state that is discovered gets the bonus of a new state, if it gets any. -/
theorem Grants.getElem?_bonuses_step (h : S.Grants O) (hq : S.graph.size ≤ q) (I : Fluents)
    (last : Bool) : (S.step I last).state.bonuses[q]? = none ∨
      (S.step I last).state.bonuses[q]? = some S.freshBonus := by
  have hnone : S.bonuses[q]? = none := by
    refine Std.ExtTreeMap.getElem?_eq_none fun hmem => ?_
    obtain ⟨-, c, hc, -⟩ := (h q).1 hmem
    exact absurd (List.getElem?_eq_some_iff.1 hc).1 (not_lt.2 hq)
  rcases state_cases S I last with hs | ⟨_, _, c, G, d, -, -, -, hs⟩
  · rw [hs]
    exact Or.inl hnone
  · rw [hs]
    simp only [advance]
    split_ifs
    · rw [Std.ExtTreeMap.getElem?_insert]
      split_ifs
      · exact Or.inr rfl
      · exact Or.inl hnone
    · exact Or.inl hnone

end Keys

/-! ## The closed form -/

section Exact

variable {C : Type} {S : ExploringSimulator C Rat} {x : Rat}

theorem decayed_eq (S : ExploringSimulator C Rat) (x : Rat) :
    S.decayed x =
      if x * S.config.decay < S.config.threshold * S.reward then 0 else x * S.config.decay := by
  simp only [decayed, Amount.less, decide_eq_true_eq]

theorem decayed_zero (S : ExploringSimulator C Rat) : S.decayed 0 = 0 := by
  rw [decayed_eq, zero_mul, ite_self]

theorem decayed_nonneg (h : S.config.Fading) (hx : 0 ≤ x) : 0 ≤ S.decayed x := by
  rw [decayed_eq]
  split_ifs
  · exact le_rfl
  · exact mul_nonneg hx h.decay_nonneg

theorem decayed_le (h : S.config.Fading) (hx : 0 ≤ x) : S.decayed x ≤ x := by
  rw [decayed_eq]
  split_ifs
  · exact hx
  · exact mul_le_of_le_one_right hx h.decay_le_one

theorem iterate_decayed_zero (S : ExploringSimulator C Rat) (k : Nat) : S.decayed^[k] 0 = 0 :=
  Function.iterate_fixed S.decayed_zero k

theorem iterate_decayed_le (h : S.config.Fading) (hx : 0 ≤ x) (k : Nat) :
    0 ≤ S.decayed^[k] x ∧ S.decayed^[k] x ≤ x := by
  induction k with
  | zero => exact ⟨hx, le_rfl⟩
  | succ k ih =>
    rw [Function.iterate_succ_apply']
    exact ⟨decayed_nonneg h ih.1, (decayed_le h ih.1).trans ih.2⟩

/-- **A bonus need only be compared with the threshold at the end**: were it below at an earlier
    reset, it would still be. -/
theorem iterate_decayed (h : S.config.Fading) (hreward : 0 ≤ S.reward) (k : Nat) :
    S.decayed^[k] S.freshBonus = S.config.bonusAfter S.reward k := by
  induction k with
  | zero => simp [Exploration.bonusAfter, freshBonus]
  | succ k ih =>
    have hx : 0 ≤ S.config.initialBonus * S.reward * S.config.decay ^ k :=
      mul_nonneg (mul_nonneg h.initialBonus_nonneg hreward) (pow_nonneg h.decay_nonneg k)
    rw [Function.iterate_succ_apply', ih]
    simp only [Exploration.bonusAfter, pow_succ, ← mul_assoc, Nat.add_one_ne_zero, false_or]
    generalize S.config.initialBonus * S.reward * S.config.decay ^ k = x at hx
    split_ifs with hkept hlater hlater
    · rw [decayed_eq, if_neg hlater.not_gt]
    · rw [decayed_eq, if_pos (not_le.1 hlater)]
    · have hfall : x * S.config.decay ≤ x := mul_le_of_le_one_right hx h.decay_le_one
      exact absurd (Or.inr (hlater.trans hfall)) hkept
    · exact S.decayed_zero

variable [DecidableEq C]

/-- **After a discovery the bonus depends on the number of episodes alone.** -/
theorem Explores.exists_bonus {O : Unfolding C} {reward : Rat} {config : Exploration Rat} {q : Nat}
    (h : S.Explores O reward config) (hgrants : S.Grants O) (hconfig : config.Fading)
    (hreward : 0 ≤ reward) {I : Fluents} {last : Bool} (hold : S.graph.size ≤ q)
    (hnew : q < (S.step I last).state.graph.size) (cs : List Call) :
    ∃ k, (Simulator.after (S.step I last).state cs).episode = S.episode + k ∧
      (q ∈ (Simulator.after (S.step I last).state cs).bonuses →
        (Simulator.after (S.step I last).state cs).bonuses[q]? =
          some (config.bonusAfter reward k)) := by
  have hT := h.step I last
  have hfirst := hgrants.getElem?_bonuses_step hold I last
  have hfresh : S.freshBonus = (S.step I last).state.freshBonus := by
    simp only [freshBonus, h.config, h.reward, hT.config, hT.reward]
  obtain ⟨k, hk, hbonus⟩ := exists_bonuses_after hnew cs
  refine ⟨k, by rw [hk, episode_step], fun hmem => ?_⟩
  obtain ⟨x, hx⟩ := Option.isSome_iff_exists.1 (Std.ExtTreeMap.mem_iff_isSome_getElem?.1 hmem)
  rcases hfirst with hnone | hsome
  · rw [hnone, Option.map_none] at hbonus
    exact absurd (hbonus.symm.trans hx) (Option.some_ne_none x).symm
  · rw [hbonus, hsome, Option.map_some, hfresh,
      iterate_decayed (by rwa [hT.config]) (by rwa [hT.reward]), hT.config, hT.reward]

end Exact

end ExploringSimulator

/-- **Bonuses decay in closed form.**  Take a simulator of an unfolding, with a reward that is not
    negative and bonuses that fade, after any calls.  The states that it knows have a bonus, but for
    the initial one and those that are accepting or failed.  Each was discovered in some episode.
    If `k` more have begun since, its bonus is the initial one times the `k`-th power of the decay,
    but nothing if `k` is positive and this is below the threshold.  A step leaves the bonuses of
    known states alone, so none is granted again.  No bonus ever increases, and one that has been
    dropped is not restored. -/
theorem bonuses_decay {C : Type} [DecidableEq C] (O : Unfolding C) (reward : Rat)
    (hreward : 0 ≤ reward) (config : Exploration Rat) (hconfig : config.Fading)
    (cs : List Call) :
    let E := ExploringSimulator.new O reward config
    let S := Simulator.after E cs
    (∀ q, q ∈ S.bonuses ↔ q ≠ 0 ∧ ∃ c, S.graph.configuration? q = some c ∧
      O.isAccepting c = false ∧ O.isFailed c = false) ∧
    (∀ q < S.graph.size, q ≠ 0 → ∃ e, E.DiscoveredIn cs q e) ∧
    (∀ q e, E.DiscoveredIn cs q e → ∃ k, S.episode = e + k ∧
      (q ∈ S.bonuses → S.bonuses[q]? = some (config.bonusAfter reward k))) ∧
    (∀ q < S.graph.size, ∀ I last, (S.step I last).state.bonuses[q]? = S.bonuses[q]?) ∧
    ∀ (q : Nat) (x : Rat), S.bonuses[q]? = some x → ∀ ds,
      ∃ y, (Simulator.after S ds).bonuses[q]? = some y ∧ y ≤ x ∧ (x = 0 → y = 0) := by
  intro E S
  have hS : S.Explores O reward config := ExploringSimulator.explores_after O reward config cs
  have hgrants : S.Grants O := ExploringSimulator.grants_after O reward config cs
  have hdiscovered : ∀ q < S.graph.size, q ≠ 0 → ∃ e, E.DiscoveredIn cs q e := fun q hq hne =>
    ExploringSimulator.exists_discoveredIn (Nat.one_le_iff_ne_zero.2 hne) hq
  have hbonus : ∀ q e, E.DiscoveredIn cs q e → ∃ k, S.episode = e + k ∧
      (q ∈ S.bonuses → S.bonuses[q]? = some (config.bonusAfter reward k)) := by
    rintro q e ⟨before, I, last, since, rfl, hold, hnew, rfl⟩
    simp only [S, Simulator.after_append, Simulator.after_cons, Simulator.after_nil] at hnew ⊢
    exact (ExploringSimulator.explores_after O reward config before).exists_bonus
      (ExploringSimulator.grants_after O reward config before) hconfig hreward hold hnew since
  refine ⟨hgrants, hdiscovered, hbonus,
    fun q hq => ExploringSimulator.getElem?_bonuses_step hq, ?_⟩
  intro q x hx ds
  have hmem : q ∈ S.bonuses := Std.ExtTreeMap.mem_iff_isSome_getElem?.2 (by rw [hx]; rfl)
  obtain ⟨hne, c, hc, -⟩ := (hgrants q).1 hmem
  have hq : q < S.graph.size := (List.getElem?_eq_some_iff.1 hc).1
  obtain ⟨e, he⟩ := hdiscovered q hq hne
  obtain ⟨k, -, hk⟩ := hbonus q e he
  obtain rfl : config.bonusAfter reward k = x := Option.some_inj.1 ((hk hmem).symm.trans hx)
  obtain ⟨j, -, hj⟩ := ExploringSimulator.exists_bonuses_after hq ds
  refine ⟨_, by rw [hj, hx, Option.map_some], ?_, fun h => ?_⟩
  · exact (ExploringSimulator.iterate_decayed_le (by rwa [hS.config])
      (hconfig.bonusAfter_nonneg hreward k) j).2
  · rw [h, ExploringSimulator.iterate_decayed_zero]

/-- Bonuses that are halved every episode, and dropped below a fifth of the reward. -/
def Exploration.halving : Exploration Rat where
  shaping := .standard
  initialBonus := 1
  decay := 1 / 2
  threshold := 1 / 5
  maxStates := 64

/-- A bonus of ten has fallen to five halves after two more episodes. -/
theorem bonus_of_third_episode :
    (Simulator.after (ExploringSimulator.new (.counting 2) 10 .halving)
      [.reset, .step ∅ false, .reset, .reset]).bonuses[1]? = some (5 / 2) := by
  have hfading : Exploration.halving.Fading :=
    ⟨by decide +kernel, by decide +kernel, by decide +kernel, by decide +kernel⟩
  obtain ⟨k, hk, hbonus⟩ := (bonuses_decay (.counting 2) 10 (by decide) .halving hfading
    [.reset, .step ∅ false, .reset, .reset]).2.2.1 1 1
    ⟨[.reset], ∅, false, [.reset, .reset], rfl, by decide +kernel, by decide +kernel, rfl⟩
  obtain rfl : 2 = k := Nat.add_left_cancel hk
  exact (hbonus (by decide +kernel)).trans (by decide +kernel)

/-- The next reset drops it. -/
example : Exploration.halving.bonusAfter 10 3 = 0 := by decide +kernel

end GoalAutomata
