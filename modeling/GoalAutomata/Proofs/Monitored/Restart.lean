/-
  A reset erases the past.

  Some parts forget: a reset of them does the same after any further call
  (`Simulator.Forgets`, `Gate.Forgets`).  Others, such as a test that counts its
  calls, do not.  A goal forgets if its simulator and its gate do (`Goal.forgets`),
  and a monitored environment restores its start if its environment does, its goals
  forget and its sensor is a function (`Monitored.restores`).

  * `reset_erases_past`: what this means for goals of whole automata.
-/
import GoalAutomata.Environment.Chain
import GoalAutomata.Gate.Engagement
import GoalAutomata.Proofs.Monitored.Calls

namespace GoalAutomata

/-! ## Simulators -/

section Simulators

variable {S R : Type} [Simulator S R]

/-- After any call a reset does what it would have done before. -/
def Simulator.Forgets (S : Type) {R : Type} [Simulator S R] : Prop :=
  ∀ (s : S) (c : Call), reset (call s c).1 = reset s

theorem Simulator.Forgets.reset_after (h : Forgets S) (s : S) (cs : List Call) :
    reset (after s cs) = reset s := by
  induction cs generalizing s with
  | nil => rfl
  | cons c cs ih => rw [after_cons, ih, h]

theorem CompleteSimulator.forgets (R : Type) [Amount R] :
    Simulator.Forgets (CompleteSimulator R) := by
  intro S c
  cases c with
  | reset => rfl
  | step I last =>
    change (S.step I last).state.reset = S.reset
    rcases state_cases S I last with hs | ⟨_, hs⟩
    all_goals rw [hs]
    rfl

end Simulators

/-! ## Gates -/

section Gates

variable {K L P R : Type} [Gate K R] [Gate L R]

/-- The same for a gate. -/
structure Gate.Forgets (K R : Type) [Gate K R] : Prop where
  step (k : K) (I : Fluents) : Gate.reset R (Gate.step (R := R) k I).state = Gate.reset R k
  reset (k : K) : Gate.reset R (Gate.reset R k) = Gate.reset R k

theorem Gate.Forgets.sum (hK : Forgets K R) (hL : Forgets L R) : Forgets (K ⊕ L) R where
  step
    | .inl k, I => congrArg Sum.inl (hK.step k I)
    | .inr l, I => congrArg Sum.inr (hL.step l I)
  reset
    | .inl k => congrArg Sum.inl (hK.reset k)
    | .inr l => congrArg Sum.inr (hL.reset l)

/-- The automaton of a gate stays, and a reset takes it to its initial state. -/
theorem EngagementGate.forgets (R : Type) : Gate.Forgets EngagementGate R where
  step k I := by
    have hacceptor : (k.step (R := R) I).state.acceptor = k.acceptor := by
      unfold step
      cases k.acceptor.successor k.state I <;> rfl
    exact congrArg new hacceptor
  reset _ := rfl

/-- A gate by a test forgets if the test stays as it is, since a reset drops all else. -/
theorem StatelessGate.forgets [TickTest P] (R : Type)
    (h : ∀ (p : P) (I : Fluents), (TickTest.test p I).2 = p) :
    Gate.Forgets (StatelessGate P) R where
  step k I := by
    change (k.step (R := R) I).state.reset = k.reset
    unfold step
    split_ifs
    · rfl
    · simp only [Outcome.done, reset, note, h]
  reset _ := rfl

end Gates

/-! ## Goals -/

namespace Goal

variable {S K R : Type} [Simulator S R] [Gate K R]

/-- A reset depends on the simulator and the gate only through their own resets. -/
theorem reset_congr (g : Goal S K) {s : S} {k : K}
    (hs : Simulator.reset s = Simulator.reset g.simulator)
    (hk : Gate.reset R k = Gate.reset R g.gate) :
    reset (R := R) { g with simulator := s, gate := k } = g.reset := by
  simp only [reset, hs, hk]

variable [Amount R]

theorem forgets (hS : Simulator.Forgets S) (hK : Gate.Forgets K R) :
    Simulator.Forgets (Goal S K) := by
  intro g c
  cases c with
  | reset => exact reset_congr g (hS g.simulator .reset) (hK.reset g.gate)
  | step I last =>
    change (g.step I last).state.reset = g.reset
    rcases step_cases g I last with ⟨-, -, hs⟩ | ⟨_, _, -, -, -, hs⟩ | ⟨_, -, -, -, hs⟩ |
      ⟨_, -, -, -, hs⟩
    · rw [hs]
    · rw [hs]
      exact reset_congr g rfl (hK.step g.gate I)
    · rw [hs]
      exact reset_congr g rfl (hK.step g.gate I)
    · rw [hs]
      exact reset_congr g (hS g.simulator (.step I last)) (hK.step g.gate I)

theorem map_reset_alone (h : Simulator.Forgets (Goal S K)) (gs : List (Goal S K))
    (calls : Nat → List Call) : (alone gs calls).map (·.reset.1) = gs.map (·.reset.1) := by
  refine List.ext_getElem (by simp) fun i _ _ => ?_
  simp only [alone, List.getElem_map, List.getElem_mapIdx]
  exact congrArg Prod.fst (h.reset_after _ (calls i))

end Goal

/-! ## Environments -/

/-- The number of cells stays, and a reset takes the walker to the first. -/
theorem ChainEnvironment.restores {R : Type} [Amount R] (c : ChainEnvironment R) :
    Environment.Restores c := by
  intro past o ho
  refine ⟨ho, ?_⟩
  refine Environment.after_induction
    (P := fun d : ChainEnvironment R => (Environment.reset d).state = (Environment.reset c).state)
    rfl (fun d call hd => ?_) past
  cases call <;> exact hd

namespace Monitored

variable {E S K O T A R : Type} [Amount R] [Environment E O A R] [Simulator S R] [Gate K R]
  {m : Monitored E S K (O → Option A → Except String Fluents) O T} {past : List (Act A)}

/-- **A reset that gets past the environment does what a first reset does**, be it a success or a
    failure. -/
theorem reset_after (he : Environment.Restores m.environment)
    (hg : Simulator.Forgets (Goal S K)) {o : O}
    (ho : (Environment.reset (Environment.after m.environment past)).result = .ok o) :
    (Environment.reset (Environment.after m past)).result = m.reset.result ∧
      (Environment.reset (Environment.after m past)).state = m.reset.state := by
  obtain ⟨hfirst, hstate⟩ := he past o ho
  obtain ⟨y, f, hafter, hleads⟩ := exists_after m past
  obtain rfl := hleads.eq
  -- both resets are settled from the same start
  have hstart : ((Environment.after m past).turn .reset).start = (m.turn .reset).start := by
    rw [hafter]
    simp only [start, turn, Goal.map_reset_alone hg]
    exact congrArg (fun e => ({ m with environment := e, goals := _ } : Monitored E S K _ O T)) hstate
  have hlater := reset_of_ok (m := Environment.after m past) (o := o) (by rw [hafter]; exact ho)
  have hnow := reset_of_ok (m := m) hfirst
  rw [hstart] at hlater
  exact ⟨hlater.1.trans hnow.1.symm, hlater.2.trans hnow.2.symm⟩

theorem restores (he : Environment.Restores m.environment) (hg : Simulator.Forgets (Goal S K)) :
    Environment.Restores m := by
  intro past t ht
  obtain ⟨y, f, hafter, -⟩ := exists_after m past
  -- the environment has been reset too
  have ⟨o, ho⟩ : ∃ o,
      (Environment.reset (Environment.after m.environment past)).result = .ok o := by
    obtain ⟨o, ho, -⟩ := Outcome.exists_of_andThen_ok ht
    rw [hafter] at ho
    exact ⟨o, ho⟩
  obtain ⟨hresult, hstate⟩ := reset_after he hg ho
  exact ⟨hresult.symm.trans ht, hstate⟩

end Monitored

/-- **A reset erases the past.**  Let the environment be one whose reset restores its start, as that
    of a chain does, the goals those of whole automata, behind gates by an automaton or by a
    predicate, and the sensor a function, which may fail.  Whatever two histories of calls came
    before, failed ones included: if a reset succeeds after both, then from it on every call answers
    the same after both as after neither.  A second reset, if the environment takes it, succeeds and
    changes nothing. -/
theorem reset_erases_past {R : Type} [Amount R] :
    (∀ c : ChainEnvironment R, Environment.Restores c ∧
      ∀ past : List (Act ChainAction), (Environment.reset (Environment.after c past)).result =
        .ok 0) ∧
    ∀ {E O T A : Type} [Environment E O A R]
      (m : Monitored E (CompleteSimulator R) (EngagementGate ⊕ StatelessGate (Fluents → Bool))
        (O → Option A → Except String Fluents) O T), Environment.Restores m.environment →
      ∀ (past past' : List (Act A)) (t t' : T),
        (Environment.reset (Environment.after m past)).result = .ok t →
        (Environment.reset (Environment.after m past')).result = .ok t' →
        (∀ cs : List (Act A),
          Environment.answers (Environment.after m past) (.reset :: cs) =
            Environment.answers (Environment.after m past') (.reset :: cs) ∧
          Environment.answers (Environment.after m past) (.reset :: cs) =
            Environment.answers m (.reset :: cs)) ∧
        ∀ o : O, (Environment.reset
            (Environment.after m.environment (past ++ [.reset]))).result = .ok o →
          (Environment.reset (Environment.after m (past ++ [.reset]))).result = .ok t ∧
          Environment.after m (past ++ [.reset, .reset]) =
            Environment.after m (past ++ [.reset]) := by
  refine ⟨fun c => ⟨c.restores, fun _ => rfl⟩, ?_⟩
  intro E O T A _ m he past past' t t' ht ht'
  have hgates : Gate.Forgets (EngagementGate ⊕ StatelessGate (Fluents → Bool)) R :=
    (EngagementGate.forgets R).sum (StatelessGate.forgets R fun _ _ => rfl)
  have hgoals := Goal.forgets (CompleteSimulator.forgets R) hgates
  have hm := Monitored.restores he hgoals
  refine ⟨fun cs => ⟨(hm.answers_eq ht cs).trans (hm.answers_eq ht' cs).symm, hm.answers_eq ht cs⟩,
    fun o ho => ?_⟩
  -- each of the two resets does what a first one does
  obtain ⟨hfirst, hone⟩ := hm past t ht
  obtain ⟨hresult, htwo⟩ := Monitored.reset_after he hgoals ho
  have hcons : past ++ [Act.reset, .reset] = past ++ [.reset] ++ [.reset] := by simp
  refine ⟨hresult.trans hfirst, ?_⟩
  calc Environment.after m (past ++ [.reset, .reset])
    _ = (Environment.reset (Environment.after m (past ++ [.reset]))).state := by
      rw [hcons, Environment.after_concat_reset]
    _ = (Environment.reset (Environment.after m past)).state := htwo.trans hone.symm
    _ = Environment.after m (past ++ [.reset]) := Environment.after_concat_reset.symm

/-- A walker that has been where its sensor fails, and one that has not: after a reset both see
    the same. -/
theorem failed_walk_erased :
    let goal (gate : EngagementGate ⊕ StatelessGate (Fluents → Bool)) :
        Goal (CompleteSimulator Rat) (EngagementGate ⊕ StatelessGate (Fluents → Bool)) :=
      { simulator := .new Dfa.twoSteps.toAutomaton 3 .sparse, gate }
    let m : Monitored (ChainEnvironment Rat) (CompleteSimulator Rat)
        (EngagementGate ⊕ StatelessGate (Fluents → Bool))
        (Nat → Option ChainAction → Except String Fluents) Nat (Nat × List Nat) := {
      environment := ⟨{ cells := 3, position := 0, position_lt := by decide }⟩
      goals := [goal (.inl (.new Dfa.twoSteps.toAutomaton)),
        goal (.inr { test := fun _ => true, allowFirst := false })]
      sensor := fun o _ => if o = 2 then .error "too far" else .ok ∅
      combine := Prod.mk }
    let past : List (Act ChainAction) := [.reset, .step .right, .step .right]
    Environment.answers (Environment.after m past) [.reset, .step .right] =
      Environment.answers m [.reset, .step .right] ∧
    Environment.after m (past ++ [.reset, .reset]) = Environment.after m (past ++ [.reset]) := by
  intro goal m past
  obtain ⟨hchain, herased⟩ := reset_erases_past (R := Rat)
  obtain ⟨hanswers, htwice⟩ := herased m (hchain m.environment).1 past [] _ _ rfl rfl
  exact ⟨(hanswers [.step .right]).2, (htwice 0 ((hchain m.environment).2 _)).2⟩

end GoalAutomata
