/-
  Returns of a goal behind a gate.

  The gate takes every tick and the simulator only those at which it is open, so the
  two run at different rates.  A closed tick pays nothing and keeps the potential, so
  before the end every tick pays what the potential gains, open or closed.  At the
  last tick an open gate lets the simulator pay the bonus instead of a potential,
  and a closed one leaves the potential at which the goal is frozen.

  * `PaysGains.tick_ok`: what one tick pays;
  * `PaysGains.gated_episode`: what an episode pays;
  * `gated_goal_runs_on_open_ticks`: both, for any gate and pattern of openings.
-/
import Mathlib.Algebra.Order.Field.Rat
import Mathlib.Tactic.NormNum
import GoalAutomata.Proofs.Complete
import GoalAutomata.Proofs.Exploring.Returns
import GoalAutomata.Proofs.Goal

namespace GoalAutomata

/-- A goal is at the state that its ticks answer if its simulator is. -/
theorem Goal.truthful {S R : Type} [Amount R] [Simulator S R] (hS : Simulator.Truthful S) (K : Type)
    [Gate K R] : Simulator.Truthful (Goal S K) := by
  intro g I last q x hx
  change Simulator.state? (g.step I last).state.simulator = some q
  rcases Goal.ok_cases hx with ⟨-, hq, -, hs⟩ | ⟨-, hr, hs⟩
  · rw [hs]
    exact hq
  · rw [hs]
    exact hS g.simulator I last q x hr

section Gains

variable {S K : Type} [Simulator S Rat] [Gate K Rat] {good : S → Prop} {φ : S → Rat}
  {bonus : Rat} {g : Goal S K} {I : Fluents} {last : Bool} {p : Nat × Rat}

/-- **A tick pays the gain in potential if it is open, and nothing if it is closed**, when the
    potential stays as it is. -/
theorem PaysGains.tick_ok (h : PaysGains good φ 1 bonus) (hg : good g.simulator)
    (hp : (g.step I last).result = .ok p) :
    good (g.step I last).state.simulator ∧
      ((Gate.step (R := Rat) g.gate I).result = .ok false ∧ p.2 = 0 ∧
          (g.step I last).state.simulator = g.simulator ∨
        (Gate.step (R := Rat) g.gate I).result = .ok true ∧
          p.2 = (if last then if (g.step I last).state.isTrue then bonus else 0
            else φ (g.step I last).state.simulator) - φ g.simulator) := by
  rcases Goal.ok_cases hp with ⟨hk, -, hpay, hs⟩ | ⟨hk, hr, hs⟩
  · rw [hs]
    exact ⟨hg, Or.inl ⟨hk, hpay, rfl⟩⟩
  · rw [hs]
    refine ⟨h.kept g.simulator I last p hg hr, Or.inr ⟨hk, ?_⟩⟩
    rw [h.paid g.simulator I last p.1 p.2 hg hr]
    cases last with
    | false => simp
    | true =>
      simp only [if_true, mul_zero, zero_sub]
      exact neg_add_eq_sub _ _

/-- Before the end every tick pays the gain in potential, open or closed. -/
theorem PaysGains.tick_going (h : PaysGains good φ 1 bonus) (hg : good g.simulator)
    (hp : (g.step I false).result = .ok p) :
    p.2 = φ (g.step I false).state.simulator - φ g.simulator := by
  obtain ⟨-, ⟨-, hpay, hs⟩ | ⟨-, hpay⟩⟩ := h.tick_ok hg hp
  · rw [hpay, hs]
    exact (sub_self _).symm
  · simpa using hpay

/-- **The return of an episode behind a gate**: the bonus of acceptance if the last tick is let
    through, and the potential at which the goal is frozen otherwise, less the potential from which
    it started. -/
theorem PaysGains.gated_episode (h : PaysGains good φ 1 bonus) (hg : good g.simulator)
    {w : List (Fluents × Bool)} {ps : List (Nat × Rat)} (hw : ∀ m ∈ w, m.2 = false)
    (hok : Simulator.answers g (Call.steps (w ++ [(I, true)])) =
      ps.map fun p => .stepped (.ok p)) :
    let g' := Simulator.after g (Call.steps (w ++ [(I, true)]))
    good g'.simulator ∧ ∃ bs b,
      Gate.answers Rat g.gate ((w ++ [(I, true)]).map (·.1)) = (bs ++ [b]).map .ok ∧
      (ps.map (·.2)).sum =
        (if b then if g'.isTrue then bonus else 0 else φ g'.simulator) - φ g.simulator := by
  induction w generalizing g ps with
  | nil =>
    obtain ⟨p, qs, rfl, hp, hrest⟩ := Goal.exists_of_ticks_cons hok
    obtain rfl : qs = [] := List.map_eq_nil_iff.1 hrest.symm
    rw [List.map_singleton, List.sum_singleton]
    obtain ⟨hgood, ⟨hk, hpay, hs⟩ | ⟨hk, hpay⟩⟩ := h.tick_ok hg hp
    · refine ⟨hgood, [], false, congrArg (fun r => [r]) hk, ?_⟩
      change p.2 = φ (g.step I true).state.simulator - φ g.simulator
      rw [hpay, hs]
      exact (sub_self _).symm
    · exact ⟨hgood, [], true, congrArg (fun r => [r]) hk, hpay⟩
  | cons m w ih =>
    obtain ⟨J, last⟩ := m
    obtain rfl : last = false := hw (J, last) List.mem_cons_self
    obtain ⟨p, qs, rfl, hp, hrest⟩ := Goal.exists_of_ticks_cons hok
    obtain ⟨hgood, bs, b, hbs, hsum⟩ := ih (h.tick_ok hg hp).1
      (fun m hm => hw m (List.mem_cons_of_mem _ hm)) hrest
    obtain ⟨b₁, hb₁, hgate⟩ := Goal.exists_gate_of_ok hp
    refine ⟨hgood, b₁ :: bs, b, ?_, ?_⟩
    · rw [hgate] at hbs
      rw [List.cons_append, List.map_cons, Gate.answers, hb₁, hbs]
      rfl
    · -- the first tick pays the gain up to where the rest of the episode starts
      rw [List.map_cons, List.sum_cons, hsum, h.tick_going hg hp]
      exact (add_comm _ _).trans (sub_add_sub_cancel _ _ _)

end Gains

/-- **A gated goal is its simulator, run on the open ticks.**  Let all ticks of an episode succeed.
    The gate answers what it answers alone on their fluents.  On the ticks at which it is open the
    goal answers what its simulator answers after a reset when it gets these ticks only, with their
    flags; on every other tick it answers the state in which it is and stays, and pays nothing.
    Paid by potential without discount, in exact amounts, a goal whose last tick only is terminal
    earns the reward if that tick is let through and ends in acceptance, nothing if it ends
    elsewhere, and the potential of the state in which it is frozen if the gate is closed.  This is
    so for a simulator of a whole automaton and for one of an unfolding, whatever their past. -/
theorem gated_goal_runs_on_open_ticks :
    (∀ {S K R : Type} [Amount R] [Simulator S R] [Gate K R] (g : Goal S K)
      (w : List (Fluents × Bool)) (ps : List (Nat × R)),
      Simulator.answers g.reset.1 (Call.steps w) = ps.map (fun p => .stepped (.ok p)) →
      ∃ bs : List Bool, Gate.answers R (Gate.reset R g.gate) (w.map (·.1)) = bs.map .ok ∧
        Simulator.answers (Simulator.reset g.simulator).1 (Call.steps (Gate.admitted bs w)) =
          (Gate.admitted bs ps).map (fun p => .stepped (.ok p)) ∧
        ∀ k p, bs[k]? = some false → ps[k]? = some p → p.2 = 0 ∧
          Simulator.state? (Simulator.after g.reset.1 (Call.steps (w.take k))) = some p.1 ∧
          Simulator.state? (Simulator.after g.reset.1 (Call.steps (w.take (k + 1)))) =
            some p.1) ∧
    (∀ {K : Type} [Gate K Rat] (A : Automaton) (reward : Rat) (g : Goal (CompleteSimulator Rat) K),
      g.simulator.machine = .new A reward → g.simulator.shaping = ⟨.potential, 1⟩ →
      ∀ (w : List (Fluents × Bool)) (I : Fluents) (ps : List (Nat × Rat)) (p : Nat × Rat),
      (∀ m ∈ w, m.2 = false) →
      Simulator.answers g.reset.1 (Call.steps (w ++ [(I, true)])) =
        (ps ++ [p]).map (fun p => .stepped (.ok p)) →
      ∃ bs b, Gate.answers Rat (Gate.reset Rat g.gate) ((w ++ [(I, true)]).map (·.1)) =
          (bs ++ [b]).map .ok ∧
        ((ps ++ [p]).map (·.2)).sum =
          if b then if A.isAccepting p.1 then reward else 0
          else (PricedAutomaton.new A reward).potential.eval p.1 false) ∧
    (∀ {C K : Type} [DecidableEq C] [Gate K Rat] (g : Goal (ExploringSimulator C Rat) K),
      g.simulator.config.shaping = ⟨.potential, 1⟩ →
      ∀ (w : List (Fluents × Bool)) (I : Fluents) (ps : List (Nat × Rat)) (p : Nat × Rat),
      (∀ m ∈ w, m.2 = false) →
      Simulator.answers g.reset.1 (Call.steps (w ++ [(I, true)])) =
        (ps ++ [p]).map (fun p => .stepped (.ok p)) →
      let T := (Simulator.after g.reset.1 (Call.steps (w ++ [(I, true)]))).simulator
      ∃ bs b, Gate.answers Rat (Gate.reset Rat g.gate) ((w ++ [(I, true)]).map (·.1)) =
          (bs ++ [b]).map .ok ∧
        ((ps ++ [p]).map (·.2)).sum =
          if b then if p.1 ∈ T.graph.accepting then g.simulator.reward else 0
          else T.current.eval p.1 false) := by
  refine ⟨fun g w ps hok => Goal.ticks_ok hok, ?_, ?_⟩
  · intro K _ A reward g hM hσ w I ps p hw hok
    have hgains := CompleteSimulator.paysGains (.new A reward) 1
    obtain ⟨⟨hM', -⟩, bs, b, hbs, hsum⟩ :=
      hgains.gated_episode (g := g.reset.1) ⟨hM, hσ⟩ hw hok
    have hq := (Goal.truthful (CompleteSimulator.truthful Rat) K).state?_after hok
    generalize Simulator.after g.reset.1 (Call.steps (w ++ [(I, true)])) = g' at hM' hsum hq
    have hstart : g.reset.1.simulator.height = 0 := CompleteSimulator.height_reset hM
    have hend : g'.isTrue = g'.simulator.machine.automaton.isAccepting p.1 :=
      CompleteSimulator.isTrue_of_state? hq
    refine ⟨bs, b, hbs, ?_⟩
    rw [hsum, hstart, sub_zero, hend, CompleteSimulator.height_of_state? hq, hM']
    rfl
  · intro C K _ _ g hσ w I ps p hw hok T
    have hgains := ExploringSimulator.Earns.paysGains (C := C) g.simulator.reward 1
    obtain ⟨-, bs, b, hbs, hsum⟩ :=
      hgains.gated_episode (g := g.reset.1) ⟨rfl, hσ⟩ hw hok
    have hq := (Goal.truthful (ExploringSimulator.truthful C Rat) K).state?_after hok
    have hstart : g.reset.1.simulator.height = 0 := ExploringSimulator.height_reset
    have hend : Simulator.isTrue T = T.graph.accepting.contains p.1 :=
      ExploringSimulator.isTrue_of_state? hq
    have hheight : T.height = T.current.eval p.1 false := ExploringSimulator.height_of_state? hq
    refine ⟨bs, b, hbs, ?_⟩
    rw [hsum, hstart, sub_zero]
    change (if b then if Simulator.isTrue T then _ else 0 else T.height) = _
    rw [hend, hheight]
    simp only [Std.ExtTreeSet.contains_iff_mem]

/-- Two steps to acceptance behind a gate that waits for a go, and is closed at the end: the goal
    earns the potential of the state half way, where it is frozen. -/
theorem gated_two_steps :
    let g : Goal (CompleteSimulator Rat) (StatelessGate ListedTest) := {
      simulator := .new Dfa.twoSteps.toAutomaton 3 .standard
      gate := { test := .guard (.atom "go"), allowFirst := false } }
    ∃ ps : List (Nat × Rat), Simulator.answers g.reset.1
        (Call.steps [(.ofList ["go"], false), (∅, true)]) = ps.map (fun p => .stepped (.ok p)) ∧
      (ps.map (·.2)).sum = 3 / 2 := by
  intro g
  obtain ⟨-, hcomplete, -⟩ := gated_goal_runs_on_open_ticks
  have hok : Simulator.answers g.reset.1 (Call.steps ([(.ofList ["go"], false)] ++ [(∅, true)])) =
      ([_] ++ [_]).map (fun p => .stepped (.ok p)) := rfl
  obtain ⟨bs, b, hbs, hsum⟩ := hcomplete Dfa.twoSteps.toAutomaton 3 g rfl rfl
    [(.ofList ["go"], false)] ∅ _ _ (by simp) hok
  -- the gate is closed at the last tick
  have hclosed : (Gate.answers Rat (Gate.reset Rat g.gate)
      (([(.ofList ["go"], false)] ++ [(∅, true)] : List (Fluents × Bool)).map (·.1))).getLast? =
        some (.ok false) := rfl
  rw [hbs] at hclosed
  obtain rfl : b = false := by simpa using hclosed
  refine ⟨_, hok, hsum.trans ?_⟩
  decide +kernel

end GoalAutomata
