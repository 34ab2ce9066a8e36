/-
  Returns of an environment with goals.

  Every goal is shaped by a potential of its own, and the goals together by the sum of
  these.  A step of the monitored environment pays what the environment pays and what
  that sum gains (`Monitored.step_shaped`), so in an episode only its two ends are left:
  what the goals earn at the end, and the potentials with which the reset left them.
  The gain of an observed reset is dropped, so these need not be zero.

  * `Goal.Shaped.tick`: what one tick of one goal pays;
  * `Monitored.steps_shaped`: what the steps up to the first end of an episode pay;
  * `monitored_episode_return`: what a whole episode pays.
-/
import Mathlib.Algebra.Order.Field.Rat
import Mathlib.Tactic.Ring
import GoalAutomata.Environment.Chain
import GoalAutomata.Proofs.Goal.Returns
import GoalAutomata.Proofs.Mixed
import GoalAutomata.Proofs.Monitored

namespace GoalAutomata

variable {E K X O T A ι : Type} {C : ι → Type} [∀ i, DecidableEq (C i)]

/-! ## One goal -/

namespace Goal

variable {g : Goal (MixedSimulator C) K} {I : Fluents} {last : Bool} {p : Nat × Rat}

/-- What acceptance pays. -/
def reward (g : Goal (MixedSimulator C) K) : Rat := Simulator.reward g.simulator

/-- The potential of the current state, as it is now. -/
def height (g : Goal (MixedSimulator C) K) : Rat := g.simulator.height

/-- What a goal earns by the state in which an episode ends. -/
def payoff (g : Goal (MixedSimulator C) K) : Rat := if g.isTrue then g.reward else 0

/-- What a tick leads to: the payoff if it is the last one, and the potential otherwise. -/
def worth (last : Bool) (g : Goal (MixedSimulator C) K) : Rat := if last then g.payoff else g.height

@[simp] theorem worth_true : worth (C := C) (K := K) true = payoff := rfl

@[simp] theorem worth_false : worth (C := C) (K := K) false = height := rfl

variable [Gate K Rat]

/-- Always open, and paid by potential without discount. -/
structure Shaped (g : Goal (MixedSimulator C) K) : Prop where
  simulator : g.simulator.Shaped g.reward
  gate : Gate.AlwaysOpen Rat g.gate

theorem Shaped.reset (h : g.Shaped) : g.reset.1.Shaped ∧ g.reset.1.reward = g.reward := by
  have hreward : g.reset.1.reward = g.reward := h.simulator.reset.reward
  refine ⟨⟨?_, h.gate.reset⟩, hreward⟩
  rw [hreward]
  exact h.simulator.reset

/-- **A tick pays the gain.** -/
theorem Shaped.tick (h : g.Shaped) (hp : (g.step I last).result = .ok p) :
    (g.step I last).state.Shaped ∧ (g.step I last).state.reward = g.reward ∧
      p.2 = (g.step I last).state.worth last - g.height := by
  obtain ⟨hkept, hpay⟩ := (MixedSimulator.paysGains C g.reward).tick_ok h.simulator hp
  have hreward : (g.step I last).state.reward = g.reward := hkept.reward
  obtain ⟨_, -, hgate⟩ := exists_gate_of_ok hp
  refine ⟨⟨?_, ?_⟩, hreward, ?_⟩
  · rw [hreward]
    exact hkept
  · rw [hgate]
    exact h.gate.step I
  · rcases hpay with ⟨hclosed, -⟩ | ⟨-, hpay⟩
    · cases (h.gate.result_step I).symm.trans hclosed
    · rw [hpay, worth, payoff, hreward]
      rfl

theorem Shaped.observed (h : g.Shaped) (hp : (g.reset.1.step I last).result = .ok p) :
    (g.reset.1.step I last).state.Shaped ∧ (g.reset.1.step I last).state.reward = g.reward := by
  obtain ⟨hkept, hreward, -⟩ := h.reset.1.tick hp
  exact ⟨hkept, hreward.trans h.reset.2⟩

end Goal

/-! ## All goals -/

section Goals

variable [Gate K Rat] {gs : List (Goal (MixedSimulator C) K)} {last : Bool} {read : List Fluents}
  {ps : List (Nat × Rat)}

theorem shaped_alone {f : Nat → List Call}
    (h : ∀ (i : Nat) (g : Goal (MixedSimulator C) K), gs[i]? = some g →
      (Simulator.after g (f i)).Shaped ∧ (Simulator.after g (f i)).reward = g.reward) :
    (∀ g ∈ alone gs f, g.Shaped) ∧ (alone gs f).map Goal.reward = gs.map Goal.reward := by
  constructor
  · intro g hg
    obtain ⟨i, hi, rfl⟩ := List.mem_mapIdx.1 hg
    exact (h i gs[i] (List.getElem?_eq_getElem hi)).1
  · refine List.ext_getElem (by simp) fun i hi _ => ?_
    rw [List.length_map, length_alone] at hi
    simp only [alone, List.getElem_map, List.getElem_mapIdx]
    exact (h i gs[i] (List.getElem?_eq_getElem hi)).2

/-- A tick of every goal pays the gain in the sum of the potentials. -/
theorem shaped_alone_tickCalls (hgs : ∀ g ∈ gs, g.Shaped)
    (h : gs.mapIdx (fun i g => Simulator.answers g (tickCalls last read i)) =
      ps.map fun p => [.stepped (.ok p)]) :
    (∀ g ∈ alone gs (tickCalls last read), g.Shaped) ∧
      (alone gs (tickCalls last read)).map Goal.reward = gs.map Goal.reward ∧
      (ps.map (·.2)).sum =
        ((alone gs (tickCalls last read)).map (Goal.worth last)).sum -
          (gs.map Goal.height).sum := by
  induction gs generalizing read ps with
  | nil =>
    obtain rfl : ps = [] := List.map_eq_nil_iff.1 h.symm
    exact ⟨by simp [alone], rfl, (sub_self _).symm⟩
  | cons g gs ih =>
    obtain ⟨I, Is, p, qs, rfl, rfl, hp, hrest⟩ := exists_of_answered_cons h
    obtain ⟨hkept, hreward, hpay⟩ := (hgs g List.mem_cons_self).tick hp
    obtain ⟨hskept, hrewards, hpays⟩ := ih (fun g hg => hgs g (List.mem_cons_of_mem _ hg)) hrest
    have hticked : alone (g :: gs) (tickCalls last (I :: Is)) =
        (g.step I last).state :: alone gs (tickCalls last Is) := alone_cons
    rw [hticked]
    refine ⟨List.forall_mem_cons.2 ⟨hkept, hskept⟩, congrArg₂ List.cons hreward hrewards, ?_⟩
    simp only [List.map_cons, List.sum_cons, hpay, hpays]
    exact sub_add_sub_comm _ _ _ _

end Goals

/-! ## The environment -/

namespace Monitored

variable [Gate K Rat] [Sensor X O A] [Environment E O A Rat]
  {m m' : Monitored E (MixedSimulator C) K X O T}

/-- **After a reset** every goal is at the start, with potential zero, or where its reading leads
    from there. -/
theorem reset_shaped (hm : ∀ g ∈ m.goals, g.Shaped) {t : T}
    (h : (Environment.call m .reset).result = .ok (.started t)) :
    let n := (Environment.call m .reset).state
    (∀ g ∈ n.goals, g.Shaped) ∧ n.goals.map Goal.reward = m.goals.map Goal.reward ∧
      ∃ o, (Environment.call m.environment .reset).result = .ok (.started o) ∧
        n.environment = (Environment.call m.environment .reset).state ∧
        (m.observeReset = false → ∀ g ∈ n.goals, g.height = 0) ∧
        (m.observeReset = true → ∃ read x,
          Sensor.readings? o (none : Option A) m.goals.length m.sensor = some (read, x) ∧
          ∀ (i : Nat) (g : Goal (MixedSimulator C) K), m.goals[i]? = some g →
            ∃ I p, read[i]? = some I ∧ (g.reset.1.step I false).result = .ok p ∧
              n.goals[i]? = some (g.reset.1.step I false).state) := by
  obtain ⟨t', ht, heq⟩ := Outcome.exists_of_map_ok h
  cases heq
  obtain ⟨o, Is, y, ho, hread, hstate, -, hticked⟩ := reset_ok ht
  have hcall : (Environment.call m .reset).state = _ := hstate
  have henv : (Environment.call m.environment .reset).result = .ok (.started o) := by
    change Reply.started <$> (Environment.reset m.environment).result = _
    rw [ho]
    rfl
  rw [hcall]
  cases hobs : m.observeReset with
  | false =>
    rw [hobs] at hread
    cases hread
    obtain ⟨hkept, hrewards⟩ := shaped_alone (f := (Beat.reset (R := Rat) o []).calls)
      fun i g hg => (hm g (List.mem_of_getElem? hg)).reset
    refine ⟨hkept, hrewards, o, henv, rfl, fun _ g hg => ?_, nofun⟩
    obtain ⟨i, hi, rfl⟩ := List.mem_mapIdx.1 hg
    exact (hm _ (List.getElem_mem hi)).simulator.height_reset
  | true =>
    rw [hobs] at hread
    obtain ⟨hkept, hrewards⟩ := shaped_alone (f := (Beat.reset (R := Rat) o Is).calls) (by
      intro i g hg
      obtain ⟨I, p, hI, hp⟩ := hticked hobs i g hg
      rw [after_calls_reset hI]
      exact (hm g (List.mem_of_getElem? hg)).observed hp)
    refine ⟨hkept, hrewards, o, henv, rfl, nofun, fun _ => ⟨Is, y, hread, fun i g hg => ?_⟩⟩
    obtain ⟨I, p, hI, hp⟩ := hticked hobs i g hg
    refine ⟨I, p, hI, hp, ?_⟩
    simp only [alone, List.getElem?_mapIdx, hg, Option.map_some, after_calls_reset hI]

/-- **A step pays what the environment pays and what the potentials gain.** -/
theorem step_shaped (hm : ∀ g ∈ m.goals, g.Shaped) {a : A} {t : Step T Rat}
    (h : (Environment.call m (.step a)).result = .ok (.stepped t)) :
    let n := (Environment.call m (.step a)).state
    (∀ g ∈ n.goals, g.Shaped) ∧ n.goals.map Goal.reward = m.goals.map Goal.reward ∧
      ∃ s, (Environment.call m.environment (.step a)).result = .ok (.stepped s) ∧
        n.environment = (Environment.call m.environment (.step a)).state ∧
        t.reward = s.reward +
          ((n.goals.map (Goal.worth t.done)).sum - (m.goals.map Goal.height).sum) := by
  obtain ⟨t', ht, heq⟩ := Outcome.exists_of_map_ok h
  cases heq
  obtain ⟨s, Is, y, hs, -, hstate, ps, heq, hanswers⟩ := step_ok ht
  cases heq
  obtain ⟨hkept, hrewards, hpays⟩ := shaped_alone_tickCalls hm hanswers
  have hcall : (Environment.call m (.step a)).state = _ := hstate
  rw [hcall]
  refine ⟨hkept, hrewards, s, ?_, rfl, ?_⟩
  · change Reply.stepped <$> (Environment.step m.environment a).result = _
    rw [hs]
    rfl
  · change s.reward + Amount.sum (ps.map (·.2)) = _
    rw [Amount.sum_rat, hpays]
    rfl

/-- **Up to the first end of an episode the gains telescope.** -/
theorem steps_shaped (hm : ∀ g ∈ m.goals, g.Shaped) {acts : List A} {es : List (Step T Rat)}
    {e : Step T Rat}
    (h : Environment.run? m (acts.map .step) = some ((es ++ [e]).map .stepped, m'))
    (hes : ∀ s ∈ es, s.done = false) (he : e.done = true) :
    m'.goals.map Goal.reward = m.goals.map Goal.reward ∧
      ∃ bs : List (Step O Rat), Environment.run? m.environment (acts.map .step) =
          some (bs.map .stepped, m'.environment) ∧
        ((es ++ [e]).map (·.reward)).sum = (bs.map (·.reward)).sum +
          ((m'.goals.map Goal.payoff).sum - (m.goals.map Goal.height).sum) := by
  induction acts generalizing m es with
  | nil => simp [Environment.run?] at h
  | cons a acts ih =>
    obtain ⟨y, zs, hy, hrest, heq⟩ := Environment.exists_of_run?_cons h
    cases es with
    | nil =>
      obtain ⟨rfl, rfl⟩ := List.cons_eq_cons.1 heq
      obtain ⟨hacts, rfl⟩ := Environment.eq_of_run?_nil hrest
      obtain ⟨-, hrewards, s, hs, henv, hpay⟩ := step_shaped hm hy
      have hlast : Environment.run? (Environment.call m.environment (.step a)).state
          (acts.map Act.step) = some ([], (Environment.call m (.step a)).state.environment) := by
        rw [hacts, henv]
        rfl
      refine ⟨hrewards, [s], Environment.run?_cons_of_ok hs hlast, ?_⟩
      rw [he, Goal.worth_true] at hpay
      rw [List.nil_append, List.map_singleton, List.sum_singleton, List.map_singleton,
        List.sum_singleton]
      exact hpay
    | cons d es =>
      obtain ⟨rfl, rfl⟩ := List.cons_eq_cons.1 heq
      have hd : d.done = false := hes d List.mem_cons_self
      obtain ⟨hkept, hrewards, s, hs, henv, hpay⟩ := step_shaped hm hy
      obtain ⟨hrewards', bs, hbs, hsum⟩ := ih hkept hrest fun s hs =>
        hes s (List.mem_cons_of_mem _ hs)
      rw [henv] at hbs
      refine ⟨hrewards'.trans hrewards, s :: bs, Environment.run?_cons_of_ok hs hbs, ?_⟩
      rw [hd, Goal.worth_false] at hpay
      -- the potentials after this step are those from which the rest of the episode starts
      rw [List.cons_append, List.map_cons, List.sum_cons, hsum, hpay, List.map_cons,
        List.sum_cons]
      ring

end Monitored

/-- **The return of an episode.**  Let every goal be always open and paid by potential without
    discount, be its automaton known as a whole or discovered on the way, and let an episode go
    without failures from a reset to the first step that ends it.  It brings what the environment
    alone brings on the same actions, what every goal earns by its last state, less the potential
    of the state in which the reset left it.  That potential is zero if the reset is not observed.
    If it is, then the goal has made one step from its start, on its own reading of the first
    observation, and the potential is that of the state reached, as it is after this step. -/
theorem monitored_episode_return [Gate K Rat] [Sensor X O A] [Environment E O A Rat]
    (m m' : Monitored E (MixedSimulator C) K X O T) (hm : ∀ g ∈ m.goals, g.Shaped) (acts : List A)
    (t : T) (es : List (Step T Rat)) (e : Step T Rat)
    (hrun : Environment.run? m (.reset :: acts.map .step) =
      some (.started t :: (es ++ [e]).map .stepped, m'))
    (hes : ∀ s ∈ es, s.done = false) (he : e.done = true) :
    let n := (Environment.call m .reset).state
    ∃ (o : O) (bs : List (Step O Rat)),
      Environment.run? m.environment (.reset :: acts.map .step) =
        some (.started o :: bs.map .stepped, m'.environment) ∧
      ((es ++ [e]).map (·.reward)).sum = (bs.map (·.reward)).sum +
        ((m'.goals.map Goal.payoff).sum - (n.goals.map Goal.height).sum) ∧
      m'.goals.map Goal.reward = m.goals.map Goal.reward ∧
      (m.observeReset = false → ∀ g ∈ n.goals, g.height = 0) ∧
      (m.observeReset = true → ∃ read x,
        Sensor.readings? o (none : Option A) m.goals.length m.sensor = some (read, x) ∧
        ∀ (i : Nat) (g : Goal (MixedSimulator C) K), m.goals[i]? = some g →
          ∃ I q y g', read[i]? = some I ∧ (g.reset.1.step I false).result = .ok (q, y) ∧
            (g.reset.1.step I false).state = g' ∧ n.goals[i]? = some g' ∧
            g'.height = g'.simulator.potential.eval q false) := by
  intro n
  obtain ⟨y, zs, hreset, hsteps, heq⟩ := Environment.exists_of_run?_cons hrun
  obtain ⟨rfl, rfl⟩ := List.cons_eq_cons.1 heq
  obtain ⟨hn, hstart, o, ho, henv, hzero, hobserved⟩ := Monitored.reset_shaped hm hreset
  obtain ⟨hrewards, bs, hbs, hsum⟩ := Monitored.steps_shaped hn hsteps hes he
  rw [henv] at hbs
  refine ⟨o, bs, Environment.run?_cons_of_ok ho hbs, hsum, hrewards.trans hstart, hzero, ?_⟩
  intro hobs
  obtain ⟨read, x, hread, hticked⟩ := hobserved hobs
  refine ⟨read, x, hread, fun i g hg => ?_⟩
  obtain ⟨I, ⟨q, y⟩, hI, hp, hi⟩ := hticked i g hg
  have hq := Goal.truthful (MixedSimulator.truthful C) K g.reset.1 I false q y hp
  exact ⟨I, q, y, _, hI, hp, rfl, hi, MixedSimulator.height_of_state? hq⟩

/-- A walk over two cells beside a goal whose automaton is known and one that is discovered.  Their
    first steps, at the observed reset, are not paid. -/
theorem mixed_goals_over_a_walk :
    let C : Unit → Type := fun _ => Nat
    let m : Monitored (ChainEnvironment Rat) (MixedSimulator C) (StatelessGate ListedTest)
        CellSensor Nat (Nat × List Nat) := {
      environment := ⟨{ cells := 2, position := 0, position_lt := by decide }⟩
      goals := [
        { simulator := .inl (.new Dfa.twoSteps.toAutomaton 3 .standard), gate := .always },
        { simulator := .inr ⟨(), .new (.counting 2) 4 .standard⟩, gate := .always }]
      sensor := {}
      combine := Prod.mk
      observeReset := true }
    ∃ t e m', Environment.run? m [.reset, .step .right] = some ([.started t, .stepped e], m') ∧
      e.reward = 5 / 2 := by
  intro C m
  have h : Environment.run? m (.reset :: [ChainAction.right].map .step) =
      some (.started _ :: ([] ++ [_]).map .stepped, _) := rfl
  have hopen := StatelessGate.alwaysOpen_always Rat
  have hm : ∀ g ∈ m.goals, g.Shaped := List.forall_mem_cons.2
    ⟨⟨⟨_, rfl, rfl⟩, hopen⟩, List.forall_mem_singleton.2 ⟨⟨rfl, rfl⟩, hopen⟩⟩
  obtain ⟨o, bs, hbs, hsum, -⟩ := monitored_episode_return m _ hm _ _ _ _ h (by simp) rfl
  have halone : Environment.run? m.environment (.reset :: [ChainAction.right].map .step) =
      some ([.started 0, .stepped ⟨1, 1, true, ∅⟩], _) := rfl
  obtain ⟨hreplies, -⟩ := Prod.mk.inj (Option.some.inj (hbs.symm.trans halone))
  obtain ⟨b, rfl, hb⟩ := List.map_eq_singleton_iff.1 (List.cons_eq_cons.1 hreplies).2
  obtain rfl := Reply.stepped.inj hb
  rw [List.nil_append, List.map_singleton, List.sum_singleton] at hsum
  -- one of the chain and the rewards 3 and 4, less the potentials 3 / 2 and 4 after the reset
  refine ⟨_, _, _, h, hsum.trans ?_⟩
  decide +kernel

end GoalAutomata
