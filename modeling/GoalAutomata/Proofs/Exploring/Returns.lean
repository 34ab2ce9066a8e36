/-
  Returns of an unfolding while it is discovered.

  The potentials change in the midst of an episode, but every step prices its
  source by the snapshot that priced it as a destination.  A simulator that is paid
  by potential therefore pays gains in the potential that its state has now
  (`ExploringSimulator.height`), and the potential of the initial state is zero
  after every reset.

  * `discounted_exploring_episode`: the discounted sum of an episode.
-/
import Mathlib.Algebra.Order.Field.Rat
import Mathlib.Tactic.NormNum
import GoalAutomata.Proofs.Exploring
import GoalAutomata.Proofs.KnownGraph.Potential

namespace GoalAutomata

namespace ExploringSimulator

variable {C : Type} {S : ExploringSimulator C Rat} {O : Unfolding C} {reward g : Rat}
  {config : Exploration Rat}

/-- The potential of the current state, as it is now. -/
def height (S : ExploringSimulator C Rat) : Rat :=
  (S.position?.map fun p => S.current.eval p.1 false).getD 0

theorem height_of_state? {q : Nat} (hq : S.position?.map (·.1) = some q) :
    S.height = S.current.eval q false := by
  obtain ⟨p, hp, rfl⟩ := Option.map_eq_some_iff.1 hq
  rw [height, hp, Option.map_some, Option.getD_some]

theorem pay_potential (h : S.config.shaping = ⟨.potential, g⟩) (q r : Nat) (last : Bool) :
    S.pay q r last = g * (if last then 0 else S.current.eval r false) - S.prior.eval q false +
      (if last then if r ∈ S.graph.accepting then S.reward else 0 else 0) := by
  simp only [pay, h]
  cases last <;> rfl

variable [DecidableEq C]

theorem isTrue_eq : Simulator.isTrue S = S.position?.any fun p => S.graph.accepting.contains p.1 :=
  rfl

theorem isTrue_of_state? {q : Nat} (hq : S.position?.map (·.1) = some q) :
    Simulator.isTrue S = S.graph.accepting.contains q := by
  obtain ⟨p, hp, rfl⟩ := Option.map_eq_some_iff.1 hq
  rw [isTrue_eq, hp, Option.any_some]

theorem height_reset : (Simulator.reset S).1.height = 0 := KnownGraph.eval_initial S.graph _ S.reward

/-- **A step leaves its source with the potential with which it was entered.** -/
theorem prior_step {I : Fluents} {last : Bool} {p : Nat × Rat}
    (h : (S.step I last).result = .ok p) : (S.step I last).state.prior = S.current := by
  obtain ⟨_, _, b, G, d, -, -, -, -, -, hs⟩ := exists_of_ok h
  rw [hs, prior_advance]

/-- Paid by potential, with the discount `g`, for the given reward. -/
def Earns (reward g : Rat) (S : ExploringSimulator C Rat) : Prop :=
  S.reward = reward ∧ S.config.shaping = ⟨.potential, g⟩

theorem Earns.step (h : S.Earns reward g) (I : Fluents) (last : Bool) :
    (S.step I last).state.Earns reward g := by
  rcases state_cases S I last with hs | ⟨_, _, _, _, _, -, -, -, hs⟩
  · rwa [hs]
  · rw [hs]
    exact h

/-- **Gains are paid whatever has been seen**, for they only concern the two snapshots. -/
theorem Earns.paysGains (reward g : Rat) :
    PaysGains (Earns (C := C) reward g) height g reward where
  refused _ _ _ _ h := state_of_error h
  kept _ I last _ h _ := h.step I last
  paid S I last q x := by
    rintro ⟨hreward, hshaping⟩ hx
    obtain ⟨p, c, b, G, d, hp, -, -, rfl, rfl, hs⟩ := exists_of_ok hx
    have hkept : (S.advance b G d).config.shaping = ⟨.potential, g⟩ := hshaping
    have hstate : (Simulator.step S I last).state = S.advance b G d := hs
    rw [pay_potential hkept, hstate, isTrue_eq]
    simp [height, hp, hreward]

theorem paysGains (hmode : config.shaping = ⟨.potential, g⟩) :
    PaysGains (Explores O reward config) height g reward where
  refused _ _ _ _ h := state_of_error h
  kept _ I last _ h _ := h.step I last
  paid S I last q x h :=
    (Earns.paysGains reward g).paid S I last q x ⟨h.reward, by rw [h.config, hmode]⟩

/-- A stage of an episode is at the state that it answers. -/
theorem position?_stage (S : ExploringSimulator C Rat) (w : List (Fluents × Bool)) :
    ∀ e ∈ Simulator.stages S w, ∃ c, e.simulator.position? = some (e.state, c) := by
  refine Simulator.forall_mem_stages (G := fun _ => True) (fun _ _ _ _ => trivial) ?_ trivial w
  intro S I last q x _ hx
  obtain ⟨_, _, b, G, d, -, -, -, rfl, -, hs⟩ := exists_of_ok hx
  exact ⟨b, (congrArg position? hs).trans position?_advance⟩

end ExploringSimulator

/-- **The rewards telescope while the graph grows.**  Every reset gives the initial state the
    potential zero.  In an episode that follows, whatever it discovers, every step leaves its source
    with the potentials that were current when it was entered.  The discounted sum of its rewards
    is the discounted bonus if it ends in an accepting state, zero if it ends in another one, and
    the discounted potential that its last state has now if it is broken off. -/
theorem discounted_exploring_episode {C : Type} [DecidableEq C] (O : Unfolding C) (reward : Rat)
    (config : Exploration Rat) (hmode : config.shaping.mode = .potential) (history : List Call)
    (S : ExploringSimulator C Rat)
    (hS : Simulator.after (ExploringSimulator.new O reward config) (history ++ [.reset]) = S) :
    (Simulator.state? S = some 0 ∧ S.prior.eval 0 false = 0 ∧ S.current.eval 0 false = 0) ∧
    ∀ (w : List (Fluents × Bool)) (es : List (Stage (ExploringSimulator C Rat) Rat))
      (e : Stage (ExploringSimulator C Rat) Rat),
      Simulator.stages S w = es ++ [e] → (∀ d ∈ es, d.last = false) →
      (S :: (es ++ [e]).map (·.simulator)).IsChain (fun s t => t.prior = s.current) ∧
      discounted config.shaping.discount ((es ++ [e]).map (·.reward)) =
        if e.last then
          if e.state ∈ e.simulator.graph.accepting then
            config.shaping.discount ^ es.length * reward
          else 0
        else config.shaping.discount ^ (es.length + 1) * e.simulator.current.eval e.state false := by
  have hshaping : config.shaping = ⟨.potential, config.shaping.discount⟩ := by
    rw [← hmode]
  have hstart := ExploringSimulator.explores_after O reward config (history ++ [.reset])
  rw [hS] at hstart
  rw [Simulator.after_concat_reset] at hS
  subst hS
  refine ⟨⟨rfl, KnownGraph.eval_initial _ _ _, KnownGraph.eval_initial _ _ _⟩, ?_⟩
  intro w es e hw hes
  constructor
  · rw [← hw]
    exact Simulator.isChain_stages (fun _ _ _ _ h => ExploringSimulator.state_of_error h)
      (fun _ _ _ _ h => ExploringSimulator.prior_step h) _ w
  · have hsum := (ExploringSimulator.paysGains hshaping).discounted_stages hstart hw hes
    obtain ⟨c, hc⟩ := ExploringSimulator.position?_stage _ w e (by rw [hw]; simp)
    rw [hsum, ExploringSimulator.height_reset, sub_zero, Stage.outcome,
      ExploringSimulator.isTrue_eq, ExploringSimulator.height, hc]
    simp

/-- Counts up from zero, and accepts the number `n`. -/
def Unfolding.counting (n : Nat) : Unfolding Nat where
  alphabet := ∅
  initial := 0
  successor c _ := .ok (c + 1)
  isAccepting c := c = n
  isFailed _ := false

theorem discounted_counting_episode :
    discounted (1 / 2) ((Simulator.stages (Simulator.after
      (ExploringSimulator.new (.counting 2) (3 : Rat)
        { Exploration.standard with shaping := ⟨.potential, 1 / 2⟩ }) [.reset])
      [(∅, false), (∅, true)]).map (·.reward)) = 3 / 2 := by
  have h := (discounted_exploring_episode (.counting 2) 3
    { Exploration.standard with shaping := ⟨.potential, 1 / 2⟩ } rfl [] _ rfl).2
    [(∅, false), (∅, true)] [_] _ rfl (by simp)
  refine h.2.trans ?_
  rw [if_pos rfl, if_pos]
  · norm_num
  · decide

end GoalAutomata
