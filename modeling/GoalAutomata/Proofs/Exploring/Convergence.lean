/-
  What is known converges to what is to be known.

  A simulator discovers the unfolding of a table.  An edge of its graph is an
  observed move, hence one of the table: a path to acceptance in the graph is one
  of configurations in the table, so the distances in the graph are never too small,
  and they fall while the graph grows.  If every label has been observed at every
  state, every edge of the table between known configurations is one of the graph,
  and the distances are those of the table.  Then no state is left to explore, and
  the bonuses do not matter.

  * `Uncovers.pathTo`, `Uncovers.pathTo_iff`: paths in both graphs;
  * `full_exploration_converges`: what this means for levels and potentials.
-/
import GoalAutomata.Proofs.Dfa.Moves
import GoalAutomata.Proofs.Exploring.Snapshot
import GoalAutomata.Proofs.Exploring.Table
import GoalAutomata.Proofs.KnownGraph.Paths
import GoalAutomata.Proofs.KnownGraph.Potential
import GoalAutomata.Proofs.Refinement

namespace GoalAutomata

/-- Every label in the alphabet has been observed at every known state. -/
def KnownGraph.Full {C : Type} (G : KnownGraph C) : Prop :=
  ∀ q < G.size, ∀ label, (∀ s ∈ label, s ∈ G.alphabet) → label ∈ G.row q

/-! ## Paths in the graph and in the table -/

variable {R : Type} {d : Dfa} {alphabet : Fluents} {reward : R} {config : Exploration R}
  {S : ExploringSimulator Nat R} {q c k n : Nat}

/-- `S` discovers the table `d`, and what its graph has observed are moves of the table. -/
structure Uncovers (d : Dfa) (alphabet : Fluents) (reward : R) (config : Exploration R)
    (S : ExploringSimulator Nat R) : Prop where
  discovers : Discovers d.toAutomaton alphabet reward config S
  observes : S.graph.Observes (d.toAutomaton.unfold alphabet)

namespace Uncovers

theorem size_le (h : Uncovers d alphabet reward config S) : S.graph.size ≤ S.graph.capacity :=
  h.discovers.explores.faithful.size_le

theorem mem_accepting_iff (h : Uncovers d alphabet reward config S)
    (hc : S.graph.configuration? q = some c) : q ∈ S.graph.accepting ↔ c ∈ d.accepting :=
  (h.discovers.mem_accepting_iff d.closed hc).trans (d.closed.accepting c)

/-- **A path in the graph is one of its configurations.** -/
theorem pathTo (h : Uncovers d alphabet reward config S)
    (hp : PathTo S.graph.toAutomaton.Edge (· ∈ S.graph.accepting) n q)
    (hc : S.graph.configuration? q = some c) :
    PathTo d.toAutomaton.Edge (· ∈ d.accepting) n c := by
  refine hp.simulate (B := fun q c => S.graph.configuration? q = some c) ?_ ?_ hc
  · intro q c hc hacc
    exact (h.mem_accepting_iff hc).1 hacc
  · intro q c r hc hE
    have hq : q < S.graph.size := (List.getElem?_eq_some_iff.1 hc).1
    rcases (KnownGraph.edge_iff h.size_le).1 hE with ⟨rfl, -⟩ | ⟨-, label, hlabel⟩
    · exact absurd hq (not_lt.2 h.size_le)
    · obtain ⟨c', b, hc', hb, -, hsucc⟩ := h.observes.observed q label r hlabel
      cases hc'.symm.trans hc
      refine ⟨b, hb, ?_⟩
      rcases Dfa.sink_or_edge_of_successor hsucc with rfl | hmove
      · exact Or.inr fun _ => Dfa.not_pathTo_sink
      · exact Or.inl hmove

/-- **Levels are never too low** where there is a path. -/
theorem level_le (h : Uncovers d alphabet reward config S)
    (hc : S.graph.configuration? q = some c) (hr : S.graph.toAutomaton.Reaches q) :
    (Levels.ofAutomaton d.toAutomaton).level c ≤
      (Levels.ofAutomaton S.graph.toAutomaton).level q :=
  Levels.level_le_of_pathTo (h.pathTo (Levels.distance_level hr).1 hc)

section Full

variable (h : Uncovers d alphabet reward config S) (hfull : S.graph.Full)
  (hsat : ∀ row ∈ d.table, ∀ e ∈ row, ∃ I, e.1.holds I = true)
  (hexcl : ∀ row ∈ d.table, row.Exclusive) (halph : ∀ s ∈ d.alphabet, s ∈ alphabet)
include h hfull hsat hexcl halph

/-- **Where everything has been observed, the graph has the paths of the table.** -/
theorem pathTo_iff (hc : S.graph.configuration? q = some c) :
    PathTo S.graph.toAutomaton.Edge (· ∈ S.graph.accepting) n q ↔
      PathTo d.toAutomaton.Edge (· ∈ d.accepting) n c := by
  refine ⟨fun hp => h.pathTo hp hc, fun hp => ?_⟩
  refine hp.simulate (B := fun c q => S.graph.configuration? q = some c) ?_ ?_ hc
  · intro c q hc hacc
    exact (h.mem_accepting_iff hc).2 hacc
  · intro c q b hc hE
    have hq : q < S.graph.size := (List.getElem?_eq_some_iff.1 hc).1
    obtain ⟨I, hI⟩ := Dfa.exists_successor_of_edge hsat hexcl hE
    have hsub : ∀ s ∈ I.restrict alphabet, s ∈ S.graph.alphabet := by
      rw [h.observes.alphabet]
      exact fun s hs => (Fluents.mem_restrict.1 hs).2
    obtain ⟨r, hr⟩ := KnownGraph.mem_row_iff.1 (hfull q hq _ hsub)
    obtain ⟨c', b', hc', hb', -, hsucc⟩ := h.observes.observed q _ r hr
    cases hc'.symm.trans hc
    -- the label stands for the interpretation, so it leads where that does
    have hsame : (d.toAutomaton.unfold alphabet).successor c (I.restrict alphabet) = .ok b :=
      (Dfa.local_unfold halph c I).trans hI
    cases hsucc.symm.trans hsame
    exact ⟨r, hb', Or.inl ((KnownGraph.edge_iff h.size_le).2 (Or.inr ⟨hq, _, hr⟩))⟩

theorem distance_iff (hc : S.graph.configuration? q = some c) :
    S.graph.toAutomaton.Distance q k ↔ d.toAutomaton.Distance c k := by
  have hpaths : {n | PathTo S.graph.toAutomaton.Edge (· ∈ S.graph.accepting) n q} =
      {n | PathTo d.toAutomaton.Edge (· ∈ d.accepting) n c} :=
    Set.ext fun n => h.pathTo_iff hfull hsat hexcl halph hc
  exact iff_of_eq (congrArg (IsLeast · k) hpaths)

theorem reaches_iff (hc : S.graph.configuration? q = some c) :
    S.graph.toAutomaton.Reaches q ↔ d.toAutomaton.Reaches c :=
  exists_congr fun _ => h.pathTo_iff hfull hsat hexcl halph hc

theorem level_eq (hc : S.graph.configuration? q = some c) (hr : d.toAutomaton.Reaches c) :
    (Levels.ofAutomaton S.graph.toAutomaton).level q =
      (Levels.ofAutomaton d.toAutomaton).level c :=
  Levels.level_of_distance ((h.distance_iff hfull hsat hexcl halph hc).2 (Levels.distance_level hr))

end Full

end Uncovers

/-! ## Runs -/

variable [Amount R]

theorem uncovers_after (halph : ∀ s ∈ d.alphabet, s ∈ alphabet) (reward : R)
    (config : Exploration R) (cs : List Call) :
    Uncovers d alphabet reward config (Simulator.after
      (ExploringSimulator.new (d.toAutomaton.unfold alphabet) reward config) cs) where
  discovers := (discovers_new d.closed alphabet reward config).after d.closed cs
  observes := ExploringSimulator.observes_after (Dfa.local_unfold halph) reward config cs

/-- **Where everything has been observed, levels give the same potentials** as in the table. -/
theorem Uncovers.get_ofLevels_eq (h : Uncovers d alphabet reward config S) (hfull : S.graph.Full)
    (hsat : ∀ row ∈ d.table, ∀ e ∈ row, ∃ I, e.1.holds I = true)
    (hexcl : ∀ row ∈ d.table, row.Exclusive) (halph : ∀ s ∈ d.alphabet, s ∈ alphabet)
    (hc : S.graph.configuration? q = some c) (hr : d.toAutomaton.Reaches c) :
    (Potential.ofLevels (.ofAutomaton S.graph.toAutomaton) 0 reward).get q =
      (Potential.ofLevels (.ofAutomaton d.toAutomaton) d.initial reward).get c := by
  have hq : q < S.graph.size := (List.getElem?_eq_some_iff.1 hc).1
  have hknown := (h.reaches_iff hfull hsat hexcl halph hc).2 hr
  -- the initial state has its level too, for a known path leads through it
  have hstart := h.discovers.explores.faithful.initial
  have hzero := h.observes.reaches_zero h.size_le hq hknown
  have hinitial := (h.reaches_iff hfull hsat hexcl halph hstart).1 hzero
  calc (Potential.ofLevels (.ofAutomaton S.graph.toAutomaton) 0 reward).get q
      = Potential.atLevel ((Levels.ofAutomaton S.graph.toAutomaton).level 0)
          ((Levels.ofAutomaton S.graph.toAutomaton).level q) reward :=
        Potential.get_ofLevels (Or.inr hknown) 0 reward
    _ = Potential.atLevel ((Levels.ofAutomaton d.toAutomaton).level d.initial)
          ((Levels.ofAutomaton d.toAutomaton).level c) reward := by
        rw [h.level_eq hfull hsat hexcl halph hc hr,
          h.level_eq hfull hsat hexcl halph hstart hinitial]
        rfl
    _ = (Potential.ofLevels (.ofAutomaton d.toAutomaton) d.initial reward).get c :=
        (Potential.get_ofLevels (Or.inr hr) d.initial reward).symm

/-- **Full exploration converges to complete knowledge.**  Let every guard of the table `d` hold
    somewhere, and no two of a state together, and let the alphabet have all its fluents.  Make any
    calls, failed ones included, to a simulator that discovers the table.  The level of a known
    state with a known path to acceptance is at least that of its configuration in the table, and
    further calls leave it a path and never raise its level.  If every label in the alphabet has
    been observed at every known state, then the current potential of a known state is that of its
    configuration in the table, and zero for a failure, whatever the amounts, the bonuses and the
    order in which it has been explored. -/
theorem full_exploration_converges (d : Dfa) (alphabet : Fluents)
    (hsat : ∀ row ∈ d.table, ∀ e ∈ row, ∃ I, e.1.holds I = true)
    (hexcl : ∀ row ∈ d.table, row.Exclusive) (halph : ∀ s ∈ d.alphabet, s ∈ alphabet)
    (reward : R) (config : Exploration R) (cs : List Call) :
    let M := PricedAutomaton.new d.toAutomaton reward
    let S := Simulator.after
      (ExploringSimulator.new (d.toAutomaton.unfold alphabet) reward config) cs
    (∀ q c, S.graph.configuration? q = some c → S.graph.toAutomaton.Reaches q →
      (Levels.ofAutomaton d.toAutomaton).level c ≤
        (Levels.ofAutomaton S.graph.toAutomaton).level q ∧
      ∀ ds, let T := Simulator.after S ds
        T.graph.toAutomaton.Reaches q ∧ (Levels.ofAutomaton T.graph.toAutomaton).level q ≤
          (Levels.ofAutomaton S.graph.toAutomaton).level q) ∧
    ((∀ q < S.graph.size, ∀ label, (∀ s ∈ label, s ∈ alphabet) → label ∈ S.graph.row q) →
      ∀ q c, S.graph.configuration? q = some c →
        S.current.eval q false = if M.isFailure c then 0 else M.potential.eval c false) := by
  intro M S
  have hS : Uncovers d alphabet reward config S := uncovers_after halph reward config cs
  refine ⟨fun q c hc hr => ⟨hS.level_le hc hr, fun ds => ?_⟩, fun hrecorded q c hc => ?_⟩
  · have hT := hS.discovers.after d.closed ds
    exact (S.extends_after ds).level_le hS.size_le hT.explores.faithful.size_le hr
  · have hfull : S.graph.Full := by
      unfold KnownGraph.Full
      rwa [hS.observes.alphabet]
    have hfresh : S.current = S.graph.potentials S.bonuses S.reward :=
      ExploringSimulator.isFresh_after _ reward config cs
    have hfail : q ∈ S.graph.failures ↔ M.isFailure c = true := hS.discovers.mem_failures_iff hc
    change S.current.get q = if M.isFailure c then 0 else M.potential.get c
    rw [hfresh, hS.discovers.explores.reward]
    split_ifs with hlost
    · exact KnownGraph.get_potentials_of_mem_failures _ _ (hfail.2 hlost)
    · have hr : d.toAutomaton.Reaches c := not_not.1 (mt Levels.isFailure_iff.2 hlost)
      have hq : q < S.graph.size := (List.getElem?_eq_some_iff.1 hc).1
      have hknown := (hS.reaches_iff hfull hsat hexcl halph hc).2 hr
      exact (KnownGraph.get_potentials_of_reaches _ _ hq (mt hfail.1 hlost) hknown).trans
        (hS.get_ofLevels_eq hfull hsat hexcl halph hc hr)

/-- Four steps observe all that there is, and leave the second state half of the reward. -/
theorem converged_two_steps :
    let S := Simulator.after (ExploringSimulator.new (Dfa.twoSteps.toAutomaton.unfold ∅) (3 : Rat)
      .standard) (.reset :: List.replicate 4 (.step ∅ false))
    S.graph.configurations = [0, 1, 2, 3] ∧ S.current.eval 1 false = 3 / 2 ∧
      S.current.eval 3 false = 0 := by
  intro S
  have hsat : ∀ row ∈ Dfa.twoSteps.table, ∀ e ∈ row, ∃ I, e.1.holds I = true := by
    simp [Dfa.twoSteps]
  have hexcl : ∀ row ∈ Dfa.twoSteps.table, row.Exclusive := by
    simp [Dfa.twoSteps, Row.Exclusive]
  have halph : ∀ s ∈ Dfa.twoSteps.alphabet, s ∈ (∅ : Fluents) := by
    simp [Dfa.mem_alphabet, Row.mem_atoms, Dfa.twoSteps, Guard.names]
  have hconf : S.graph.configurations = [0, 1, 2, 3] := by decide +kernel
  have hrecorded : ∀ q < S.graph.size, ∀ label, (∀ s ∈ label, s ∈ (∅ : Fluents)) →
      label ∈ S.graph.row q := by
    have hempty : ∀ q < S.graph.size, ∅ ∈ S.graph.row q := by decide +kernel
    intro q hq label hlabel
    have hnone : label = ∅ := Std.ExtTreeSet.ext_mem fun s => ⟨hlabel s, by simp⟩
    rw [hnone]
    exact hempty q hq
  have h := (full_exploration_converges Dfa.twoSteps ∅ hsat hexcl halph (3 : Rat) .standard
    (.reset :: List.replicate 4 (.step ∅ false))).2 hrecorded
  refine ⟨hconf, (h 1 1 ?_).trans ?_, (h 3 3 ?_).trans ?_⟩
  · decide +kernel
  · decide +kernel
  · decide +kernel
  · decide +kernel

end GoalAutomata
