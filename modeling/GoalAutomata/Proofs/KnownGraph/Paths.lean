/-
  Paths through a known graph.

  The edges of a known graph are its observed transitions, none of which is guarded
  by `false`, and the loop of its sink.  While the graph grows its paths stay, so the
  distances to acceptance can only fall.  Observed transitions lead from the initial
  state to every other, so acceptance can be reached from it if it can be from any.

  * `KnownGraph.edge_iff`: the edges of a known graph;
  * `KnownGraph.Extends.level_le`: levels in a graph that has grown.
-/
import GoalAutomata.Proofs.KnownGraph.Observed
import GoalAutomata.Proofs.Levels

namespace GoalAutomata

theorem Guard.minterm_ne_ff (I A : Fluents) : minterm I A ≠ .ff := by
  intro hff
  have hholds : (minterm I A).holds I = true := by simp [holds_minterm]
  rw [hff] at hholds
  cases hholds

namespace KnownGraph

variable {C : Type} {G H : KnownGraph C} {q r n : Nat}

theorem transitionsFrom_eq_ok_iff {ts : List Transition} (hsize : G.size ≤ G.capacity) :
    G.transitionsFrom q = .ok ts ↔ q = G.capacity ∧ ts = [⟨q, .tt, q⟩] ∨
      q < G.size ∧ ts = (G.row q).toList.map fun e => ⟨q, .minterm e.1 G.alphabet, e.2⟩ := by
  unfold transitionsFrom
  split_ifs with hcap hnew
  · subst hcap
    have hno : ¬ G.capacity < G.size := not_lt.2 hsize
    simp [hno, eq_comm]
  · have hno : ¬ q < G.size := not_lt.2 hnew
    simp [hcap, hno]
  · have hlt : q < G.size := not_le.1 hnew
    simp [hcap, hlt, eq_comm]

/-- The edges of a known graph are the observed transitions, and the loop of its sink. -/
theorem edge_iff (hsize : G.size ≤ G.capacity) : G.toAutomaton.Edge q r ↔
    q = G.capacity ∧ r = G.capacity ∨ q < G.size ∧ G.Linked q r := by
  have hmem : ∀ label, G.Observed q label r ↔ (label, r) ∈ (G.row q).toList := fun label =>
    Std.ExtTreeMap.mem_toList_iff_getElem?_eq_some.symm
  rw [Automaton.edge_iff fun p ts hts t ht => ?_]
  · constructor
    · rintro ⟨-, ts, hts, t, ht, rfl, -⟩
      rcases (transitionsFrom_eq_ok_iff hsize).1 hts with ⟨hq, rfl⟩ | ⟨hq, rfl⟩
      · rw [List.mem_singleton.1 ht]
        exact Or.inl ⟨hq, hq⟩
      · obtain ⟨e, he, rfl⟩ := List.mem_map.1 ht
        exact Or.inr ⟨hq, e.1, Std.ExtTreeMap.mem_toList_iff_getElem?_eq_some.1 he⟩
    · rintro (⟨hq, hr⟩ | ⟨hq, label, hlabel⟩)
      · exact ⟨Or.inr hq, _, (transitionsFrom_eq_ok_iff hsize).2 (Or.inl ⟨hq, rfl⟩), _,
          List.mem_singleton_self _, hq.trans hr.symm, by simp⟩
      · exact ⟨Or.inl (States.mem_below.2 hq), _,
          (transitionsFrom_eq_ok_iff hsize).2 (Or.inr ⟨hq, rfl⟩), _,
          List.mem_map_of_mem ((hmem label).1 hlabel), rfl, Guard.minterm_ne_ff _ _⟩
  · rcases (transitionsFrom_eq_ok_iff hsize).1 hts with ⟨-, rfl⟩ | ⟨-, rfl⟩
    · rw [List.mem_singleton.1 ht]
    · obtain ⟨e, -, rfl⟩ := List.mem_map.1 ht
      rfl

theorem Extends.linked (h : H.Extends G) (hl : G.Linked q r) : H.Linked q r := by
  obtain ⟨label, hlabel⟩ := hl
  exact ⟨label, h.observed q label r hlabel⟩

/-- **Paths stay while the graph grows.** -/
theorem Extends.pathTo (h : H.Extends G) (hG : G.size ≤ G.capacity) (hH : H.size ≤ H.capacity)
    (hp : PathTo G.toAutomaton.Edge (· ∈ G.accepting) n q) :
    PathTo H.toAutomaton.Edge (· ∈ H.accepting) n q := by
  have hsize : G.size ≤ H.size := h.configurations.length_le
  refine hp.simulate (B := Eq) ?_ ?_ rfl
  · rintro q _ rfl hacc
    exact h.accepting q hacc
  · rintro q _ r rfl hE
    refine ⟨r, rfl, Or.inl ((edge_iff hH).2 ?_)⟩
    rcases (edge_iff hG).1 hE with ⟨hq, hr⟩ | ⟨hq, hl⟩
    · rw [h.capacity]
      exact Or.inl ⟨hq, hr⟩
    · exact Or.inr ⟨hq.trans_le hsize, h.linked hl⟩

/-- **Levels of states with a known path never increase while the graph grows.** -/
theorem Extends.level_le (h : H.Extends G) (hG : G.size ≤ G.capacity) (hH : H.size ≤ H.capacity)
    (hr : G.toAutomaton.Reaches q) : H.toAutomaton.Reaches q ∧
      (Levels.ofAutomaton H.toAutomaton).level q ≤ (Levels.ofAutomaton G.toAutomaton).level q := by
  have hpath := h.pathTo hG hH (Levels.distance_level hr).1
  exact ⟨⟨_, hpath⟩, Levels.level_le_of_pathTo hpath⟩

/-- Acceptance can be reached from the initial state if it can be from any known one. -/
theorem Observes.reaches_zero {O : Unfolding C} (h : G.Observes O) (hsize : G.size ≤ G.capacity)
    (hq : q < G.size) (hr : G.toAutomaton.Reaches q) : G.toAutomaton.Reaches 0 := by
  refine Relation.ReflTransGen.head_induction_on (motive := fun p _ => G.toAutomaton.Reaches p)
    (h.reachable q hq) hr ?_
  rintro p t ⟨label, hlabel⟩ - ⟨n, hn⟩
  obtain ⟨c, -, hc, -⟩ := h.observed p label t hlabel
  have hp : p < G.size := (List.getElem?_eq_some_iff.1 hc).1
  exact ⟨n + 1, .edge ((edge_iff hsize).2 (Or.inr ⟨hp, label, hlabel⟩)) hn⟩

end KnownGraph

end GoalAutomata
