/-
  What the levels of an automaton say about its graph.

  The graph has an edge for every transition that can be listed, at a state or at
  the sink, and whose guard is not the constant `false`.  The automaton is
  arbitrary: its sink may be accepting, its accepting states need not be states,
  and some states may refuse to list their transitions.

  * `Levels.level_lt_top_iff`, `Levels.distance_level`: a level below the top is
    the length of a shortest path to acceptance;
  * `Levels.mem_failures_iff`: the failures are the states without a path;
  * `Levels.exists_stops`: the search that finds them comes to an end;
  * `backward_distances`: all of it together.
-/
import GoalAutomata.Proofs.Distances

namespace GoalAutomata

/-! ## The graph of an automaton -/

namespace Automaton

variable (A : Automaton)

/-- An edge: some listed transition with these ends may be enabled.  A transition counts from its
    own source; where states list only transitions of their own, it is the state at which it is
    listed (`edge_iff`). -/
def Edge (q r : Nat) : Prop :=
  ∃ p, (p ∈ A.states ∨ p = A.sink) ∧ ∃ ts, A.transitionsFrom p = .ok ts ∧
    ∃ t ∈ ts, t.source = q ∧ t.destination = r ∧ t.guard ≠ .ff

/-- Acceptance can be reached from the state `q`. -/
def Reaches (q : Nat) : Prop := ∃ n, PathTo A.Edge (· ∈ A.accepting) n q

/-- A shortest path from the state `q` to acceptance has `k` edges. -/
def Distance (q k : Nat) : Prop := IsDistance A.Edge (· ∈ A.accepting) q k

variable {A} {q r k : Nat}

theorem mem_allStates : q ∈ A.allStates ↔ q ∈ A.states ∨ q = A.sink := by
  rw [allStates, States.mem_insert]

theorem mem_edges : (q, r) ∈ A.edges ↔ A.Edge q r := by
  simp only [edges, List.mem_flatMap, Std.ExtTreeSet.mem_toList, mem_allStates]
  refine exists_congr fun p => and_congr_right fun _ => ?_
  cases A.transitionsFrom p with
  | error e => simp
  | ok ts =>
    simp only [List.mem_map, List.mem_filter, decide_eq_true_eq, Prod.mk.injEq, Except.ok.injEq,
      exists_eq_left']
    exact exists_congr fun t => by tauto

/-- Where states list only transitions of their own, an edge is a transition listed at its start. -/
theorem edge_iff (h : ∀ p ts, A.transitionsFrom p = .ok ts → ∀ t ∈ ts, t.source = p) :
    A.Edge q r ↔ (q ∈ A.states ∨ q = A.sink) ∧ ∃ ts, A.transitionsFrom q = .ok ts ∧
      ∃ t ∈ ts, t.destination = r ∧ t.guard ≠ .ff := by
  constructor
  · rintro ⟨p, hp, ts, hts, t, ht, rfl, hr, hg⟩
    obtain rfl := h p ts hts t ht
    exact ⟨hp, ts, hts, t, ht, hr, hg⟩
  · rintro ⟨hq, ts, hts, t, ht, hr, hg⟩
    exact ⟨q, hq, ts, hts, t, ht, h q ts hts t ht, hr, hg⟩

theorem reaches_iff : A.Reaches q ↔ ∃ k, A.Distance q k := by
  constructor
  · rintro ⟨n, hn⟩
    obtain ⟨k, -, hk⟩ := hn.exists_isDistance
    exact ⟨k, hk⟩
  · rintro ⟨k, hk⟩
    exact ⟨k, hk.1⟩

theorem reaches_of_mem_accepting (h : q ∈ A.accepting) : A.Reaches q := ⟨0, .target h⟩

theorem getElem?_found_levelSearch : A.levelSearch.found[q]? = some k ↔ A.Distance q k := by
  have hE : (fun p r => (p, r) ∈ A.edges) = A.Edge := funext₂ fun _ _ => propext mem_edges
  rw [levelSearch, Search.getElem?_found_search, hE, Distance]

theorem mem_found_levelSearch : q ∈ A.levelSearch.found ↔ A.Reaches q := by
  rw [Std.ExtTreeMap.mem_iff_isSome_getElem?, Option.isSome_iff_exists, reaches_iff]
  exact exists_congr fun k => getElem?_found_levelSearch

end Automaton

/-! ## The levels of an automaton -/

attribute [ext] Levels

namespace Levels

variable {A : Automaton} {q k : Nat}

/-- **The failures are the states, and maybe the sink, without a path to acceptance.** -/
theorem mem_failures_iff :
    q ∈ (ofAutomaton A).failures ↔ (q ∈ A.states ∨ q = A.sink) ∧ ¬ A.Reaches q := by
  rw [← Automaton.mem_allStates, ← Automaton.mem_found_levelSearch]
  simp only [ofAutomaton, Std.ExtTreeSet.mem_filter, Std.ExtTreeSet.get_eq, exists_prop,
    Bool.not_eq_true', ← Bool.not_eq_true, Std.ExtTreeMap.contains_iff_mem]

theorem lt_top_of_distance (h : A.Distance q k) : k < (ofAutomaton A).top :=
  Search.lt_top_search (Automaton.getElem?_found_levelSearch.2 h)

/-- The top is zero or one past some distance. -/
theorem top_cases (A : Automaton) : (ofAutomaton A).top = 0 ∨
    ∃ q k, A.Distance q k ∧ (ofAutomaton A).top = k + 1 := by
  refine (Search.top_search_cases A.edges A.accepting).imp_right ?_
  rintro ⟨q, k, hk, htop⟩
  exact ⟨q, k, Automaton.getElem?_found_levelSearch.1 hk, htop⟩

/-- What the search found is kept, and the failures are added at the top. -/
theorem getElem?_known_eq_ite : (ofAutomaton A).known[q]? =
    if q ∈ (ofAutomaton A).failures.toList then some (ofAutomaton A).top
    else A.levelSearch.found[q]? :=
  StateMap.getElem?_foldl_insert (fun _ => (ofAutomaton A).top) _ _ q

/-- The known levels are the distances, and the top for the failures. -/
theorem getElem?_known : (ofAutomaton A).known[q]? = some k ↔
    A.Distance q k ∨ q ∈ (ofAutomaton A).failures ∧ k = (ofAutomaton A).top := by
  rw [getElem?_known_eq_ite]
  split_ifs with hq
  · have hq := Std.ExtTreeSet.mem_toList.1 hq
    have hno : ¬ A.Distance q k := fun h =>
      (mem_failures_iff.1 hq).2 (Automaton.reaches_iff.2 ⟨k, h⟩)
    simp [hq, hno, eq_comm]
  · have hq := mt Std.ExtTreeSet.mem_toList.2 hq
    simp [hq, Automaton.getElem?_found_levelSearch]

/-- A state without a level has no path to acceptance. -/
theorem getElem?_known_eq_none (h : (ofAutomaton A).known[q]? = none) : ¬ A.Reaches q := by
  intro hr
  obtain ⟨k, hk⟩ := Automaton.reaches_iff.1 hr
  simp [getElem?_known.2 (Or.inl hk)] at h

theorem isFailure_iff : (ofAutomaton A).isFailure q = true ↔ ¬ A.Reaches q := by
  simp only [isFailure, Bool.or_eq_true, Bool.not_eq_true', Std.ExtTreeSet.contains_iff_mem]
  constructor
  · rintro (hq | hq)
    · exact (mem_failures_iff.1 hq).2
    · exact getElem?_known_eq_none (Std.ExtTreeMap.getElem?_eq_none_of_contains_eq_false hq)
  · intro hr
    by_cases hq : q ∈ (ofAutomaton A).failures
    · exact Or.inl hq
    · refine Or.inr (Bool.eq_false_iff.2 fun hk => ?_)
      obtain ⟨k, hk⟩ := Option.isSome_iff_exists.1
        (Std.ExtTreeMap.mem_iff_isSome_getElem?.1 (Std.ExtTreeMap.contains_iff_mem.1 hk))
      rcases getElem?_known.1 hk with hd | ⟨hf, -⟩
      · exact hr (Automaton.reaches_iff.2 ⟨k, hd⟩)
      · exact hq hf

/-- At a state or the sink, to be a failure is to be listed as one. -/
theorem isFailure_eq_contains (h : q ∈ A.allStates) :
    (ofAutomaton A).isFailure q = (ofAutomaton A).failures.contains q := by
  rw [Bool.eq_iff_iff, isFailure_iff, Std.ExtTreeSet.contains_iff_mem, mem_failures_iff,
    ← Automaton.mem_allStates]
  exact (and_iff_right h).symm

theorem level_of_distance (h : A.Distance q k) : (ofAutomaton A).level q = k := by
  rw [level, getElem?_known.2 (Or.inl h), Option.getD_some]

theorem level_le_of_pathTo {n : Nat} (h : PathTo A.Edge (· ∈ A.accepting) n q) :
    (ofAutomaton A).level q ≤ n := by
  obtain ⟨k, hk, hd⟩ := h.exists_isDistance
  rwa [level_of_distance hd]

theorem level_of_not_reaches (h : ¬ A.Reaches q) :
    (ofAutomaton A).level q = (ofAutomaton A).top := by
  cases hq : (ofAutomaton A).known[q]? with
  | none => rw [level, hq, Option.getD_none]
  | some k =>
    rcases getElem?_known.1 hq with hd | ⟨-, rfl⟩
    · exact absurd (Automaton.reaches_iff.2 ⟨k, hd⟩) h
    · rw [level, hq, Option.getD_some]

/-- **A level is below the top exactly when there is a path.** -/
theorem level_lt_top_iff : (ofAutomaton A).level q < (ofAutomaton A).top ↔ A.Reaches q := by
  constructor
  · intro h
    by_contra hr
    rw [level_of_not_reaches hr] at h
    exact absurd h (lt_irrefl _)
  · intro hr
    obtain ⟨k, hk⟩ := Automaton.reaches_iff.1 hr
    rw [level_of_distance hk]
    exact lt_top_of_distance hk

/-- **A level below the top is the length of a shortest path.** -/
theorem distance_level (h : A.Reaches q) : A.Distance q ((ofAutomaton A).level q) := by
  obtain ⟨k, hk⟩ := Automaton.reaches_iff.1 h
  rw [level_of_distance hk]
  exact hk

theorem level_le_top : (ofAutomaton A).level q ≤ (ofAutomaton A).top := by
  by_cases hr : A.Reaches q
  · exact (level_lt_top_iff.2 hr).le
  · exact (level_of_not_reaches hr).le

theorem level_of_mem_failures (h : q ∈ (ofAutomaton A).failures) :
    (ofAutomaton A).level q = (ofAutomaton A).top :=
  level_of_not_reaches (mem_failures_iff.1 h).2

/-- Every state has a level, and so has the sink and whatever acceptance can be reached from. -/
theorem getElem?_known_level (h : q ∈ A.allStates ∨ A.Reaches q) :
    (ofAutomaton A).known[q]? = some ((ofAutomaton A).level q) := by
  by_cases hr : A.Reaches q
  · exact getElem?_known.2 (Or.inl (distance_level hr))
  · have hq := Automaton.mem_allStates.1 (h.resolve_right hr)
    rw [level_of_not_reaches hr]
    exact getElem?_known.2 (Or.inr ⟨mem_failures_iff.2 ⟨hq, hr⟩, rfl⟩)

theorem top_eq_zero (h : A.accepting = ∅) : (ofAutomaton A).top = 0 := by
  rcases top_cases A with h0 | ⟨q, k, hk, -⟩
  · exact h0
  · obtain ⟨r, hr⟩ := hk.exists_le (Nat.zero_le k)
    have hmem := IsDistance.zero_iff.1 hr
    simp [h] at hmem

/-- With an accepting state the top is one past the greatest distance. -/
theorem exists_isGreatest (h : A.accepting ≠ ∅) :
    ∃ m, IsGreatest {k | ∃ q, A.Distance q k} m ∧ (ofAutomaton A).top = m + 1 := by
  obtain ⟨q, hq⟩ : ∃ q, q ∈ A.accepting := by
    by_contra hno
    exact h (Std.ExtTreeSet.ext_mem fun q => by simpa using fun hq => hno ⟨q, hq⟩)
  rcases top_cases A with h0 | ⟨r, m, hm, htop⟩
  · have hlt : 0 < (ofAutomaton A).top := lt_top_of_distance (IsDistance.zero_iff.2 hq)
    exact absurd h0 (Nat.pos_iff_ne_zero.1 hlt)
  · refine ⟨m, ⟨⟨r, hm⟩, ?_⟩, htop⟩
    rintro k ⟨p, hp⟩
    have hlt := lt_top_of_distance hp
    omega

/-- A state that is not accepting is not at the bottom, unless nothing is accepting. -/
theorem level_pos (hq : q ∉ A.accepting) (hacc : A.accepting ≠ ∅) :
    0 < (ofAutomaton A).level q := by
  by_cases hr : A.Reaches q
  · have hd := distance_level hr
    refine Nat.pos_of_ne_zero fun h0 => hq ?_
    rw [h0] at hd
    exact IsDistance.zero_iff.1 hd
  · obtain ⟨m, -, htop⟩ := exists_isGreatest hacc
    rw [level_of_not_reaches hr, htop]
    exact Nat.succ_pos m

/-- **The levels are what the search leaves**, once its queue is empty. -/
theorem exists_stops (A : Automaton) :
    ∃ s, Search.Stops (sourcesInto (predecessors A.edges)) (.start A.accepting) s ∧
      (ofAutomaton A).top = s.top ∧
      ∀ q ∉ (ofAutomaton A).failures, (ofAutomaton A).known[q]? = s.found[q]? := by
  refine ⟨_, Search.stops_search A.edges A.accepting, rfl, fun q hq => ?_⟩
  rw [getElem?_known_eq_ite, if_neg (mt Std.ExtTreeSet.mem_toList.1 hq)]
  rfl

/-! ### Levels depend on distances only -/

section Congr

variable {B : Automaton}

theorem top_mono (h : ∀ q k, A.Distance q k → B.Distance q k) :
    (ofAutomaton A).top ≤ (ofAutomaton B).top := by
  rcases top_cases A with h0 | ⟨q, k, hk, htop⟩
  · rw [h0]
    exact Nat.zero_le _
  · rw [htop]
    exact lt_top_of_distance (h q k hk)

theorem top_congr (h : ∀ q k, A.Distance q k ↔ B.Distance q k) :
    (ofAutomaton A).top = (ofAutomaton B).top :=
  Nat.le_antisymm (top_mono fun q k => (h q k).1) (top_mono fun q k => (h q k).2)

theorem reaches_congr (h : ∀ q k, A.Distance q k ↔ B.Distance q k) (q : Nat) :
    A.Reaches q ↔ B.Reaches q := by
  rw [Automaton.reaches_iff, Automaton.reaches_iff]
  exact exists_congr fun k => h q k

theorem level_congr (h : ∀ q k, A.Distance q k ↔ B.Distance q k) (q : Nat) :
    (ofAutomaton A).level q = (ofAutomaton B).level q := by
  by_cases hr : A.Reaches q
  · exact (level_of_distance ((h _ _).1 (distance_level hr))).symm
  · rw [level_of_not_reaches hr, level_of_not_reaches (mt (reaches_congr h q).2 hr), top_congr h]

theorem isFailure_congr (h : ∀ q k, A.Distance q k ↔ B.Distance q k) (q : Nat) :
    (ofAutomaton A).isFailure q = (ofAutomaton B).isFailure q := by
  rw [Bool.eq_iff_iff, isFailure_iff, isFailure_iff, reaches_congr h]

/-- What is known of a state that both automata have is the same. -/
theorem getElem?_known_congr (h : ∀ q k, A.Distance q k ↔ B.Distance q k)
    (hA : q ∈ A.allStates) (hB : q ∈ B.allStates) :
    (ofAutomaton A).known[q]? = (ofAutomaton B).known[q]? := by
  have hfail : q ∈ (ofAutomaton A).failures ↔ q ∈ (ofAutomaton B).failures := by
    rw [mem_failures_iff, mem_failures_iff, ← Automaton.mem_allStates, ← Automaton.mem_allStates,
      reaches_congr h]
    exact and_congr_left fun _ => iff_of_true hA hB
  ext k
  rw [getElem?_known, getElem?_known, h, hfail, top_congr h]

/-- **Automata with the same states and distances have the same levels.** -/
theorem ofAutomaton_congr (h : ∀ q k, A.Distance q k ↔ B.Distance q k)
    (hstates : ∀ q, q ∈ A.allStates ↔ q ∈ B.allStates) : ofAutomaton A = ofAutomaton B := by
  have hfail : (ofAutomaton A).failures = (ofAutomaton B).failures := by
    refine Std.ExtTreeSet.ext_mem fun q => ?_
    rw [mem_failures_iff, mem_failures_iff, ← Automaton.mem_allStates, ← Automaton.mem_allStates,
      hstates, reaches_congr h]
  have hknown : (ofAutomaton A).known = (ofAutomaton B).known := by
    refine Std.ExtTreeMap.ext_getElem? fun {q} => Option.ext fun k => ?_
    rw [getElem?_known, getElem?_known, h, hfail, top_congr h]
  exact Levels.ext hknown (top_congr h) hfail

end Congr

end Levels

/-- **Levels are backward distances to acceptance.**  In the graph of any automaton a state has a
    level below the top exactly when acceptance can be reached from it, and that level is the
    length of a shortest path.  The failures are the states, and the sink if it is so, from which
    it cannot be reached, all at the top, and no other state has an entry.  The top is zero when
    nothing is accepting, and otherwise one past the greatest level of a state with a path.  Where
    states list only transitions of their own, the edges are the listed transitions.  All this is
    found by a search that starts from the accepting states, takes the states of its queue one by
    one, until none is left, and queues their predecessors that are new: the top is one past the
    distance of the state that it took last. -/
theorem backward_distances (A : Automaton) :
    (∀ q, (Levels.ofAutomaton A).level q < (Levels.ofAutomaton A).top ↔ A.Reaches q) ∧
    (∀ q, A.Reaches q → A.Distance q ((Levels.ofAutomaton A).level q)) ∧
    (∀ q, q ∈ (Levels.ofAutomaton A).failures ↔
      (q ∈ A.states ∨ q = A.sink) ∧ ¬ A.Reaches q) ∧
    (∀ q k, (Levels.ofAutomaton A).known[q]? = some k ↔
      A.Distance q k ∨ q ∈ (Levels.ofAutomaton A).failures ∧ k = (Levels.ofAutomaton A).top) ∧
    (A.accepting = ∅ → (Levels.ofAutomaton A).top = 0) ∧
    (A.accepting ≠ ∅ → ∃ m, IsGreatest {k | ∃ q, A.Distance q k} m ∧
      (Levels.ofAutomaton A).top = m + 1) ∧
    ((∀ p ts, A.transitionsFrom p = .ok ts → ∀ t ∈ ts, t.source = p) → ∀ q r, A.Edge q r ↔
      (q ∈ A.states ∨ q = A.sink) ∧ ∃ ts, A.transitionsFrom q = .ok ts ∧
        ∃ t ∈ ts, t.destination = r ∧ t.guard ≠ .ff) ∧
    (∀ q r, q ∈ sourcesInto (predecessors A.edges) r ↔ A.Edge q r) ∧
    (∃ s, Search.Stops (sourcesInto (predecessors A.edges)) (.start A.accepting) s ∧
      (Levels.ofAutomaton A).top = s.top ∧ ∀ q ∉ (Levels.ofAutomaton A).failures,
        (Levels.ofAutomaton A).known[q]? = s.found[q]?) :=
  ⟨fun _ => Levels.level_lt_top_iff, fun _ => Levels.distance_level,
    fun _ => Levels.mem_failures_iff, fun _ _ => Levels.getElem?_known, Levels.top_eq_zero,
    Levels.exists_isGreatest, fun h _ _ => Automaton.edge_iff h,
    fun _ _ => mem_sourcesInto.trans Automaton.mem_edges, Levels.exists_stops A⟩

end GoalAutomata
