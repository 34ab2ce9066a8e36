/-
  The order in which transitions are listed.

  Listed in another order, transitions give every state the same entries in another
  order.  Whether two entries are ever enabled together does not depend on it, so
  both lists pass the check of the construction or neither does.  The graph of a
  table has an edge for every transition that can be enabled, in whatever row it
  stands, so levels and potentials are those of the set of transitions.  Only where
  an interpretation leads depends on the order, and not in a row that is exclusive.

  * `Dfa.edge_iff_transition`, `Dfa.levels_eq`: levels depend on the transitions
    only, and on what is accepting;
  * `Row.Exclusive.find?_perm`: the entry that is taken from an exclusive row;
  * `listing_order_is_irrelevant`: all of it together.
-/
import GoalAutomata.PricedAutomaton
import GoalAutomata.Proofs.Dfa.Totality

namespace GoalAutomata

/-! ## Rows in another order -/

namespace Row

variable {row row' : Row} {I : Fluents}

theorem atoms_perm (h : row.Perm row') : row.atoms = row'.atoms := by
  refine Std.ExtTreeSet.ext_mem fun s => ?_
  rw [mem_atoms, mem_atoms]
  exact exists_congr fun e => and_congr_left' h.mem_iff

theorem exclusive_perm (h : row.Perm row') : row.Exclusive ↔ row'.Exclusive := by
  rw [exclusive_iff, exclusive_iff]
  exact forall_congr' fun I => by rw [enabled, enabled, (h.filter _).length_eq]

/-- **The entry that is taken from an exclusive row** does not depend on the order of the row. -/
theorem Exclusive.find?_perm (hexcl : row.Exclusive) (h : row.Perm row') :
    row.find? (·.1.holds I) = row'.find? (·.1.holds I) := by
  have hexcl' := (exclusive_perm h).1 hexcl
  refine Option.ext fun e => ?_
  rw [hexcl.find?_eq_some_iff, hexcl'.find?_eq_some_iff, h.mem_iff]

end Row

namespace Dfa

variable {n initial q r : Nat} {accepting : States} {ts ts' : List Transition} {d d' : Dfa}

/-! ## Levels -/

/-- The edges of a table: the loop of the sink, and the transitions not guarded by `false`. -/
theorem edge_iff_transition : d.toAutomaton.Edge q r ↔ q = d.sink ∧ r = d.sink ∨
    ∃ t ∈ d.toAutomaton.transitions, t.source = q ∧ t.destination = r ∧ t.guard ≠ .ff := by
  rw [edge_iff]
  refine or_congr_right ?_
  constructor
  · rintro ⟨row, hrow, e, he, rfl, hg⟩
    exact ⟨⟨q, e.1, e.2⟩, mem_transitions.2 ⟨row, hrow, he⟩, rfl, rfl, hg⟩
  · rintro ⟨t, ht, rfl, rfl, hg⟩
    obtain ⟨row, hrow, he⟩ := mem_transitions.1 ht
    exact ⟨row, hrow, _, he, rfl, hg⟩

/-- **Tables with the same transitions have the same levels.** -/
theorem levels_eq (hsize : d.size = d'.size) (hacc : d.accepting = d'.accepting)
    (hts : d.toAutomaton.transitions = d'.toAutomaton.transitions) :
    Levels.ofAutomaton d.toAutomaton = Levels.ofAutomaton d'.toAutomaton := by
  have hsink : d.sink = d'.sink := hsize
  have hedge : d.toAutomaton.Edge = d'.toAutomaton.Edge := by
    funext q r
    rw [eq_iff_iff, edge_iff_transition, edge_iff_transition, hsink, hts]
  have hacc : d.toAutomaton.accepting = d'.toAutomaton.accepting := hacc
  refine Levels.ofAutomaton_congr (fun q k => ?_) fun q => ?_
  · rw [Automaton.Distance, Automaton.Distance, hedge, hacc]
  · rw [mem_allStates, mem_allStates, hsize]

/-! ## Tables from lists in another order -/

theorem rowOf_perm (h : ts.Perm ts') (q : Nat) : (rowOf ts q).Perm (rowOf ts' q) :=
  (h.filter _).map _

theorem exists_ofTransitions_of_perm (h : ts.Perm ts')
    (hok : ∃ d, ofTransitions n initial accepting ts = .ok d) :
    ∃ d', ofTransitions n initial accepting ts' = .ok d' := by
  obtain ⟨⟨hi, hacc, hts⟩, hrows⟩ := exists_ofTransitions_iff.1 hok
  refine exists_ofTransitions_iff.2
    ⟨⟨hi, hacc, fun t ht => hts t (h.mem_iff.2 ht)⟩, fun q hq hfew => ?_⟩
  rw [← Row.exclusive_perm (rowOf_perm h q)]
  rw [← Row.atoms_perm (rowOf_perm h q)] at hfew
  exact hrows q hq hfew

/-- **A checked state leads where it does whatever the order.** -/
theorem successor_eq_of_perm (h : ts.Perm ts')
    (hd : ofTransitions n initial accepting ts = .ok d)
    (hd' : ofTransitions n initial accepting ts' = .ok d')
    (hfew : ∀ row, d.table[q]? = some row → row.atoms.size ≤ Row.maxAtoms) (I : Fluents) :
    d.successor q I = d'.successor q I := by
  obtain ⟨-, hrows, -, -, htab⟩ := ofTransitions_eq_ok_iff.1 hd
  obtain ⟨-, -, -, -, htab'⟩ := ofTransitions_eq_ok_iff.1 hd'
  have hsize : d.sink = d'.sink := by
    rw [sink, sink, size, size, htab, htab', length_tableOf, length_tableOf]
  by_cases hq : q < n
  · have hrow : d.table[q]? = some (rowOf ts q) := by rw [htab, getElem?_tableOf hq]
    have hrow' : d'.table[q]? = some (rowOf ts' q) := by rw [htab', getElem?_tableOf hq]
    have hexcl := Row.conflict?_eq_none_iff.1 (hrows q hq) (hfew _ hrow)
    rw [successor_of_row hrow, successor_of_row hrow', hexcl.find?_perm (rowOf_perm h q), hsize]
  · have hnone : d.table[q]? = none := by rw [htab, getElem?_tableOf_eq_none (not_lt.1 hq)]
    have hnone' : d'.table[q]? = none := by rw [htab', getElem?_tableOf_eq_none (not_lt.1 hq)]
    rw [successor, successor, hnone, hnone', hsize]

end Dfa

/-- **The order in which transitions are listed is irrelevant.**  Of two lists with the same
    transitions, each as often, either both are accepted by the construction or neither is.  If they
    are, then the automata have the same transitions, levels and potentials, whatever the reward.
    From a state that mentions at most sixteen fluents, and from what is no state, every
    interpretation leads to the same state in both, or has no successor in either. -/
theorem listing_order_is_irrelevant {ts ts' : List Transition} (h : ts.Perm ts')
    (n initial : Nat) (accepting : States) :
    ((∃ d, Dfa.ofTransitions n initial accepting ts = .ok d) ↔
      ∃ d', Dfa.ofTransitions n initial accepting ts' = .ok d') ∧
    ∀ d d', Dfa.ofTransitions n initial accepting ts = .ok d →
      Dfa.ofTransitions n initial accepting ts' = .ok d' →
      d.toAutomaton.transitions = d'.toAutomaton.transitions ∧
      Levels.ofAutomaton d.toAutomaton = Levels.ofAutomaton d'.toAutomaton ∧
      (∀ {R : Type} [Amount R] (reward : R), (PricedAutomaton.new d.toAutomaton reward).potential =
        (PricedAutomaton.new d'.toAutomaton reward).potential) ∧
      ∀ q, (∀ row, d.table[q]? = some row → row.atoms.size ≤ 16) →
        ∀ I, d.successor q I = d'.successor q I := by
  refine ⟨⟨Dfa.exists_ofTransitions_of_perm h, Dfa.exists_ofTransitions_of_perm h.symm⟩,
    fun d d' hd hd' => ?_⟩
  obtain ⟨-, -, hi, hacc, htab⟩ := Dfa.ofTransitions_eq_ok_iff.1 hd
  obtain ⟨-, -, hi', hacc', htab'⟩ := Dfa.ofTransitions_eq_ok_iff.1 hd'
  have htransitions : d.toAutomaton.transitions = d'.toAutomaton.transitions := by
    refine Std.ExtTreeSet.ext_mem fun t => ?_
    rw [Dfa.mem_transitions_of_ofTransitions hd, Dfa.mem_transitions_of_ofTransitions hd',
      h.mem_iff]
  have hsize : d.size = d'.size := by
    rw [Dfa.size, Dfa.size, htab, htab', Dfa.length_tableOf, Dfa.length_tableOf]
  have hlevels := Dfa.levels_eq hsize (hacc.trans hacc'.symm) htransitions
  have hinitial : d.toAutomaton.initial = d'.toAutomaton.initial := hi.trans hi'.symm
  refine ⟨htransitions, hlevels, fun reward => ?_,
    fun q hfew => Dfa.successor_eq_of_perm h hd hd' hfew⟩
  rw [PricedAutomaton.new, PricedAutomaton.new, hlevels, hinitial]

/-- A state that waits for a fluent, and where that leads. -/
def waitingTransitions : List Transition :=
  [⟨0, .atom "a", 1⟩, ⟨0, .not (.atom "a"), 0⟩, ⟨1, .tt, 1⟩]

/-- Listed the other way round the entries of the first state change places, and lead where they
    did. -/
theorem waiting_reversed : ∃ d d',
    Dfa.ofTransitions 2 0 (.ofList [1]) waitingTransitions = .ok d ∧
    Dfa.ofTransitions 2 0 (.ofList [1]) waitingTransitions.reverse = .ok d' ∧ d ≠ d' ∧
    Levels.ofAutomaton d.toAutomaton = Levels.ofAutomaton d'.toAutomaton ∧
    ∀ q I, d.successor q I = d'.successor q I := by
  let d : Dfa := ⟨0, .ofList [1], Dfa.tableOf 2 waitingTransitions, by decide +kernel,
    by simp [Dfa.length_tableOf], by decide +kernel⟩
  have hd : Dfa.ofTransitions 2 0 (.ofList [1]) waitingTransitions = .ok d := by decide +kernel
  obtain ⟨hboth, hsame⟩ := listing_order_is_irrelevant (List.reverse_perm waitingTransitions).symm
    2 0 (.ofList [1])
  obtain ⟨d', hd'⟩ := hboth.1 ⟨d, hd⟩
  obtain ⟨-, hlevels, -, hsucc⟩ := hsame d d' hd hd'
  have hother : Dfa.ofTransitions 2 0 (.ofList [1]) waitingTransitions.reverse ≠ .ok d := by
    decide +kernel
  have hfew : ∀ row ∈ d.table, row.atoms.size ≤ 16 := by decide +kernel
  exact ⟨d, d', hd, hd', fun heq => hother (heq ▸ hd'), hlevels,
    fun q => hsucc q fun row hrow => hfew row (List.mem_of_getElem? hrow)⟩

end GoalAutomata
