/-
  Completion makes a table total, and keeps it valid.

  A row is total if every interpretation enables one of its entries (`Row.Total`).
  Completion adds what is missing, so that a completed row is total, and at most one
  of its entries is enabled where that was so before.  The atoms stay the same, so a
  row that has passed the check of the construction passes it again.

  Whether a row is total is told by trying the interpretations over its atoms, if
  they are few, or from a guard `true` (`Row.Decided`).  A total row about which it
  cannot be told is completed all the same, and is so again.

  * `Row.isComplete_iff`: which rows are found to be complete;
  * `Row.total_completed`, `Row.Exclusive.completed`: what a completed row enables;
  * `Dfa.ofTransitions_listing`: a checked table is constructed from its transitions;
  * `completion_is_total`: completion as a whole;
  * `completing_twice_iff`: where completion changes nothing.
-/
import GoalAutomata.Proofs.Dfa.Completion
import GoalAutomata.Proofs.Dfa.Determinism

namespace GoalAutomata

namespace Row

variable {row : Row} {sink : Nat} {I : Fluents}

/-- Every interpretation enables an entry. -/
def Total (row : Row) : Prop := ∀ I, ∃ e ∈ row, e.1.holds I = true

/-- Whether the row is total can be told: an entry has the guard `true`, or the atoms are few. -/
def Decided (row : Row) : Prop := (∃ e ∈ row, e.1 = .tt) ∨ row.atoms.size ≤ maxAtoms

theorem exists_interpretations? (h : row.atoms.size ≤ maxAtoms) :
    ∃ Is, row.interpretations? = some Is := ⟨_, if_pos h⟩

/-- **A row is found to be complete if it is total, and this can be told.** -/
theorem isComplete_iff : row.isComplete = true ↔ row.Decided ∧ row.Total := by
  constructor
  · intro h
    refine ⟨?_, fun I => List.any_eq_true.1 (any_holds_of_isComplete h I)⟩
    rw [isComplete, Bool.or_eq_true] at h
    rcases h with h | h
    · obtain ⟨e, he, hg⟩ := List.any_eq_true.1 h
      exact Or.inl ⟨e, he, of_decide_eq_true hg⟩
    · cases hIs : row.interpretations? with
      | none => simp [hIs] at h
      | some Is => exact Or.inr (size_atoms_le hIs)
  · rintro ⟨⟨e, he, hg⟩ | hfew, htotal⟩
    · have hany : row.any (·.1 = .tt) = true := List.any_eq_true.2 ⟨e, he, decide_eq_true hg⟩
      rw [isComplete, hany, Bool.true_or]
    · obtain ⟨Is, hIs⟩ := exists_interpretations? hfew
      rw [isComplete, Bool.or_eq_true, hIs]
      exact Or.inr (List.all_eq_true.2 fun I _ => List.any_eq_true.2 (htotal I))

/-! ## Completed rows -/

theorem names_missing : row.missing.names = row.flatMap fun e => e.1.names := by
  unfold missing
  split_ifs with hempty
  · rw [List.isEmpty_iff.1 hempty]
    rfl
  · simp [Guard.neg, Guard.names, List.flatMap_map]

theorem eq_or_mem_of_mem_completed {e : Guard × Nat} (h : e ∈ row.completed sink) :
    e ∈ row ∨ e = (row.missing, sink) := by
  unfold completed at h
  split_ifs at h
  · exact Or.inl h
  · exact (List.mem_append.1 h).imp_right List.mem_singleton.1

theorem atoms_completed : (row.completed sink).atoms = row.atoms := by
  refine Std.ExtTreeSet.ext_mem fun s => ?_
  rw [mem_atoms, mem_atoms]
  constructor
  · rintro ⟨e, he, hs⟩
    rcases eq_or_mem_of_mem_completed he with he | rfl
    · exact ⟨e, he, hs⟩
    · rw [names_missing] at hs
      exact List.mem_flatMap.1 hs
  · rintro ⟨e, he, hs⟩
    exact ⟨e, mem_completed_of_mem he, hs⟩

/-- **A completed row is total.** -/
theorem total_completed (row : Row) (sink : Nat) : (row.completed sink).Total := by
  intro I
  by_cases h : row.isComplete = true
  · rw [completed, if_pos h]
    exact (isComplete_iff.1 h).2 I
  · rw [completed, if_neg h]
    cases hany : row.any (·.1.holds I) with
    | true =>
      obtain ⟨e, he, heI⟩ := List.any_eq_true.1 hany
      exact ⟨e, List.mem_append_left _ he, heI⟩
    | false =>
      have hmissing : row.missing.holds I = true := by rw [holds_missing, hany, Bool.not_false]
      exact ⟨(row.missing, sink), by simp, hmissing⟩

theorem Exclusive.completed (h : row.Exclusive) : (row.completed sink).Exclusive := by
  unfold Row.completed
  split_ifs
  · exact h
  · refine List.pairwise_append.2 ⟨h, List.pairwise_singleton _ _, fun e he f hf I => ?_⟩
    rw [List.mem_singleton.1 hf]
    rintro ⟨heI, hfI⟩
    rw [holds_missing, Bool.not_eq_true', List.any_eq_false] at hfI
    exact hfI e he heI

/-- An exclusive and total row has one enabled entry for every interpretation. -/
theorem Exclusive.length_enabled (h : row.Exclusive) (htotal : row.Total) (I : Fluents) :
    (row.enabled I).length = 1 := by
  obtain ⟨e, he, heI⟩ := htotal I
  have hmem : e ∈ row.enabled I := List.mem_filter.2 ⟨he, heI⟩
  exact le_antisymm (exclusive_iff.1 h I) (List.length_pos_of_mem hmem)

/-- A row that passes the check passes it after completion. -/
theorem conflict?_completed (h : row.conflict? = none) : (row.completed sink).conflict? = none := by
  rw [conflict?_eq_none_iff] at h ⊢
  rw [atoms_completed]
  exact fun hfew => (h hfew).completed

/-- The entry that completion adds has the guard `true` only in an empty row. -/
theorem missing_eq_tt_iff : row.missing = .tt ↔ row = [] := by
  unfold missing
  split_ifs with hempty
  · exact iff_of_true rfl (List.isEmpty_iff.1 hempty)
  · exact iff_of_false nofun fun hnil => hempty (List.isEmpty_iff.2 hnil)

/-- **Completion does not help to tell** whether a row is total. -/
theorem decided_completed : (row.completed sink).Decided ↔ row.Decided := by
  rw [Decided, Decided, atoms_completed]
  constructor
  · rintro (⟨e, he, hg⟩ | hfew)
    · rcases eq_or_mem_of_mem_completed he with he | rfl
      · exact Or.inl ⟨e, he, hg⟩
      · right
        rw [missing_eq_tt_iff.1 hg]
        decide
    · exact Or.inr hfew
  · rintro (⟨e, he, hg⟩ | hfew)
    · exact Or.inl ⟨e, mem_completed_of_mem he, hg⟩
    · exact Or.inr hfew

theorem total_loop (sink : Nat) : Total [(.tt, sink)] := fun _ =>
  ⟨_, List.mem_singleton_self _, rfl⟩

theorem decided_loop (sink : Nat) : Decided [(.tt, sink)] :=
  Or.inl ⟨_, List.mem_singleton_self _, rfl⟩

theorem exclusive_loop (sink : Nat) : Exclusive [(.tt, sink)] := List.pairwise_singleton _ _

end Row

namespace Dfa

variable {d : Dfa} {q : Nat} {row : Row}

/-! ## Completed tables -/

/-- The row of a state is a completed one, also where completion changes nothing. -/
theorem row_complete_cases (h : d.complete.table[q]? = some row) :
    (∃ old, d.table[q]? = some old ∧ row = old.completed d.sink) ∨
      q = d.sink ∧ row = [(.tt, d.sink)] := by
  unfold complete at h
  split_ifs at h with hall
  · have hrow := List.all_eq_true.1 hall row (List.mem_of_getElem? h)
    exact Or.inl ⟨row, h, (if_pos hrow).symm⟩
  · rcases getElem?_completedTable.1 h with ⟨old, hold, rfl⟩ | ⟨hq, rfl⟩
    · exact Or.inl ⟨old, hold, rfl⟩
    · exact Or.inr ⟨hq, rfl⟩

/-- Every state keeps its row, completed. -/
theorem row_complete_of_row (h : d.table[q]? = some row) :
    d.complete.table[q]? = some (row.completed d.sink) := by
  unfold complete
  split_ifs with hall
  · have hrow := List.all_eq_true.1 hall row (List.mem_of_getElem? h)
    rw [h, Row.completed, if_pos hrow]
  · exact getElem?_completedTable.2 (Or.inl ⟨row, h, rfl⟩)

/-- What holds of every completed row and of the loop holds of the rows of a completion. -/
theorem forall_mem_table_complete {P : Row → Prop}
    (hrows : ∀ row ∈ d.table, P (row.completed d.sink)) (hloop : P [(.tt, d.sink)]) :
    ∀ row ∈ d.complete.table, P row := by
  intro row hrow
  obtain ⟨q, hq⟩ := List.mem_iff_getElem?.1 hrow
  rcases row_complete_cases hq with ⟨old, hold, rfl⟩ | ⟨-, rfl⟩
  · exact hrows old (List.mem_of_getElem? hold)
  · exact hloop

theorem total_complete (d : Dfa) : ∀ row ∈ d.complete.table, row.Total :=
  forall_mem_table_complete (fun row _ => row.total_completed d.sink) (Row.total_loop d.sink)

/-- From a state of a total table every interpretation leads to a state. -/
theorem exists_successor_lt (h : ∀ row ∈ d.table, row.Total) (hq : q < d.size) (I : Fluents) :
    ∃ r < d.size, d.successor q I = .ok r := by
  have hrow : d.table[q]? = some d.table[q] := List.getElem?_eq_getElem hq
  have hmem : d.table[q] ∈ d.table := List.getElem_mem hq
  obtain ⟨e, he⟩ := Option.isSome_iff_exists.1 (List.find?_isSome.2 (h _ hmem I))
  refine ⟨e.2, d.target_lt _ hmem e (List.mem_of_find?_eq_some he), ?_⟩
  rw [successor_of_row hrow, he, Option.elim_some]

/-- Completion changes nothing if every row is found to be complete. -/
theorem complete_eq_self_iff : d.complete = d ↔ ∀ row ∈ d.table, row.isComplete = true := by
  rw [← List.all_eq_true]
  unfold complete
  split_ifs with hall
  · exact iff_of_true rfl hall
  · refine iff_of_false (fun h => ?_) hall
    have hlen := congrArg (List.length ∘ Dfa.table) h
    simp [length_completedTable] at hlen

/-- **A second completion changes nothing if it can be told of every row whether it is total.** -/
theorem complete_complete_eq_iff :
    d.complete.complete = d.complete ↔ ∀ row ∈ d.table, row.Decided := by
  rw [complete_eq_self_iff]
  constructor
  · intro h row hrow
    obtain ⟨q, hq⟩ := List.mem_iff_getElem?.1 hrow
    have hcomplete := h _ (List.mem_of_getElem? (row_complete_of_row hq))
    exact Row.decided_completed.1 (Row.isComplete_iff.1 hcomplete).1
  · intro h
    refine forall_mem_table_complete (fun row hrow => ?_) ?_
    · exact Row.isComplete_iff.2 ⟨Row.decided_completed.2 (h row hrow), row.total_completed d.sink⟩
    · exact Row.isComplete_iff.2 ⟨Row.decided_loop d.sink, Row.total_loop d.sink⟩

/-! ## The transitions of a table -/

/-- The transitions of all states, one state after the other. -/
def listing (d : Dfa) : List Transition :=
  (List.range d.size).flatMap fun q => (d.transitionsFrom q).toOption.getD []

theorem transitionsFrom_of_row (h : d.table[q]? = some row) :
    d.transitionsFrom q = .ok (row.map fun e => ⟨q, e.1, e.2⟩) :=
  transitionsFrom_eq_ok_iff.2 (Or.inr ⟨row, h, rfl⟩)

theorem mem_listing {t : Transition} : t ∈ d.listing ↔
    ∃ row, d.table[t.source]? = some row ∧ (t.guard, t.destination) ∈ row := by
  rw [listing, List.mem_flatMap]
  constructor
  · rintro ⟨q, hq, ht⟩
    have hlt : q < d.table.length := List.mem_range.1 hq
    have hrow : d.table[q]? = some d.table[q] := List.getElem?_eq_getElem hlt
    rw [transitionsFrom_of_row hrow] at ht
    obtain ⟨e, he, rfl⟩ := List.mem_map.1 ht
    exact ⟨_, hrow, he⟩
  · rintro ⟨row, hrow, he⟩
    refine ⟨t.source, List.mem_range.2 (List.getElem?_eq_some_iff.1 hrow).1, ?_⟩
    rw [transitionsFrom_of_row hrow]
    exact List.mem_map.2 ⟨_, he, rfl⟩

theorem mem_transitions {t : Transition} : t ∈ d.toAutomaton.transitions ↔
    ∃ row, d.table[t.source]? = some row ∧ (t.guard, t.destination) ∈ row := by
  rw [← mem_listing, listing, Automaton.transitions, Std.ExtTreeSet.mem_ofList,
    List.contains_iff_mem, List.mem_flatMap, List.mem_flatMap]
  refine exists_congr fun q => and_congr_left' ?_
  rw [List.mem_range, Std.ExtTreeSet.mem_toList]
  exact States.mem_below

/-- **The transitions of what is constructed are those that are listed.** -/
theorem mem_transitions_of_ofTransitions {n initial : Nat} {accepting : States}
    {ts : List Transition} (h : ofTransitions n initial accepting ts = .ok d) {t : Transition} :
    t ∈ d.toAutomaton.transitions ↔ t ∈ ts := by
  obtain ⟨⟨-, -, hts⟩, -, -, -, htab⟩ := ofTransitions_eq_ok_iff.1 h
  rw [mem_transitions, htab]
  constructor
  · rintro ⟨row, hrow, he⟩
    have hlt := (List.getElem?_eq_some_iff.1 hrow).1
    rw [length_tableOf] at hlt
    rw [getElem?_tableOf hlt] at hrow
    cases hrow
    exact mem_rowOf.1 he
  · exact fun ht => ⟨_, getElem?_tableOf (hts t ht).1, mem_rowOf.2 ht⟩

/-- The transitions of the other states do not count. -/
theorem rowOf_transitions (row : Row) (p q : Nat) :
    rowOf (row.map fun e => ⟨p, e.1, e.2⟩) q = if p = q then row else [] := by
  split_ifs with h <;> simp [rowOf, List.filter_map, Function.comp_def, h]

theorem flatMap_range_ite {α : Type} (n q : Nat) (xs : List α) :
    (List.range n).flatMap (fun p => if p = q then xs else []) = if q < n then xs else [] := by
  induction n with
  | zero => rfl
  | succ n ih =>
    rw [List.range_succ, List.flatMap_append, ih, List.flatMap_singleton]
    split_ifs <;> grind

theorem rowOf_listing (h : d.table[q]? = some row) : rowOf d.listing q = row := by
  have hparts : ∀ p ∈ List.range d.size, rowOf ((d.transitionsFrom p).toOption.getD []) q =
      if p = q then row else [] := by
    intro p hp
    have hlt : p < d.table.length := List.mem_range.1 hp
    have hrow : d.table[p]? = some d.table[p] := List.getElem?_eq_getElem hlt
    rw [transitionsFrom_of_row hrow, Except.toOption, Option.getD_some, rowOf_transitions]
    split_ifs with hpq
    · subst hpq
      exact Option.some.inj (hrow.symm.trans h)
    · rfl
  have hlt : q < d.size := (List.getElem?_eq_some_iff.1 h).1
  calc rowOf d.listing q
      = (List.range d.size).flatMap fun p => rowOf ((d.transitionsFrom p).toOption.getD []) q := by
        rw [rowOf, listing, List.filter_flatMap, List.map_flatMap]
        rfl
    _ = (List.range d.size).flatMap fun p => if p = q then row else [] := List.flatMap_congr hparts
    _ = row := by rw [flatMap_range_ite, if_pos hlt]

theorem tableOf_listing (d : Dfa) : tableOf d.size d.listing = d.table := by
  refine List.ext_getElem? fun q => ?_
  cases hrow : d.table[q]? with
  | some row =>
    have hlt : q < d.size := (List.getElem?_eq_some_iff.1 hrow).1
    rw [getElem?_tableOf hlt, rowOf_listing hrow]
  | none =>
    exact getElem?_tableOf_eq_none (List.getElem?_eq_none_iff.1 hrow)

/-- **A table that passes the check is constructed from its transitions.** -/
theorem ofTransitions_listing (h : ∀ row ∈ d.table, row.conflict? = none) :
    ofTransitions d.size d.initial d.accepting d.listing = .ok d := by
  refine ofTransitions_eq_ok_iff.2 ⟨⟨d.initial_lt, d.accepting_lt, fun t ht => ?_⟩,
    fun q hq => ?_, rfl, rfl, (tableOf_listing d).symm⟩
  · obtain ⟨row, hrow, he⟩ := mem_listing.1 ht
    exact ⟨(List.getElem?_eq_some_iff.1 hrow).1, d.target_lt row (List.mem_of_getElem? hrow) _ he⟩
  · rw [rowOf_listing (List.getElem?_eq_getElem hq)]
    exact h _ (List.getElem_mem hq)

theorem conflict?_of_ofTransitions {n initial : Nat} {accepting : States} {ts : List Transition}
    (h : ofTransitions n initial accepting ts = .ok d) : ∀ row ∈ d.table, row.conflict? = none := by
  obtain ⟨-, hrows, -, -, htab⟩ := ofTransitions_eq_ok_iff.1 h
  rw [htab, tableOf, List.forall_mem_map]
  exact fun q hq => hrows q (List.mem_range.1 hq)

end Dfa

/-- **Completion makes a table total, deterministic and valid.**  Let an automaton be constructed.
    In every state of its completion every interpretation enables an entry, so it leads to a state
    again.  It enables one entry only where no two entries of the state were enabled together
    before, as is the case for every state that mentions at most sixteen fluents.  If completion
    adds a state, that is absorbing and not accepting.  The completion is what is constructed from
    its own size, initial state, accepting states and transitions. -/
theorem completion_is_total {n initial : Nat} {accepting : States} {ts : List Transition} {d : Dfa}
    (hd : Dfa.ofTransitions n initial accepting ts = .ok d) :
    (∀ q < d.complete.size, ∀ I, ∃ row, d.complete.table[q]? = some row ∧
      (∃ e ∈ row, e.1.holds I = true) ∧
      ((∀ old, d.table[q]? = some old → old.Exclusive) → (row.enabled I).length = 1) ∧
      ∃ r < d.complete.size, d.complete.successor q I = .ok r) ∧
    (∀ row ∈ d.table, row.atoms.size ≤ 16 → row.Exclusive) ∧
    (d.complete = d ∨ d.complete.size = d.size + 1 ∧ d.size ∉ d.complete.accepting ∧
      ∀ I, d.complete.successor d.size I = .ok d.size) ∧
    Dfa.ofTransitions d.complete.size d.complete.initial d.complete.accepting d.complete.listing =
      .ok d.complete := by
  have hchecked := Dfa.conflict?_of_ofTransitions hd
  refine ⟨fun q hq I => ?_, fun row hrow => ?_, ?_, ?_⟩
  · have hrow : d.complete.table[q]? = some d.complete.table[q] := List.getElem?_eq_getElem hq
    have htotal : d.complete.table[q].Total := d.total_complete _ (List.getElem_mem hq)
    refine ⟨_, hrow, htotal I, fun hexcl => ?_, Dfa.exists_successor_lt d.total_complete hq I⟩
    refine Row.Exclusive.length_enabled ?_ htotal I
    rcases Dfa.row_complete_cases hrow with ⟨old, hold, hnew⟩ | ⟨-, hnew⟩
    · rw [hnew]
      exact (hexcl old hold).completed
    · rw [hnew]
      exact Row.exclusive_loop d.sink
  · exact Row.conflict?_eq_none_iff.1 (hchecked row hrow)
  · refine d.complete_cases.imp_right fun h => ⟨Dfa.sink_of_table_complete h, fun hacc => ?_, ?_⟩
    · rw [d.accepting_complete] at hacc
      exact absurd (d.accepting_lt _ hacc) (lt_irrefl _)
    · exact fun I => (Dfa.successor_complete le_rfl I).trans (if_pos rfl)
  · exact Dfa.ofTransitions_listing (Dfa.forall_mem_table_complete
      (fun row hrow => Row.conflict?_completed (hchecked row hrow)) rfl)

/-- Three states, each of which leaves some interpretation unmatched; the last has no entry. -/
def transitionsWithGaps : List Transition :=
  [⟨0, .atom "a", 1⟩, ⟨1, .or [.atom "b", .not (.atom "a")], 2⟩]

theorem gap_completed : ∃ d, Dfa.ofTransitions 3 0 (.ofList [2]) transitionsWithGaps = .ok d ∧
    d.complete.size = 4 ∧ d.complete.listing.length = 6 ∧
    Dfa.ofTransitions 4 0 (.ofList [2]) d.complete.listing = .ok d.complete ∧
    ∀ q < 4, ∀ I, ∃ row, d.complete.table[q]? = some row ∧ (row.enabled I).length = 1 := by
  let d : Dfa := ⟨0, .ofList [2], Dfa.tableOf 3 transitionsWithGaps, by decide +kernel,
    by simp [Dfa.length_tableOf], by decide +kernel⟩
  have hd : Dfa.ofTransitions 3 0 (.ofList [2]) transitionsWithGaps = .ok d := by decide +kernel
  have hfew : ∀ row ∈ d.table, row.atoms.size ≤ 16 := by decide +kernel
  obtain ⟨hrows, hexcl, -, hagain⟩ := completion_is_total hd
  refine ⟨d, hd, by decide +kernel, by decide +kernel, hagain, fun q hq I => ?_⟩
  obtain ⟨row, hrow, -, hone, -⟩ := hrows q hq I
  refine ⟨row, hrow, hone fun old hold => ?_⟩
  have hmem : old ∈ d.table := List.mem_of_getElem? hold
  exact hexcl old hmem (hfew old hmem)

/-- **Where completion changes nothing.**  A second completion changes nothing if and only if every
    state has an entry with the guard `true` or mentions at most sixteen fluents; the first one
    changes nothing if and only if, besides, every interpretation enables an entry of every
    state. -/
theorem completing_twice_iff (d : Dfa) :
    (d.complete.complete = d.complete ↔
      ∀ row ∈ d.table, (∃ e ∈ row, e.1 = .tt) ∨ row.atoms.size ≤ 16) ∧
    (d.complete = d ↔ ∀ row ∈ d.table,
      ((∃ e ∈ row, e.1 = .tt) ∨ row.atoms.size ≤ 16) ∧ ∀ I, ∃ e ∈ row, e.1.holds I = true) := by
  constructor
  · exact Dfa.complete_complete_eq_iff
  · exact Dfa.complete_eq_self_iff.trans (forall₂_congr fun _ _ => Row.isComplete_iff)

/-- A state with one entry, which every interpretation enables and which mentions seventeen
    fluents. -/
def loopOnSeventeenFluents : List Transition :=
  [⟨0, .or (.not (.atom "a") :: ["a", "b", "c", "d", "e", "f", "g", "h", "i", "j", "k", "l", "m",
    "n", "o", "p", "q"].map .atom), 0⟩]

/-- **Completion adds a sink to a total automaton, and another one when it is made again.** -/
theorem broad_completed_twice : ∃ d, Dfa.ofTransitions 1 0 ∅ loopOnSeventeenFluents = .ok d ∧
    (∀ row ∈ d.table, ∀ I, ∃ e ∈ row, e.1.holds I = true) ∧
    d.complete ≠ d ∧ d.complete.complete ≠ d.complete := by
  let d : Dfa := ⟨0, ∅, Dfa.tableOf 1 loopOnSeventeenFluents, by decide +kernel, by simp,
    by decide +kernel⟩
  refine ⟨d, by decide +kernel, fun row hrow I => ?_, by decide +kernel, by decide +kernel⟩
  have hrow : row = Dfa.rowOf loopOnSeventeenFluents 0 := List.mem_singleton.1 hrow
  rw [hrow]
  refine ⟨_, List.mem_singleton_self _, ?_⟩
  cases ha : I.contains "a" <;> simp [ha]

end GoalAutomata
