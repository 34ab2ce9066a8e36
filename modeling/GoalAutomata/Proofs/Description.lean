/-
  Writing an automaton down and reading it again.

  The written form lists the transitions in their order, each once, with their
  guards as text.  So the rows that are read have the entries of the rows that were
  written, each guard in its normal form (`Guard.norm`), but neither in the same
  order nor as often.  The first enabled entry decides where an interpretation
  leads.  Where all enabled entries lead to the same state their order does not
  matter, and in a row that has been checked at most one is enabled.

  * `Dfa.mem_transitions`, `readTransitions_map`: what is written and read;
  * `Row.Normalizes`: rows that differ in order and repetitions only;
  * `Dfa.Writable`: the automata for which this works, completions among them;
  * `loading_keeps_successors`: for every automaton that has been constructed;
  * `written_form_is_fixed`: for guards in normal form one round is enough.
-/
import GoalAutomata.Description.Automaton
import GoalAutomata.Proofs.Dfa.Totality
import GoalAutomata.Proofs.Guard.RoundTrip

namespace GoalAutomata

/-! ## Rows with the same entries -/

namespace Row

variable {row row' : Row} {I : Fluents} {sink : Nat}

/-- `row'` has the entries of `row`, in whatever order, with their guards in normal form. -/
def Normalizes (row row' : Row) : Prop :=
  ∀ e', e' ∈ row' ↔ ∃ e ∈ row, (e.1.norm, e.2) = e'

theorem Normalizes.atoms_eq (h : Normalizes row row') : row'.atoms = row.atoms := by
  refine Std.ExtTreeSet.ext_mem fun s => ?_
  rw [mem_atoms, mem_atoms]
  constructor
  · rintro ⟨e', he', hs⟩
    obtain ⟨e, he, rfl⟩ := (h e').1 he'
    rw [Guard.names_norm] at hs
    exact ⟨e, he, hs⟩
  · rintro ⟨e, he, hs⟩
    refine ⟨(e.1.norm, e.2), (h _).2 ⟨e, he, rfl⟩, ?_⟩
    rwa [Guard.names_norm]

/-- **Rows with the same entries lead to the same state**, if the enabled entries agree on it. -/
theorem Normalizes.elim_find?_eq (h : Normalizes row row')
    (hagree : ∀ e ∈ row.enabled I, ∀ f ∈ row.enabled I, e.2 = f.2) :
    (row'.find? (·.1.holds I)).elim sink (·.2) = (row.find? (·.1.holds I)).elim sink (·.2) := by
  cases hfind' : row'.find? (·.1.holds I) with
  | none =>
    have hnone : row.find? (·.1.holds I) = none := by
      rw [List.find?_eq_none] at hfind' ⊢
      intro e he
      rw [← Guard.holds_norm]
      exact hfind' _ ((h _).2 ⟨e, he, rfl⟩)
    rw [hnone]
  | some e' =>
    obtain ⟨e, he, rfl⟩ := (h e').1 (List.mem_of_find?_eq_some hfind')
    have heI := List.find?_some hfind'
    rw [Guard.holds_norm] at heI
    cases hfind : row.find? (·.1.holds I) with
    | none => exact absurd heI (List.find?_eq_none.1 hfind e he)
    | some f =>
      have hfI := List.find?_some hfind
      exact hagree e (List.mem_filter.2 ⟨he, heI⟩) f
        (List.mem_filter.2 ⟨List.mem_of_find?_eq_some hfind, hfI⟩)

/-! ## Completed rows -/

theorem proper_completed (h : ∀ e ∈ row, e.1.Proper 1) :
    ∀ e ∈ row.completed sink, e.1.Proper 1 := by
  intro e he
  rcases eq_or_mem_of_mem_completed he with he | rfl
  · exact h e he
  · change row.missing.Proper 1
    unfold missing
    split_ifs with hempty
    · exact .tt
    · refine .not (.or ?_ (List.forall_mem_map.2 h))
      rw [List.length_map]
      exact List.length_pos_iff.2 fun hnil => hempty (List.isEmpty_iff.2 hnil)

end Row

/-! ## What is written -/

/-- The transition with its guard in normal form. -/
def Transition.normed (t : Transition) : Transition := ⟨t.source, t.guard.norm, t.destination⟩

/-- **Transitions that have been written are read in normal form.** -/
theorem readTransitions_map {ts : List Transition} (h : ∀ t ∈ ts, t.guard.Proper 1) :
    readTransitions (ts.map .ofTransition) = .ok (ts.map (·.normed)) := by
  induction ts with
  | nil => rfl
  | cons t ts ih =>
    have hread : Guard.read t.guard.render = .ok t.guard.norm := by
      rw [Guard.read, Guard.parse_render (h t List.mem_cons_self)]
    have hhead : (WrittenTransition.ofTransition t).toTransition = .ok t.normed := by
      rw [WrittenTransition.toTransition, WrittenTransition.ofTransition, hread]
      rfl
    rw [List.map_cons, readTransitions, hhead, ih fun u hu => h u (List.mem_cons_of_mem t hu)]
    rfl

namespace Dfa

variable {d : Dfa} {q : Nat} {row : Row} {I : Fluents}

/-- The transitions of an automaton after they have been written and read. -/
def reread (d : Dfa) : List Transition := d.toAutomaton.transitions.toList.map (·.normed)

theorem mem_reread {t' : Transition} :
    t' ∈ d.reread ↔ ∃ t ∈ d.toAutomaton.transitions, t.normed = t' := by
  simp [reread]

theorem mem_rowOf_reread {e : Guard × Nat} : e ∈ rowOf d.reread q ↔
    ∃ t ∈ d.toAutomaton.transitions, t.source = q ∧ (t.guard.norm, t.destination) = e := by
  simp [rowOf, reread, Transition.normed, and_assoc]

theorem normalizes_reread (hrow : d.table[q]? = some row) :
    Row.Normalizes row (rowOf d.reread q) := by
  intro e'
  rw [mem_rowOf_reread]
  constructor
  · rintro ⟨t, ht, rfl, he'⟩
    obtain ⟨row', hrow', hmem⟩ := mem_transitions.1 ht
    cases hrow.symm.trans hrow'
    exact ⟨_, hmem, he'⟩
  · rintro ⟨e, he, he'⟩
    exact ⟨⟨q, e.1, e.2⟩, mem_transitions.2 ⟨row, hrow, he⟩, rfl, he'⟩

/-- An exclusive row is read as an exclusive row, for no transition is written twice. -/
theorem exclusive_reread (hrow : d.table[q]? = some row) (h : row.Exclusive) :
    (rowOf d.reread q).Exclusive := by
  have hdistinct := @Std.ExtTreeSet.distinct_toList _ Transition.order d.toAutomaton.transitions _
  have hmem : ∀ t ∈ d.toAutomaton.transitions.toList, t.source = q →
      (t.guard, t.destination) ∈ row := by
    intro t ht hq
    obtain ⟨row', hrow', hmem⟩ := mem_transitions.1 (Std.ExtTreeSet.mem_toList.1 ht)
    rw [hq, hrow] at hrow'
    cases hrow'
    exact hmem
  rw [Row.Exclusive, rowOf, reread, List.filter_map, List.map_map, List.pairwise_map]
  refine (hdistinct.filter _).imp_of_mem fun {t u} ht hu hne I => ?_
  rintro ⟨htI, huI⟩
  obtain ⟨ht, htq⟩ := List.mem_filter.1 ht
  obtain ⟨hu, huq⟩ := List.mem_filter.1 hu
  have htq : t.source = q := of_decide_eq_true htq
  have huq : u.source = q := of_decide_eq_true huq
  have heq := h.eq_of_holds (hmem t ht htq) (hmem u hu huq)
    ((t.guard.holds_norm I).symm.trans htI) ((u.guard.holds_norm I).symm.trans huI)
  have htu : t = u := by
    cases t
    cases u
    simp_all
  exact hne (htu ▸ Std.ReflCmp.compare_self)

end Dfa

/-! ## What is read -/

/-- Every row passes the check, and every guard is printed so that it can be read. -/
structure Dfa.Writable (d : Dfa) : Prop where
  checked : ∀ row ∈ d.table, row.conflict? = none
  proper : ∀ row ∈ d.table, ∀ e ∈ row, e.1.Proper 1

namespace Dfa

variable {n initial : Nat} {accepting : States} {ts : List Transition} {d l : Dfa} {I : Fluents}

theorem writable_of_ofTransitions (hd : ofTransitions n initial accepting ts = .ok d)
    (hts : ∀ t ∈ ts, t.guard.Proper 1) : d.Writable where
  checked := conflict?_of_ofTransitions hd
  proper := by
    obtain ⟨-, -, -, -, htab⟩ := ofTransitions_eq_ok_iff.1 hd
    rw [htab, tableOf, List.forall_mem_map]
    intro q _ e he
    obtain ⟨t, ht, rfl⟩ := List.mem_map.1 he
    exact hts t (List.mem_of_mem_filter ht)

/-- What can be written can be written with its sink made explicit. -/
theorem Writable.complete (h : d.Writable) : d.complete.Writable where
  checked := forall_mem_table_complete
    (fun row hrow => Row.conflict?_completed (h.checked row hrow)) rfl
  proper := forall_mem_table_complete
    (fun row hrow => Row.proper_completed (h.proper row hrow)) (List.forall_mem_singleton.2 .tt)

/-- **What has been written is constructed again** from the transitions that are read. -/
theorem Writable.toDfa_toDescription (h : d.Writable) :
    d.toDescription.toDfa = ofTransitions d.size d.initial d.accepting d.reread := by
  have hproper : ∀ t ∈ d.toAutomaton.transitions.toList, t.guard.Proper 1 := by
    intro t ht
    obtain ⟨row, hrow, he⟩ := mem_transitions.1 (Std.ExtTreeSet.mem_toList.1 ht)
    exact h.proper row (List.mem_of_getElem? hrow) _ he
  have haccepting : Std.ExtTreeSet.ofList d.accepting.toList compare = d.accepting := by
    refine Std.ExtTreeSet.ext_mem fun q => ?_
    rw [Std.ExtTreeSet.mem_ofList, List.contains_iff_mem, Std.ExtTreeSet.mem_toList]
  unfold Description.toDfa toDescription
  rw [readTransitions_map hproper, haccepting]
  rfl

/-- **What has been written is read**, with the rows that its transitions have then. -/
theorem Writable.exists_toDfa (h : d.Writable) : ∃ l, d.toDescription.toDfa = .ok l ∧
    l.initial = d.initial ∧ l.accepting = d.accepting ∧ l.table = tableOf d.size d.reread := by
  have hin : ∀ t ∈ d.reread, t.source < d.size ∧ t.destination < d.size := by
    refine List.forall_mem_map.2 fun t ht => ?_
    obtain ⟨row, hrow, he⟩ := mem_transitions.1 (Std.ExtTreeSet.mem_toList.1 ht)
    exact ⟨(List.getElem?_eq_some_iff.1 hrow).1, d.target_lt row (List.mem_of_getElem? hrow) _ he⟩
  have hrows : ∀ q < d.size, (rowOf d.reread q).atoms.size ≤ Row.maxAtoms →
      (rowOf d.reread q).Exclusive := by
    intro q hq hfew
    have hrow : d.table[q]? = some d.table[q] := List.getElem?_eq_getElem hq
    rw [(normalizes_reread hrow).atoms_eq] at hfew
    have hchecked := h.checked d.table[q] (List.getElem_mem hq)
    exact exclusive_reread hrow (Row.conflict?_eq_none_iff.1 hchecked hfew)
  obtain ⟨l, hl⟩ := exists_ofTransitions_iff.2 ⟨⟨d.initial_lt, d.accepting_lt, hin⟩, hrows⟩
  obtain ⟨-, -, hinitial, hacc, htab⟩ := ofTransitions_eq_ok_iff.1 hl
  exact ⟨l, h.toDfa_toDescription.trans hl, hinitial, hacc, htab⟩

/-- **What has been read leads where it did**, if the enabled entries of crowded rows agree. -/
theorem Writable.successor_eq (h : d.Writable) (hl : l.table = tableOf d.size d.reread) {q : Nat}
    (hagree : ∀ row, d.table[q]? = some row → Row.maxAtoms < row.atoms.size →
      ∀ e ∈ row.enabled I, ∀ f ∈ row.enabled I, e.2 = f.2) :
    l.successor q I = d.successor q I := by
  have hlen : l.table.length = d.size := by rw [hl, length_tableOf]
  have hsink : l.sink = d.sink := hlen
  rcases d.successor_cases q I with ⟨rfl, hq⟩ | ⟨row, hrow, hq⟩ | ⟨hlt, hq⟩
  · rw [hq, ← hsink]
    exact if_pos rfl
  · have hmem : row ∈ d.table := List.mem_of_getElem? hrow
    have hsame : ∀ e ∈ row.enabled I, ∀ f ∈ row.enabled I, e.2 = f.2 := by
      by_cases hfew : row.atoms.size ≤ Row.maxAtoms
      · have hexcl := Row.conflict?_eq_none_iff.1 (h.checked row hmem) hfew
        intro e he f hf
        obtain ⟨he, heI⟩ := List.mem_filter.1 he
        obtain ⟨hf, hfI⟩ := List.mem_filter.1 hf
        rw [hexcl.eq_of_holds he hf heI hfI]
      · exact hagree row hrow (not_le.1 hfew)
    have hread : l.table[q]? = some (rowOf d.reread q) := by
      rw [hl]
      exact getElem?_tableOf (List.getElem?_eq_some_iff.1 hrow).1
    rw [hq, successor_of_row hread, (normalizes_reread hrow).elim_find?_eq hsame, hsink]
  · have hnone : l.table[q]? = none := List.getElem?_eq_none (hlen.trans_le hlt.le)
    have hne : q ≠ l.sink := by
      rw [hsink]
      exact hlt.ne'
    rw [hq, successor, if_neg hne, hnone]

end Dfa

/-- **Saving and loading keeps what can be seen.**  Let an automaton be constructed from guards with
    operands under every conjunction and disjunction, and names for atoms.  It is read from what has
    been written of it, and so is its completion.  What is read has the same size, initial state and
    accepting states, and from every state every interpretation leads where it did, but for states
    that mention more than sixteen fluents and therefore are not checked: there an interpretation
    must not enable entries that lead to different states. -/
theorem loading_keeps_successors {n initial : Nat} {accepting : States} {ts : List Transition}
    {d : Dfa} (hd : Dfa.ofTransitions n initial accepting ts = .ok d)
    (hts : ∀ t ∈ ts, t.guard.Proper 1) :
    ∀ a ∈ [d, d.complete], ∃ l, a.toDescription.toDfa = .ok l ∧ l.size = a.size ∧
      l.initial = a.initial ∧ l.accepting = a.accepting ∧
      ∀ q I, (∀ row, a.table[q]? = some row → 16 < row.atoms.size →
        ∀ e ∈ row.enabled I, ∀ f ∈ row.enabled I, e.2 = f.2) →
          l.successor q I = a.successor q I := by
  have hwritable : ∀ a ∈ [d, d.complete], a.Writable := by
    have hd := Dfa.writable_of_ofTransitions hd hts
    simp [hd, hd.complete]
  intro a ha
  obtain ⟨l, hl, hinitial, hacc, htab⟩ := (hwritable a ha).exists_toDfa
  refine ⟨l, hl, ?_, hinitial, hacc, fun q I => (hwritable a ha).successor_eq htab⟩
  rw [Dfa.size, htab, Dfa.length_tableOf]

/-- A state with two entries, of which the second is written first. -/
def transitionsOutOfOrder : List Transition :=
  [⟨0, .or [.atom "a"], 1⟩, ⟨0, .not (.atom "a"), 0⟩]

theorem choice_loaded : ∃ d l,
    Dfa.ofTransitions 2 0 (.ofList [1]) transitionsOutOfOrder = .ok d ∧
    d.toDescription.toDfa = .ok l ∧ l ≠ d ∧ ∀ q I, l.successor q I = d.successor q I := by
  let d : Dfa := ⟨0, .ofList [1], Dfa.tableOf 2 transitionsOutOfOrder, by decide +kernel,
    by simp [Dfa.length_tableOf], by decide +kernel⟩
  have hd : Dfa.ofTransitions 2 0 (.ofList [1]) transitionsOutOfOrder = .ok d := by decide +kernel
  have hname : Guard.IsName "a" := by decide +kernel
  have hproper : ∀ t ∈ transitionsOutOfOrder, t.guard.Proper 1 :=
    List.forall_mem_cons.2 ⟨.or (by decide) (List.forall_mem_singleton.2 (.atom hname)),
      List.forall_mem_singleton.2 (.not (.atom hname))⟩
  obtain ⟨l, hl, -, -, -, hsucc⟩ := loading_keeps_successors hd hproper d List.mem_cons_self
  have hfew : ∀ row ∈ d.table, row.atoms.size ≤ 16 := by decide +kernel
  have hother : d.toDescription.toDfa ≠ .ok d := by decide +kernel
  refine ⟨d, l, hd, hl, fun heq => hother (heq ▸ hl), fun q I => hsucc q I fun row hrow hmany => ?_⟩
  exact absurd (hfew row (List.mem_of_getElem? hrow)) (not_le.2 hmany)

/-- A state with two entries that mentions seventeen fluents. -/
def overlapOnSeventeenFluents : List Transition :=
  [⟨0, .or (["a", "b", "c", "d", "e", "f", "g", "h", "i", "j", "k", "l", "m", "n", "o", "p",
    "q"].map .atom), 1⟩, ⟨0, .atom "a", 2⟩]

/-- **Without the check, what is read may lead elsewhere**: the entries have changed places. -/
theorem crowd_reordered : (∀ t ∈ overlapOnSeventeenFluents, t.guard.Proper 1) ∧
    ∃ d l, Dfa.ofTransitions 3 0 ∅ overlapOnSeventeenFluents = .ok d ∧
      d.toDescription.toDfa = .ok l ∧
      d.successor 0 (.ofList ["a"]) = .ok 1 ∧ l.successor 0 (.ofList ["a"]) = .ok 2 := by
  constructor
  · refine List.forall_mem_cons.2 ⟨.or (by decide) (List.forall_mem_map.2 fun s hs => .atom ?_),
      List.forall_mem_singleton.2 (.atom (by decide +kernel))⟩
    revert s
    decide +kernel
  · let d : Dfa := ⟨0, ∅, Dfa.tableOf 3 overlapOnSeventeenFluents, by decide +kernel, by simp,
      by decide +kernel⟩
    let l : Dfa := ⟨0, ∅, Dfa.tableOf 3 overlapOnSeventeenFluents.reverse, by decide +kernel,
      by simp, by decide +kernel⟩
    refine ⟨d, l, ?_, ?_, ?_, ?_⟩ <;> decide +kernel

/-! ## Guards in normal form -/

theorem Transition.normed_eq {t : Transition} (h : t.guard.Proper 2) : t.normed = t := by
  rw [normed, h.norm_eq]

namespace Dfa

variable {d l : Dfa}

/-- Guards in normal form are read as they have been written. -/
theorem mem_reread_of_proper (h : ∀ t ∈ d.toAutomaton.transitions, t.guard.Proper 2)
    {t : Transition} : t ∈ d.reread ↔ t ∈ d.toAutomaton.transitions := by
  rw [mem_reread]
  constructor
  · rintro ⟨u, hu, rfl⟩
    rwa [Transition.normed_eq (h u hu)]
  · exact fun ht => ⟨t, ht, Transition.normed_eq (h t ht)⟩

/-- The written form consists of the size, the two kinds of states and the transitions. -/
theorem toDescription_congr (hsize : l.size = d.size) (hinitial : l.initial = d.initial)
    (hacc : l.accepting = d.accepting)
    (hts : l.toAutomaton.transitions = d.toAutomaton.transitions) :
    l.toDescription = d.toDescription := by
  rw [toDescription, toDescription, hsize, hinitial, hacc, hts]

end Dfa

/-- **The written form is a fixed point after one round.**  Let an automaton be constructed from
    guards as the parser gives them: with two operands or more under every conjunction and
    disjunction, and names for atoms.  It is read from what has been written of it, also where a
    state mentions too many fluents to be checked.  What is read has the same size, initial state,
    accepting states and transitions, and is written in the same way.  Reading that again gives the
    same automaton, the order of its rows included. -/
theorem written_form_is_fixed {n initial : Nat} {accepting : States} {ts : List Transition}
    {d : Dfa} (hd : Dfa.ofTransitions n initial accepting ts = .ok d)
    (hts : ∀ t ∈ ts, t.guard.Proper 2) : ∃ l, d.toDescription.toDfa = .ok l ∧
      l.size = d.size ∧ l.initial = d.initial ∧ l.accepting = d.accepting ∧
      l.toAutomaton.transitions = d.toAutomaton.transitions ∧
      l.toDescription = d.toDescription ∧ l.toDescription.toDfa = .ok l := by
  have hwritable := Dfa.writable_of_ofTransitions hd fun t ht => (hts t ht).mono one_le_two
  have hproper : ∀ t ∈ d.toAutomaton.transitions, t.guard.Proper 2 := fun t ht =>
    hts t ((Dfa.mem_transitions_of_ofTransitions hd).1 ht)
  obtain ⟨l, hl, hinitial, hacc, htab⟩ := hwritable.exists_toDfa
  have hsize : l.size = d.size := by rw [Dfa.size, htab, Dfa.length_tableOf]
  have htransitions : l.toAutomaton.transitions = d.toAutomaton.transitions := by
    refine Std.ExtTreeSet.ext_mem fun t => ?_
    rw [hwritable.toDfa_toDescription] at hl
    rw [Dfa.mem_transitions_of_ofTransitions hl, Dfa.mem_reread_of_proper hproper]
  have hsame := Dfa.toDescription_congr hsize hinitial hacc htransitions
  exact ⟨l, hl, hsize, hinitial, hacc, htransitions, hsame, hsame ▸ hl⟩

/-- A state that is not checked, with entries out of order of which one is repeated. -/
def repeatedTransitions : List Transition :=
  [⟨0, .or (["a", "b", "c", "d", "e", "f", "g", "h", "i", "j", "k", "l", "m", "n", "o", "p",
    "q"].map .atom), 1⟩, ⟨0, .not (.atom "a"), 0⟩, ⟨0, .not (.atom "a"), 0⟩]

/-- Reading what has been written puts the entries in order, each once, and for good. -/
theorem repeated_loaded : (∀ t ∈ repeatedTransitions, t.guard.Proper 2) ∧
    ∃ d l, Dfa.ofTransitions 2 0 (.ofList [1]) repeatedTransitions = .ok d ∧
      d.toDescription.toDfa = .ok l ∧ l.listing = (repeatedTransitions.take 2).reverse ∧
      l.toDescription = d.toDescription ∧ l.toDescription.toDfa = .ok l := by
  have hnot : (Guard.not (.atom "a")).Proper 2 := .not (.atom (by decide +kernel))
  have hproper : ∀ t ∈ repeatedTransitions, t.guard.Proper 2 := by
    refine List.forall_mem_cons.2 ⟨.or (by decide) (List.forall_mem_map.2 fun s hs => .atom ?_),
      List.forall_mem_cons.2 ⟨hnot, List.forall_mem_singleton.2 hnot⟩⟩
    revert s
    decide +kernel
  let d : Dfa := ⟨0, .ofList [1], Dfa.tableOf 2 repeatedTransitions, by decide +kernel,
    by simp [Dfa.length_tableOf], by decide +kernel⟩
  let l : Dfa := ⟨0, .ofList [1], Dfa.tableOf 2 (repeatedTransitions.take 2).reverse,
    by decide +kernel, by simp [Dfa.length_tableOf], by decide +kernel⟩
  have hd : Dfa.ofTransitions 2 0 (.ofList [1]) repeatedTransitions = .ok d := by decide +kernel
  have hl : d.toDescription.toDfa = .ok l := by decide +kernel
  obtain ⟨l', hl', -, -, -, -, hsame, hagain⟩ := written_form_is_fixed hd hproper
  cases hl.symm.trans hl'
  exact ⟨hproper, d, l, hd, hl, by decide +kernel, hsame, hagain⟩

end GoalAutomata
