/-
  Looking up a transition of a known graph, and listing them.

  A row maps labels, which are interpretations restricted to the alphabet, to
  states.  Listed, an entry is guarded by the minterm of its label, and a guard is
  evaluated on interpretations that are not restricted.  A minterm holds of those
  interpretations that agree with it on the alphabet, so it holds of one with the
  label that the interpretation has, and of no other: among the listed transitions
  of a state it finds the entry that is looked up.  This needs that every label is
  one, as it is if the calls of `record` take their labels from `label`, whatever
  states they start from, and whether they succeed or not.

  * `Guard.holds_minterm_iff`: where a minterm holds;
  * `LabelMap.filter_toList`: the entries of a row with one label;
  * `KnownGraph.WellLabelled`: what the calls preserve;
  * `lookup_agrees_with_listing`: both after any calls.
-/
import GoalAutomata.Proofs.KnownGraph.Paths

namespace GoalAutomata

/-- **A minterm holds where the fluents of its alphabet are as they were.** -/
theorem Guard.holds_minterm_iff {L A I : Fluents} :
    (minterm L A).holds I = true ↔ I.restrict A = L.restrict A := by
  rw [holds_minterm, List.all_eq_true]
  constructor
  · intro h
    refine Std.ExtTreeSet.ext_mem fun s => ?_
    rw [Fluents.mem_restrict, Fluents.mem_restrict]
    refine and_congr_left fun hs => ?_
    have hsame := beq_iff_eq.1 (h s (Std.ExtTreeSet.mem_toList.2 hs))
    rw [← Std.ExtTreeSet.contains_iff_mem, ← Std.ExtTreeSet.contains_iff_mem, hsame]
  · intro h s hs
    have hs : s ∈ A := Std.ExtTreeSet.mem_toList.1 hs
    have hmem : s ∈ I ↔ s ∈ L := by
      have hboth : s ∈ I.restrict A ↔ s ∈ L.restrict A := by rw [h]
      rw [Fluents.mem_restrict, Fluents.mem_restrict] at hboth
      exact (and_congr_left_iff.1 hboth) hs
    rw [beq_iff_eq, Bool.eq_iff_iff, Std.ExtTreeSet.contains_iff_mem,
      Std.ExtTreeSet.contains_iff_mem, hmem]

theorem Fluents.restrict_restrict (I A : Fluents) : (I.restrict A).restrict A = I.restrict A := by
  refine Std.ExtTreeSet.ext_mem fun s => ?_
  rw [mem_restrict, mem_restrict, and_assoc, and_self]

/-- A row has one entry for a label, or none. -/
theorem LabelMap.filter_toList (m : LabelMap) (label : Fluents) :
    m.toList.filter (fun e => e.1 = label) = (m[label]?.map fun r => (label, r)).toList := by
  have hdistinct : m.toList.Pairwise fun e f => ¬ Fluents.order e.1 f.1 = .eq :=
    Std.ExtTreeMap.distinct_keys_toList
  have hnodup : (m.toList.filter fun e => e.1 = label).Nodup := by
    refine List.Nodup.filter _ (hdistinct.imp fun {e f} hne heq => hne ?_)
    rw [heq]
    exact Std.ReflCmp.compare_self
  have hmem : ∀ e, e ∈ m.toList.filter (fun e => e.1 = label) ↔
      e.1 = label ∧ m[label]? = some e.2 := by
    rintro ⟨l, r⟩
    rw [List.mem_filter, Std.ExtTreeMap.mem_toList_iff_getElem?_eq_some, decide_eq_true_iff]
    constructor
    · rintro ⟨hr, rfl⟩
      exact ⟨rfl, hr⟩
    · rintro ⟨rfl, hr⟩
      exact ⟨hr, rfl⟩
  cases hrow : m[label]? with
  | none =>
    refine List.eq_nil_iff_forall_not_mem.2 fun e he => ?_
    rw [hmem, hrow] at he
    cases he.2
  | some r =>
    refine List.perm_singleton.1 ((List.perm_ext_iff_of_nodup hnodup (List.nodup_singleton _)).2 ?_)
    rintro ⟨l, t⟩
    rw [hmem, hrow, List.mem_singleton, Prod.mk.injEq, Option.some.injEq, eq_comm (a := r)]

namespace KnownGraph

variable {C : Type} {G H : KnownGraph C} {q : Nat}

/-! ## Labels -/

/-- There is room for what is known, and every label is one. -/
structure WellLabelled (G : KnownGraph C) : Prop where
  size_le : G.size ≤ G.capacity
  labels : ∀ q l r, G.Observed q l r → G.label l = l

theorem wellLabelled_new (initial : C) (accepting failed : Bool) (alphabet : Fluents)
    (capacity : Nat) : WellLabelled (new initial accepting failed alphabet capacity) where
  size_le := Nat.le_max_right _ _
  labels _ _ _ h := absurd h not_observed_new

/-- **The transitions that are listed and enabled** are those that the label is looked up for. -/
theorem WellLabelled.filter_transitions (h : G.WellLabelled) (q : Nat) (I : Fluents) :
    ((G.row q).toList.map fun e => ⟨q, .minterm e.1 G.alphabet, e.2⟩).filter
      (fun t : Transition => t.guard.holds I) =
    ((G.row q)[G.label I]?.map fun r =>
      ⟨q, .minterm (G.label I) G.alphabet, r⟩).toList := by
  have hlabel : ∀ e ∈ (G.row q).toList,
      (Guard.minterm e.1 G.alphabet).holds I = decide (e.1 = G.label I) := by
    intro e he
    have hobs : G.Observed q e.1 e.2 := Std.ExtTreeMap.mem_toList_iff_getElem?_eq_some.1 he
    have hself : e.1.restrict G.alphabet = e.1 := h.labels q e.1 e.2 hobs
    rw [Bool.eq_iff_iff, Guard.holds_minterm_iff, hself, decide_eq_true_iff, label, eq_comm]
  rw [List.filter_map, Function.comp_def, List.filter_congr hlabel, LabelMap.filter_toList]
  cases (G.row q)[G.label I]? <;> rfl

/-! ## Lookup and listing -/

/-- Both fail for what is neither a state nor the sink. -/
theorem successor_eq_error_iff {I : Fluents} {e : Error} :
    G.successor q I = .error e ↔ q ≠ G.capacity ∧ G.size ≤ q ∧ e = .unknownState q := by
  unfold successor
  split_ifs with hcap hnew
  · simp [hcap]
  · simp [hcap, hnew, eq_comm]
  · simp [hnew]

theorem transitionsFrom_eq_error_iff {e : Error} :
    G.transitionsFrom q = .error e ↔ q ≠ G.capacity ∧ G.size ≤ q ∧ e = .unknownState q := by
  unfold transitionsFrom
  split_ifs with hcap hnew
  · simp [hcap]
  · simp [hcap, hnew, eq_comm]
  · simp [hnew]

/-- Looking up finds what is listed and enabled; otherwise it leads to the sink. -/
theorem WellLabelled.exists_enabled (h : G.WellLabelled) {ts : List Transition}
    (hts : G.transitionsFrom q = .ok ts) (I : Fluents) : ∃ t? : Option Transition,
      ts.filter (·.guard.holds I) = t?.toList ∧
      G.successor q I = .ok (t?.elim G.capacity (·.destination)) := by
  rcases (transitionsFrom_eq_ok_iff h.size_le).1 hts with ⟨rfl, rfl⟩ | ⟨hq, rfl⟩
  · exact ⟨some ⟨G.capacity, .tt, G.capacity⟩, rfl, if_pos rfl⟩
  · refine ⟨_, h.filter_transitions q I, ?_⟩
    rw [successor_of_lt hq h.size_le]
    cases (G.row q)[G.label I]? <;> rfl

/-! ## Any calls -/

section Calls

variable [DecidableEq C]

/-- A call of `record`, with an interpretation instead of a label. -/
structure Call (C : Type) where
  source : Nat
  input : Fluents
  destination : C
  accepting : Bool
  failed : Bool

/-- The graph that a call leaves, whether it succeeds or not. -/
def call (G : KnownGraph C) (c : Call C) : KnownGraph C :=
  (G.record c.source (G.label c.input) c.destination c.accepting c.failed :
    Outcome Empty _ _).state

/-- The graph after calls, one after the other. -/
def afterCalls (G : KnownGraph C) (cs : List (Call C)) : KnownGraph C := cs.foldl call G

/-- **A call keeps labels what they are**, from whatever state. -/
theorem WellLabelled.call (h : G.WellLabelled) (c : Call C) : (G.call c).WellLabelled := by
  unfold KnownGraph.call
  rcases record_cases G c.source (G.label c.input) c.destination c.accepting c.failed with
    ⟨d, H, hr⟩ | ⟨-, -, hr⟩
  · obtain ⟨halph, hobs⟩ := observed_of_record hr
    rw [hr]
    refine ⟨(recorded_of_record hr).size_le h.size_le, fun q l r hl => ?_⟩
    rw [label, Outcome.state_done, halph]
    rcases (hobs q l r).1 hl with hold | ⟨-, -, rfl, -⟩
    · exact h.labels q l r hold
    · exact Fluents.restrict_restrict _ _
  · rw [hr]
    exact h

theorem WellLabelled.afterCalls (h : G.WellLabelled) (cs : List (Call C)) :
    (G.afterCalls cs).WellLabelled := by
  induction cs generalizing G with
  | nil => exact h
  | cons c cs ih => exact ih (h.call c)

end Calls

end KnownGraph

/-- **Lookup and listing agree.**  A minterm holds of those interpretations that have the same
    fluents of the alphabet as its own, whatever the alphabet.  So after any calls of `record` with
    labels of interpretations, from whatever states, and whether they succeed or not: what is
    neither a state nor the sink has no successors and no transitions, with the same error.  From
    every other, an interpretation enables at most one of the transitions that are listed.  It leads
    to the destination of that, and if there is none to the sink. -/
theorem lookup_agrees_with_listing :
    (∀ L A I : Fluents, (Guard.minterm L A).holds I = true ↔ I.restrict A = L.restrict A) ∧
    ∀ {C : Type} [DecidableEq C] (initial : C) (accepting failed : Bool) (alphabet : Fluents)
      (capacity : Nat) (cs : List (KnownGraph.Call C)),
      let G := (KnownGraph.new initial accepting failed alphabet capacity).afterCalls cs
      ∀ q I, (∀ e, G.successor q I = .error e ↔ G.transitionsFrom q = .error e) ∧
        ((∃ e, G.transitionsFrom q = .error e) ↔ G.size ≤ q ∧ q ≠ G.toAutomaton.sink) ∧
        ∀ ts, G.transitionsFrom q = .ok ts → ∃ t? : Option Transition,
          ts.filter (·.guard.holds I) = t?.toList ∧
          G.successor q I = .ok (t?.elim G.toAutomaton.sink (·.destination)) := by
  refine ⟨fun L A I => Guard.holds_minterm_iff, ?_⟩
  intro C _ initial accepting failed alphabet capacity cs G q I
  have hG : G.WellLabelled := (KnownGraph.wellLabelled_new ..).afterCalls cs
  refine ⟨fun e => ?_, ?_, fun ts hts => hG.exists_enabled hts I⟩
  · rw [KnownGraph.successor_eq_error_iff, KnownGraph.transitionsFrom_eq_error_iff]
  · simp only [KnownGraph.transitionsFrom_eq_error_iff]
    exact ⟨fun ⟨_, hcap, hq, _⟩ => ⟨hq, hcap⟩, fun ⟨hq, hcap⟩ => ⟨_, hcap, hq, rfl⟩⟩

/-- Two calls, of which the second one fails, for there is no room.  Where the first one has been
    made with `a` and `b`, only `a` matters. -/
theorem loop_looked_up :
    let G := (KnownGraph.new 0 false false (.ofList ["a"]) 1).afterCalls
      [⟨0, .ofList ["a", "b"], 0, false, false⟩, ⟨0, .ofList ["b"], 1, true, false⟩]
    G.transitionsFrom 0 = .ok [⟨0, .atom "a", 0⟩] ∧
      G.successor 0 (.ofList ["a", "c"]) = .ok 0 ∧ G.successor 0 (.ofList ["b"]) = .ok 1 := by
  intro G
  have hts : G.transitionsFrom 0 = .ok [⟨0, .atom "a", 0⟩] := by decide +kernel
  have hagree : ∀ I, ∃ t? : Option Transition,
      [⟨0, .atom "a", 0⟩].filter (·.guard.holds I) = t?.toList ∧
        G.successor 0 I = .ok (t?.elim 1 (·.destination)) := fun I =>
    (lookup_agrees_with_listing.2 0 false false (.ofList ["a"]) 1 _ 0 I).2.2 _ hts
  obtain ⟨t?, hsome, hleads⟩ := hagree (.ofList ["a", "c"])
  obtain ⟨u?, hnone, hsinks⟩ := hagree (.ofList ["b"])
  have hsome' : t?.toList = [⟨0, .atom "a", 0⟩] := hsome.symm.trans (by decide +kernel)
  have hnone' : u?.toList = [] := hnone.symm.trans (by decide +kernel)
  rw [Option.toList_eq_singleton_iff] at hsome'
  rw [Option.toList_eq_nil_iff] at hnone'
  subst hsome' hnone'
  exact ⟨hts, hleads, hsinks⟩

end GoalAutomata
