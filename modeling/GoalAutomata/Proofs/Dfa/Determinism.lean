/-
  What the checked construction accepts.

  A row is exclusive if no interpretation enables two of its entries
  (`Row.Exclusive`).  The construction tries the interpretations over the atoms of a
  row, by increasing size.  They stand for all interpretations: cutting one down to
  the atoms enables the same entries and makes it no larger.  So a row with few
  enough atoms passes exactly if it is exclusive, and the conflict that is found has
  the least size of all.

  * `Row.conflict?_eq_none_iff`, `Row.conflict?_eq_some`: the check of one row;
  * `Dfa.ofTransitions_eq_ok_iff`: the check of a table;
  * `construction_is_exact`: both, for any list of transitions.
-/
import GoalAutomata.Proofs.Dfa.Alphabet
import Mathlib.Data.List.Pairwise
import Mathlib.Order.Bounds.Basic

namespace GoalAutomata

theorem pairwise_length_subsets {α : Type} (xs : List α) :
    (subsets xs).Pairwise fun ys zs => ys.length ≤ zs.length := by
  rw [subsets, List.pairwise_flatMap]
  constructor
  · intro k _
    have hall : (choose k xs).Pairwise fun _ _ => True := List.pairwise_of_forall fun _ _ => trivial
    refine hall.imp_of_mem fun {ys zs} hys hzs _ => ?_
    rw [(mem_choose.1 hys).2, (mem_choose.1 hzs).2]
  · refine List.pairwise_lt_range.imp fun {j k} hjk ys hys zs hzs => ?_
    rw [(mem_choose.1 hys).2, (mem_choose.1 hzs).2]
    exact hjk.le

namespace Row

variable {row : Row} {I J : Fluents} {Is : List Fluents}

/-- No interpretation enables two entries. -/
def Exclusive (row : Row) : Prop :=
  row.Pairwise fun e f => ∀ I, ¬ (e.1.holds I = true ∧ f.1.holds I = true)

theorem exclusive_iff : row.Exclusive ↔ ∀ I, (row.enabled I).length ≤ 1 := by
  have hone : ∀ es : Row, es.Pairwise (fun _ _ => False) ↔ es.length ≤ 1 := by
    intro es
    match es with
    | [] => simp
    | [e] => simp
    | e :: f :: es =>
      have htwo : ¬ (e :: f :: es).length ≤ 1 := by simp
      refine iff_of_false (fun h => ?_) htwo
      exact List.rel_of_pairwise_cons h List.mem_cons_self
  have hswap : row.Exclusive ↔
      ∀ I, row.Pairwise fun e f => e.1.holds I = true → f.1.holds I = true → False := by
    simp only [Exclusive, List.pairwise_iff_getElem, not_and]
    constructor
    · intro h I i j hi hj hij
      exact h i j hi hj hij I
    · intro h i j hi hj hij I
      exact h I i j hi hj hij
  rw [hswap]
  exact forall_congr' fun I => by rw [enabled, ← hone, List.pairwise_filter]

/-- At most one entry of an exclusive row is enabled. -/
theorem Exclusive.eq_of_holds (h : row.Exclusive) {e f : Guard × Nat} (he : e ∈ row) (hf : f ∈ row)
    (heI : e.1.holds I = true) (hfI : f.1.holds I = true) : e = f := by
  have hsymm : Std.Symm fun e f : Guard × Nat =>
      ∀ I, ¬ (e.1.holds I = true ∧ f.1.holds I = true) :=
    ⟨fun _ _ hno I hboth => hno I hboth.symm⟩
  by_contra hne
  exact List.Pairwise.forall h he hf hne I ⟨heI, hfI⟩

/-- The entry that is taken from an exclusive row is the one that is enabled. -/
theorem Exclusive.find?_eq_some_iff (h : row.Exclusive) {e : Guard × Nat} :
    row.find? (·.1.holds I) = some e ↔ e ∈ row ∧ e.1.holds I = true := by
  constructor
  · intro hfind
    have heI := List.find?_some hfind
    exact ⟨List.mem_of_find?_eq_some hfind, heI⟩
  · rintro ⟨he, heI⟩
    have hsome : (row.find? (·.1.holds I)).isSome := List.find?_isSome.2 ⟨e, he, heI⟩
    obtain ⟨f, hf⟩ := Option.isSome_iff_exists.1 hsome
    have hfI := List.find?_some hf
    rw [hf, h.eq_of_holds (List.mem_of_find?_eq_some hf) he hfI heI]

/-! ## The interpretations over the atoms -/

theorem enabled_restrict (row : Row) (I : Fluents) :
    row.enabled (I.restrict row.atoms) = row.enabled I := by
  refine List.filter_congr fun e he => holds_congr (fun s hs => ?_) he
  rw [Fluents.mem_restrict]
  exact and_iff_left hs

theorem interpretations?_eq_none (h : row.interpretations? = none) : maxAtoms < row.atoms.size := by
  unfold interpretations? at h
  split_ifs at h with hfew
  exact not_le.1 hfew

theorem size_atoms_le (h : row.interpretations? = some Is) : row.atoms.size ≤ maxAtoms := by
  unfold interpretations? at h
  split_ifs at h with hfew
  exact hfew

theorem mem_interpretations (h : row.interpretations? = some Is) :
    J ∈ Is ↔ ∀ s ∈ J, s ∈ row.atoms := by
  unfold interpretations? at h
  split_ifs at h
  cases h
  simp only [List.mem_map, mem_subsets]
  constructor
  · rintro ⟨ys, hys, rfl⟩ s hs
    have hmem : s ∈ ys := by simpa [Std.ExtTreeSet.mem_ofList] using hs
    exact Std.ExtTreeSet.mem_toList.1 (hys.subset hmem)
  · intro hJ
    refine ⟨row.atoms.toList.filter (J.contains ·), List.filter_sublist, ?_⟩
    refine Std.ExtTreeSet.ext_mem fun s => ?_
    simp only [Std.ExtTreeSet.mem_ofList, List.contains_iff_mem, List.mem_filter,
      Std.ExtTreeSet.mem_toList, Std.ExtTreeSet.contains_iff_mem]
    exact and_iff_right_of_imp (hJ s)

/-- They come by increasing size, for none of them lists an atom twice. -/
theorem pairwise_size_interpretations (h : row.interpretations? = some Is) :
    Is.Pairwise fun I J => I.size ≤ J.size := by
  unfold interpretations? at h
  split_ifs at h
  cases h
  have hsize : ∀ ys ∈ subsets row.atoms.toList,
      (Std.ExtTreeSet.ofList ys compare).size = ys.length := by
    intro ys hys
    have hdistinct := @Std.ExtTreeSet.distinct_toList String compare row.atoms _
    exact Std.ExtTreeSet.size_ofList (hdistinct.sublist (mem_subsets.1 hys))
  rw [List.pairwise_map]
  refine List.Pairwise.imp_of_mem (fun {ys zs} hys hzs hle => ?_) (pairwise_length_subsets _)
  rw [hsize ys hys, hsize zs hzs]
  exact hle

/-! ## The check of a row -/

/-- **A row passes the check if it has too many atoms or is exclusive**, and only then. -/
theorem conflict?_eq_none_iff :
    row.conflict? = none ↔ (row.atoms.size ≤ maxAtoms → row.Exclusive) := by
  rw [exclusive_iff]
  unfold conflict?
  split_ifs with hlen
  · -- a row with at most one entry never enables two
    have hle : ∀ I, (row.enabled I).length ≤ 1 := fun I =>
      (List.length_filter_le _ _).trans (Nat.lt_succ_iff.1 hlen)
    simp [hle]
  · cases hIs : row.interpretations? with
    | none =>
      have hmany := interpretations?_eq_none hIs
      simp [hmany]
    | some Is =>
      simp only [Option.bind_some, List.find?_eq_none, decide_eq_true_eq, not_lt,
        size_atoms_le hIs, true_imp_iff]
      constructor
      · intro hall I
        rw [← enabled_restrict]
        exact hall _ ((mem_interpretations hIs).2 fun s hs => (Fluents.mem_restrict.1 hs).2)
      · intro hall I _
        exact hall I

/-- **The conflict that is found enables two entries, and no smaller interpretation does.** -/
theorem conflict?_eq_some (h : row.conflict? = some I) : row.atoms.size ≤ maxAtoms ∧
    1 < (row.enabled I).length ∧ ∀ J, 1 < (row.enabled J).length → I.size ≤ J.size := by
  unfold conflict? at h
  split_ifs at h
  cases hIs : row.interpretations? with
  | none => simp [hIs] at h
  | some Is =>
    rw [hIs, Option.bind_some] at h
    obtain ⟨hI, before, after, hsplit, hbefore⟩ := List.find?_eq_some_iff_append.1 h
    refine ⟨size_atoms_le hIs, of_decide_eq_true hI, fun J hJ => ?_⟩
    -- cut down to the atoms, `J` is among the candidates, and not before `I`
    have hcut : (J.restrict row.atoms).size ≤ J.size := Std.ExtTreeSet.size_filter_le_size
    have hmem : J.restrict row.atoms ∈ Is :=
      (mem_interpretations hIs).2 fun s hs => (Fluents.mem_restrict.1 hs).2
    have hsorted := pairwise_size_interpretations hIs
    rw [hsplit] at hmem hsorted
    rcases List.mem_append.1 hmem with hmem | hmem
    · have hno := hbefore _ hmem
      rw [enabled_restrict] at hno
      simp [hJ] at hno
    · rcases List.mem_cons.1 hmem with heq | hmem
      · rwa [heq] at hcut
      · have hle := (List.pairwise_cons.1 (List.pairwise_append.1 hsorted).2.1).1 _ hmem
        exact hle.trans hcut

end Row

/-! ## The check of a table -/

namespace Dfa

variable {n initial q : Nat} {accepting : States} {ts : List Transition} {d : Dfa} {I : Fluents}

theorem mem_rowOf {e : Guard × Nat} : e ∈ rowOf ts q ↔ ⟨q, e.1, e.2⟩ ∈ ts := by
  simp only [rowOf, List.mem_map, List.mem_filter, decide_eq_true_eq]
  constructor
  · rintro ⟨t, ⟨ht, rfl⟩, rfl⟩
    exact ht
  · exact fun h => ⟨_, ⟨h, rfl⟩, rfl⟩

theorem getElem?_tableOf (hq : q < n) : (tableOf n ts)[q]? = some (rowOf ts q) := by
  rw [tableOf, List.getElem?_map, List.getElem?_range hq, Option.map_some]

theorem length_tableOf : (tableOf n ts).length = n := by
  rw [tableOf, List.length_map, List.length_range]

theorem getElem?_tableOf_eq_none (hq : n ≤ q) : (tableOf n ts)[q]? = none :=
  List.getElem?_eq_none (length_tableOf.trans_le hq)

/-- The parts are put together if their states are in range; otherwise the error tells which is
    not, and never of a conflict. -/
theorem assemble_cases (n initial : Nat) (accepting : States) (ts : List Transition) :
    (∃ e, assemble n initial accepting ts = .error e ∧ (∀ q I, e ≠ .ambiguous q I) ∧
      ¬ (initial < n ∧ (∀ q ∈ accepting, q < n) ∧ ∀ t ∈ ts, t.source < n ∧ t.destination < n)) ∨
    ∃ d, assemble n initial accepting ts = .ok d ∧
      (initial < n ∧ (∀ q ∈ accepting, q < n) ∧ ∀ t ∈ ts, t.source < n ∧ t.destination < n) ∧
      d.initial = initial ∧ d.accepting = accepting ∧ d.table = tableOf n ts := by
  unfold assemble
  split_ifs with hi
  · exact Or.inl ⟨_, rfl, by simp, fun h => absurd h.1 (not_lt.2 hi)⟩
  · split
    · next q hq =>
      refine Or.inl ⟨_, rfl, by simp, fun h => ?_⟩
      have hmem := Std.ExtTreeSet.mem_toList.1 (List.mem_of_find?_eq_some hq)
      have hge := List.find?_some hq
      exact absurd (h.2.1 q hmem) (not_lt.2 (of_decide_eq_true hge))
    · next hacc =>
      split
      · next t ht =>
        refine Or.inl ⟨_, rfl, by simp, fun h => ?_⟩
        have hout := List.find?_some ht
        have hin := h.2.2 t (List.mem_of_find?_eq_some ht)
        simp [inRange, hin] at hout
      · next hts =>
        refine Or.inr ⟨_, rfl, ⟨not_le.1 hi, fun q hq => ?_, fun t ht => ?_⟩, rfl, rfl, rfl⟩
        · have hlt := List.find?_eq_none.1 hacc q (Std.ExtTreeSet.mem_toList.2 hq)
          simpa using hlt
        · have hin := List.find?_eq_none.1 hts t ht
          simpa [inRange] using hin

theorem firstConflict?_eq_none_iff :
    d.firstConflict? = none ↔ ∀ row ∈ d.table, row.conflict? = none := by
  simp only [firstConflict?, List.findSome?_eq_none_iff, List.mem_range, Option.map_eq_none_iff]
  constructor
  · intro h row hrow
    obtain ⟨q, hq, rfl⟩ := List.mem_iff_getElem.1 hrow
    have hnone := h q hq
    rwa [List.getElem?_eq_getElem hq] at hnone
  · intro h q hq
    have hlt : q < d.table.length := hq
    rw [List.getElem?_eq_getElem hlt]
    exact h _ (List.getElem_mem hlt)

/-- The first conflict is that of the first row that has one. -/
theorem firstConflict?_eq_some (h : d.firstConflict? = some (q, I)) :
    (d.table[q]?.bind Row.conflict?) = some I ∧ ∀ p < q, d.table[p]?.bind Row.conflict? = none := by
  obtain ⟨before, p, after, hsplit, hp, hbefore⟩ := List.findSome?_eq_some_iff.1 h
  obtain ⟨J, hJ, hpair⟩ := Option.map_eq_some_iff.1 hp
  cases hpair
  refine ⟨hJ, fun r hr => ?_⟩
  have hsorted : (List.range d.size).Pairwise (· < ·) := List.pairwise_lt_range
  have hlt : q < d.size := List.mem_range.1 (by rw [hsplit]; simp)
  have hmem : r ∈ List.range d.size := List.mem_range.2 (hr.trans hlt)
  rw [hsplit] at hmem hsorted
  rcases List.mem_append.1 hmem with hmem | hmem
  · exact Option.map_eq_none_iff.1 (hbefore r hmem)
  · -- nothing from `q` on is below `q`
    rcases List.mem_cons.1 hmem with rfl | hmem
    · exact absurd hr (lt_irrefl _)
    · have hgt := List.rel_of_pairwise_cons (List.pairwise_append.1 hsorted).2.1 hmem
      exact absurd hr hgt.not_gt

/-- **The checked construction succeeds where all states are in range and every row passes.** -/
theorem ofTransitions_eq_ok_iff : ofTransitions n initial accepting ts = .ok d ↔
    (initial < n ∧ (∀ q ∈ accepting, q < n) ∧ ∀ t ∈ ts, t.source < n ∧ t.destination < n) ∧
    (∀ q < n, (rowOf ts q).conflict? = none) ∧
    d.initial = initial ∧ d.accepting = accepting ∧ d.table = tableOf n ts := by
  have hrows : ∀ a : Dfa, a.table = tableOf n ts →
      (a.firstConflict? = none ↔ ∀ q < n, (rowOf ts q).conflict? = none) := by
    intro a ha
    simp [firstConflict?_eq_none_iff, ha, tableOf]
  unfold ofTransitions
  rcases assemble_cases n initial accepting ts with ⟨e, he, -, hout⟩ | ⟨a, ha, hin, hi, hacc, htab⟩
  · rw [he]
    simp [hout]
  · rw [ha]
    cases hconf : a.firstConflict? with
    | some p =>
      have hno : ¬ ∀ q < n, (rowOf ts q).conflict? = none := by
        rw [← hrows a htab, hconf]
        exact Option.some_ne_none p
      simp [hconf, hno]
    | none =>
      have hall := (hrows a htab).1 hconf
      simp only [hconf, Except.ok.injEq]
      constructor
      · rintro rfl
        exact ⟨hin, hall, hi, hacc, htab⟩
      · rintro ⟨-, -, hi', hacc', htab'⟩
        cases a
        cases d
        simp_all

theorem exists_ofTransitions_iff : (∃ d, ofTransitions n initial accepting ts = .ok d) ↔
    (initial < n ∧ (∀ q ∈ accepting, q < n) ∧ ∀ t ∈ ts, t.source < n ∧ t.destination < n) ∧
    ∀ q < n, (rowOf ts q).atoms.size ≤ Row.maxAtoms → (rowOf ts q).Exclusive := by
  constructor
  · rintro ⟨d, hd⟩
    obtain ⟨hin, hrows, -⟩ := ofTransitions_eq_ok_iff.1 hd
    exact ⟨hin, fun q hq => Row.conflict?_eq_none_iff.1 (hrows q hq)⟩
  · rintro ⟨hin, hrows⟩
    rcases assemble_cases n initial accepting ts with ⟨_, -, -, hout⟩ | ⟨d, -, -, hparts⟩
    · exact absurd hin hout
    · exact ⟨d, ofTransitions_eq_ok_iff.2
        ⟨hin, fun q hq => Row.conflict?_eq_none_iff.2 (hrows q hq), hparts⟩⟩

theorem ofTransitions_eq_ambiguous
    (h : ofTransitions n initial accepting ts = .error (.ambiguous q I)) :
    q < n ∧ (rowOf ts q).conflict? = some I ∧ ∀ p < q, (rowOf ts p).conflict? = none := by
  unfold ofTransitions at h
  rcases assemble_cases n initial accepting ts with ⟨e, he, hne, -⟩ | ⟨a, ha, -, -, -, htab⟩
  · rw [he] at h
    exact absurd (Except.error.inj h) (hne q I)
  · rw [ha] at h
    cases hconf : a.firstConflict? with
    | none => simp [hconf] at h
    | some p =>
      simp only [hconf, Except.error.injEq, Error.ambiguous.injEq] at h
      obtain ⟨rfl, rfl⟩ := h
      obtain ⟨hhere, hbefore⟩ := firstConflict?_eq_some hconf
      have hlt : p.1 < n := by
        by_contra hge
        have hnone : a.table[p.1]? = none := by
          rw [htab, getElem?_tableOf_eq_none (not_lt.1 hge)]
        simp [hnone] at hhere
      rw [htab, getElem?_tableOf hlt] at hhere
      refine ⟨hlt, hhere, fun r hr => ?_⟩
      have hr' := hbefore r hr
      rwa [htab, getElem?_tableOf (hr.trans hlt)] at hr'

end Dfa

/-- **The checked construction accepts exactly the well-formed automata.**  It succeeds if and only
    if the initial state, the accepting states and both ends of every transition are states and no
    interpretation, over whatever fluents, enables two of the entries of a state that mentions at
    most sixteen of them.  The automaton has the given parts then.  A conflict that is reported is
    one of the first state that has any; the interpretation reported with it enables two entries
    there, and no interpretation with fewer fluents does. -/
theorem construction_is_exact (n initial : Nat) (accepting : States) (ts : List Transition) :
    ((∃ d, Dfa.ofTransitions n initial accepting ts = .ok d) ↔
      initial < n ∧ (∀ q ∈ accepting, q < n) ∧ (∀ t ∈ ts, t.source < n ∧ t.destination < n) ∧
      ∀ q < n, (Dfa.rowOf ts q).atoms.size ≤ 16 → (Dfa.rowOf ts q).Exclusive) ∧
    (∀ d, Dfa.ofTransitions n initial accepting ts = .ok d → d.initial = initial ∧
      d.accepting = accepting ∧ d.size = n ∧ ∀ q < n, d.table[q]? = some (Dfa.rowOf ts q)) ∧
    ∀ q I, Dfa.ofTransitions n initial accepting ts = .error (.ambiguous q I) →
      IsLeast {p | p < n ∧ (Dfa.rowOf ts p).atoms.size ≤ 16 ∧ ¬ (Dfa.rowOf ts p).Exclusive} q ∧
      2 ≤ ((Dfa.rowOf ts q).enabled I).length ∧
      ∀ J, 2 ≤ ((Dfa.rowOf ts q).enabled J).length → I.size ≤ J.size := by
  refine ⟨?_, fun d hd => ?_, fun q I hq => ?_⟩
  · rw [Dfa.exists_ofTransitions_iff]
    constructor
    · rintro ⟨⟨hi, hacc, hts⟩, hrows⟩
      exact ⟨hi, hacc, hts, hrows⟩
    · rintro ⟨hi, hacc, hts, hrows⟩
      exact ⟨⟨hi, hacc, hts⟩, hrows⟩
  · obtain ⟨-, -, hi, hacc, htab⟩ := Dfa.ofTransitions_eq_ok_iff.1 hd
    refine ⟨hi, hacc, ?_, fun q hq => ?_⟩
    · rw [Dfa.size, htab, Dfa.length_tableOf]
    · rw [htab, Dfa.getElem?_tableOf hq]
  · obtain ⟨hlt, hhere, hbefore⟩ := Dfa.ofTransitions_eq_ambiguous hq
    obtain ⟨hfew, htwo, hleast⟩ := Row.conflict?_eq_some hhere
    refine ⟨⟨⟨hlt, hfew, fun hexcl => ?_⟩, fun p hp => ?_⟩, htwo, hleast⟩
    · exact absurd (Row.exclusive_iff.1 hexcl I) (not_le.2 htwo)
    · by_contra hpq
      exact hp.2.2 (Row.conflict?_eq_none_iff.1 (hbefore p (not_le.1 hpq)) hp.2.1)

end GoalAutomata
