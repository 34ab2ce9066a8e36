/-
  What the goal of visiting cells accepts.

  The fluent of a cell is a name that tells the cell (`isName_cellFluent`,
  `cellFluent_injective`), so the guards of the goal can be written on every chain,
  and are read as what they mean (`visitingSequence_eq`).  Every state waits for a
  cell and stays where it is until then, unless the last cell comes too early: then
  it is lost.  So before the last cell the state tells how far the walk has come
  (`Dfa.Visits.visit_zero`), and at the last cell this decides.
-/
import GoalAutomata.Chain.Visiting
import GoalAutomata.Proofs.Dfa.Words
import GoalAutomata.Proofs.Guard.Reading
import GoalAutomata.Proofs.Guard.RoundTrip
import GoalAutomata.Proofs.Levels

namespace GoalAutomata

/-! ## The fluents of cells -/

theorem toList_cellFluent (c : Nat) : (cellFluent c).toList = 's' :: Nat.toDigits 10 c := by
  simp [cellFluent]

/-- The number of a cell can be read off its fluent. -/
theorem cellFluent_injective : Function.Injective cellFluent := by
  refine Function.LeftInverse.injective (g := fun s => Nat.ofDigitChars 10 (s.toList.drop 1) 0) ?_
  intro c
  simp only [toList_cellFluent, List.drop_succ_cons, List.drop_zero]
  exact Nat.ofDigitChars_ten_toDigits

/-- **The fluent of a cell is a name**, so it can be written in a guard. -/
theorem isName_cellFluent (c : Nat) : Guard.IsName (cellFluent c) := by
  refine ⟨?_, fun h => ?_, fun h => ?_⟩
  · rw [toList_cellFluent]
    refine ⟨List.cons_ne_nil _ _, List.forall_mem_cons.2 ⟨by decide +kernel, fun d hd => ?_⟩⟩
    exact Token.isWordChar_of_isDigit (Nat.isDigit_of_mem_toDigits (by decide) (by decide) hd)
  all_goals
    have hlist := congrArg String.toList h
    rw [toList_cellFluent] at hlist
    exact absurd (List.cons_eq_cons.1 hlist).1 (by decide)

@[simp] theorem contains_cellFluents (p c : Nat) :
    (cellFluents p).contains (cellFluent c) = decide (p = c) := by
  rw [Bool.eq_iff_iff, decide_eq_true_iff, Std.ExtTreeSet.contains_iff_mem, cellFluents,
    Std.ExtTreeSet.mem_ofList, List.contains_iff_mem, List.mem_singleton,
    cellFluent_injective.eq_iff, eq_comm]

/-! ## Construction -/

/-- The guard that holds where a walker is on neither of two cells. -/
def neitherCell (a b : Nat) : Guard :=
  .and [.not (.atom (cellFluent a)), .not (.atom (cellFluent b))]

@[simp] theorem holds_neitherCell (I : Fluents) (a b : Nat) :
    (neitherCell a b).holds I = (!I.contains (cellFluent a) && !I.contains (cellFluent b)) := by
  simp [neitherCell]

namespace Builder

variable (b : Builder) (q r c c' : Nat)

/-- The text of a guard in normal form is read as this guard. -/
theorem addWritten_of_render {g : Guard} {text : String} (h : g.render = text) (hg : g.Proper 2) :
    b.addWritten q text r = .ok (b.addTransition ⟨q, g, r⟩) := by
  have hparse : Guard.parse text = .ok g := by
    rw [← h, Guard.parse_render (hg.mono (by decide)), hg.norm_eq]
  rw [addWritten, Guard.read_eq_ok_iff.2 hparse]
  rfl

theorem addWritten_cell : b.addWritten q (cellFluent c) r =
    .ok (b.addTransition ⟨q, .atom (cellFluent c), r⟩) :=
  b.addWritten_of_render q r String.ofList_toList (.atom (isName_cellFluent c))

theorem addWritten_notCell : b.addWritten q ("~" ++ cellFluent c) r =
    .ok (b.addTransition ⟨q, .not (.atom (cellFluent c)), r⟩) := by
  refine b.addWritten_of_render q r (String.toList_injective ?_)
    (.not (.atom (isName_cellFluent c)))
  simp [Guard.render, Guard.chars, Guard.wrap, Guard.strength]

theorem addWritten_neitherCell :
    b.addWritten q ("~" ++ cellFluent c ++ " & ~" ++ cellFluent c') r =
      .ok (b.addTransition ⟨q, neitherCell c c', r⟩) := by
  refine b.addWritten_of_render q r (String.toList_injective ?_) (.and (Nat.le_refl 2) ?_)
  · simp [neitherCell, Guard.render, Guard.chars, Guard.operandChars, Guard.moreChars, Guard.wrap,
      Guard.strength]
  · simp [(Guard.Proper.atom (isName_cellFluent _)).not]

end Builder

/-- The transitions of the goal on a chain of `n` cells. -/
def visitingTransitions (n : Nat) : List Transition :=
  [⟨0, neitherCell (n - 2) (n - 1), 0⟩, ⟨0, .atom (cellFluent (n - 2)), 1⟩,
    ⟨1, neitherCell 0 (n - 1), 1⟩, ⟨1, .atom (cellFluent 0), 2⟩,
    ⟨2, .not (.atom (cellFluent (n - 1))), 2⟩, ⟨2, .atom (cellFluent (n - 1)), 3⟩,
    ⟨3, .tt, 3⟩]

/-- **All guards of the goal are read.** -/
theorem visitingSequence_eq (n : Nat) : visitingSequence n =
    Dfa.ofTransitions 4 0 ((∅ : States).insert 3) (visitingTransitions n) := by
  have htrue : ∀ b : Builder, b.addWritten 3 "true" 3 = .ok (b.addTransition ⟨3, .tt, 3⟩) :=
    fun b => b.addWritten_of_render 3 3 rfl .tt
  simp only [visitingSequence, Builder.addWritten_neitherCell, Builder.addWritten_notCell,
    Builder.addWritten_cell, htrue, bind, Except.bind]
  rfl

/-- `d` is the goal on a chain of `n` cells. -/
structure Dfa.Visits (n : Nat) (d : Dfa) : Prop where
  initial : d.initial = 0
  accepting : d.accepting = (∅ : States).insert 3
  table : d.table = Dfa.tableOf 4 (visitingTransitions n)

/-- A state waits for a cell, and stays or is lost elsewhere. -/
theorem exclusive_visitingTransitions (n q : Nat) :
    (Dfa.rowOf (visitingTransitions n) q).Exclusive := by
  have hpair : ∀ (g : Guard) (c r r' : Nat),
      (∀ I : Fluents, g.holds I = true → I.contains (cellFluent c) = false) →
      Row.Exclusive [(g, r), (.atom (cellFluent c), r')] := by
    intro g c r r' h
    refine List.pairwise_pair.2 fun I hboth => ?_
    exact absurd hboth.2 (Bool.eq_false_iff.1 (h I hboth.1))
  match q with
  | 0 | 1 | 2 => exact hpair _ _ _ _ fun I hI => by simp_all
  | 3 => exact List.pairwise_singleton _ _
  | q + 4 => exact List.Pairwise.nil

/-- **The goal is built on every chain.** -/
theorem exists_visitingSequence (n : Nat) : ∃ d, visitingSequence n = .ok d ∧ d.Visits n := by
  have hin : ∀ t ∈ visitingTransitions n, t.source < 4 ∧ t.destination < 4 := by
    simp [visitingTransitions]
  have haccepting : ∀ q ∈ (∅ : States).insert 3, q < 4 := by simp
  rw [visitingSequence_eq]
  obtain ⟨d, hd⟩ := Dfa.exists_ofTransitions_iff.2
    ⟨⟨Nat.zero_lt_succ 3, haccepting, hin⟩, fun q _ _ => exclusive_visitingTransitions n q⟩
  obtain ⟨-, -, hinitial, hacc, htable⟩ := Dfa.ofTransitions_eq_ok_iff.1 hd
  exact ⟨d, hd, hinitial, hacc, htable⟩

/-! ## Moves -/

namespace Dfa

/-- A walker meets the guard for which it stays, or the cell for which it waits, or is lost. -/
theorem successor_of_pair {d : Dfa} {q c r r' : Nat} {g : Guard}
    (h : d.table[q]? = some [(g, r), (.atom (cellFluent c), r')]) (p : Nat) :
    d.successor q (cellFluents p) =
      .ok (if g.holds (cellFluents p) then r else if p = c then r' else d.sink) := by
  rw [successor_of_row h]
  have hcell : (Guard.atom (cellFluent c)).holds (cellFluents p) = decide (p = c) := by simp
  cases hg : g.holds (cellFluents p) with
  | true => simp [hg]
  | false =>
    simp only [List.find?_cons, hg, hcell]
    by_cases hp : p = c <;> simp [hp]

namespace Visits

variable {n : Nat} {d : Dfa} (h : d.Visits n)
include h

theorem sink_eq : d.sink = 4 := by
  rw [sink, size, h.table, length_tableOf]

theorem successor_zero (p : Nat) : d.successor 0 (cellFluents p) =
    .ok (if p = n - 2 then 1 else if p = n - 1 then 4 else 0) := by
  rw [successor_of_pair (congrArg (·[0]?) h.table), h.sink_eq]
  by_cases hc : p = n - 2 <;> by_cases hl : p = n - 1 <;> simp [hc, hl]

theorem successor_one (p : Nat) : d.successor 1 (cellFluents p) =
    .ok (if p = 0 then 2 else if p = n - 1 then 4 else 1) := by
  rw [successor_of_pair (congrArg (·[1]?) h.table), h.sink_eq]
  by_cases hs : p = 0 <;> by_cases hl : p = n - 1 <;> simp [hs, hl]

theorem successor_two (p : Nat) :
    d.successor 2 (cellFluents p) = .ok (if p = n - 1 then 3 else 2) := by
  rw [successor_of_pair (congrArg (·[2]?) h.table)]
  by_cases hl : p = n - 1 <;> simp [hl]

theorem successor_three (p : Nat) : d.successor 3 (cellFluents p) = .ok 3 :=
  successor_of_row (congrArg (·[3]?) h.table) _

end Visits

/-! ## Walks -/

/-- The state in which the automaton ends after a walk over some cells. -/
def visit (d : Dfa) (q : Nat) (ps : List Nat) : Except Error Nat :=
  ps.foldlM (fun r p => d.successor r (cellFluents p)) q

variable {d : Dfa} {q r n p : Nat} {ps u v : List Nat}

theorem visit_cons_of (h : d.successor q (cellFluents p) = .ok r) :
    d.visit q (p :: ps) = d.visit r ps := by
  rw [visit, List.foldlM_cons, h]
  rfl

/-- **A state that is not left on any cell of a walk is where the walk ends.** -/
theorem visit_of_stays (h : ∀ p ∈ ps, d.successor q (cellFluents p) = .ok q) :
    d.visit q ps = .ok q := by
  induction ps with
  | nil => rfl
  | cons p ps ih =>
    rw [visit_cons_of (h p List.mem_cons_self)]
    exact ih fun p hp => h p (List.mem_cons_of_mem _ hp)

theorem visit_append_of (h : d.visit q u = .ok r) : d.visit q (u ++ v) = d.visit r v := by
  rw [visit, List.foldlM_append]
  exact congrArg (· >>= _) h

namespace Visits

variable (h : d.Visits n)
include h

theorem visit_one (hps : n - 1 ∉ ps) : d.visit 1 ps = .ok (if 0 ∈ ps then 2 else 1) := by
  induction ps with
  | nil => rfl
  | cons p ps ih =>
    obtain ⟨hne, hps⟩ := List.ne_and_not_mem_of_not_mem_cons hps
    by_cases hp : p = 0
    · have hmove : d.successor 1 (cellFluents p) = .ok 2 := by
        rw [h.successor_one, if_pos hp]
      have hwait : ∀ r ∈ ps, d.successor 2 (cellFluents r) = .ok 2 := fun r hr => by
        rw [h.successor_two, if_neg (ne_of_mem_of_not_mem hr hps)]
      rw [visit_cons_of hmove, visit_of_stays hwait, if_pos (List.mem_cons.2 (Or.inl hp.symm))]
    · have hwait : d.successor 1 (cellFluents p) = .ok 1 := by
        rw [h.successor_one, if_neg hp, if_neg hne.symm]
      rw [visit_cons_of hwait, ih hps]
      simp [eq_comm, hp]

/-- **Before the last cell the state tells how far the walk has come.** -/
theorem visit_zero (hps : n - 1 ∉ ps) : d.visit 0 ps =
    .ok (if [n - 2, 0].Sublist ps then 2 else if n - 2 ∈ ps then 1 else 0) := by
  induction ps with
  | nil => rfl
  | cons p ps ih =>
    obtain ⟨hne, hps⟩ := List.ne_and_not_mem_of_not_mem_cons hps
    by_cases hp : p = n - 2
    · have hmove : d.successor 0 (cellFluents p) = .ok 1 := by
        rw [h.successor_zero, if_pos hp]
      rw [visit_cons_of hmove, h.visit_one hps]
      simp [hp, List.cons_sublist_cons]
    · have hwait : d.successor 0 (cellFluents p) = .ok 0 := by
        rw [h.successor_zero, if_neg hp, if_neg hne.symm]
      have hsub : [n - 2, 0].Sublist (p :: ps) ↔ [n - 2, 0].Sublist ps :=
        ⟨fun hsub => hsub.of_cons_of_ne (Ne.symm hp), List.Sublist.cons p⟩
      rw [visit_cons_of hwait, ih hps]
      simp [hsub, Ne.symm hp]

/-- **At the last cell it decides**, and nothing is changed by what comes later. -/
theorem visit_last (hn : 2 ≤ n) (hu : n - 1 ∉ u) : d.visit 0 (u ++ (n - 1) :: v) =
    .ok (if [n - 2, 0].Sublist u then 3 else d.sink) := by
  have hthree : d.visit 3 v = .ok 3 := visit_of_stays fun p _ => h.successor_three p
  have hsink : d.visit d.sink v = .ok d.sink := visit_of_stays fun p _ => if_pos rfl
  have hc : n - 1 ≠ n - 2 := by omega
  have hs : n - 1 ≠ 0 := by omega
  rw [visit_append_of (h.visit_zero hu)]
  split_ifs with hsub hmem
  · rw [visit_cons_of (h.successor_two _), if_pos rfl, hthree]
  · rw [visit_cons_of (h.successor_one _), if_neg hs, if_pos rfl, ← h.sink_eq, hsink]
  · rw [visit_cons_of (h.successor_zero _), if_neg hc, if_pos rfl, ← h.sink_eq, hsink]

theorem mem_accepting_iff {q : Nat} : q ∈ d.accepting ↔ q = 3 := by
  rw [h.accepting, States.mem_insert]
  exact or_iff_right Std.ExtTreeSet.not_mem_empty

/-- **From every state the goal can be reached**, by waiting for the right cells. -/
theorem reaches {q : Nat} (hq : q < 4) : d.toAutomaton.Reaches q := by
  have hback : ∀ {q r p : Nat}, d.toAutomaton.Reaches r → d.successor q (cellFluents p) = .ok r →
      d.toAutomaton.Reaches q := fun hr hsucc =>
    not_not.1 fun hno => not_reaches_of_successor hno hsucc hr
  have hthree : d.toAutomaton.Reaches 3 :=
    Automaton.reaches_of_mem_accepting (h.mem_accepting_iff.2 rfl)
  have htwo : d.toAutomaton.Reaches 2 :=
    hback hthree ((h.successor_two (n - 1)).trans (by rw [if_pos rfl]))
  have hone : d.toAutomaton.Reaches 1 :=
    hback htwo ((h.successor_one 0).trans (by rw [if_pos rfl]))
  have hzero : d.toAutomaton.Reaches 0 :=
    hback hone ((h.successor_zero (n - 2)).trans (by rw [if_pos rfl]))
  match q, hq with
  | 0, _ => exact hzero
  | 1, _ => exact hone
  | 2, _ => exact htwo
  | 3, _ => exact hthree

theorem eq_sink_of_mem_failures {q : Nat}
    (hq : q ∈ (Levels.ofAutomaton d.toAutomaton).failures) : q = d.sink := by
  obtain ⟨hstate | rfl, hno⟩ := Levels.mem_failures_iff.1 hq
  · have hlt : q < d.sink := States.mem_below.1 hstate
    rw [h.sink_eq] at hlt
    exact absurd (h.reaches hlt) hno
  · rfl

end Visits

end Dfa

/-! ## Times of a walk -/

section Times

variable {ps u v : List Nat} {a b c k : Nat}

/-- At time `k` the walk is on the cell `c` for the first time. -/
def ReachesFirst (ps : List Nat) (c k : Nat) : Prop :=
  ps[k]? = some c ∧ ∀ j < k, ps[j]? ≠ some c

/-- Before time `k` the walk is on the cell `a`, and later on the cell `b`. -/
def PassesBefore (ps : List Nat) (a b k : Nat) : Prop :=
  ∃ i j, i < j ∧ j < k ∧ ps[i]? = some a ∧ ps[j]? = some b

theorem not_reachesFirst (h : c ∉ ps) : ¬ ReachesFirst ps c k := fun hk =>
  h (List.mem_of_getElem? hk.1)

theorem reachesFirst_append_iff (h : c ∉ u) : ReachesFirst (u ++ c :: v) c k ↔ k = u.length := by
  have hold : ∀ j < u.length, (u ++ c :: v)[j]? ≠ some c := by
    intro j hj hc
    rw [List.getElem?_append_left hj] at hc
    exact h (List.mem_of_getElem? hc)
  have hnow : (u ++ c :: v)[u.length]? = some c := by simp
  constructor
  · rintro ⟨hk, hfirst⟩
    rcases lt_trichotomy k u.length with hlt | heq | hgt
    · exact absurd hk (hold k hlt)
    · exact heq
    · exact absurd hnow (hfirst _ hgt)
  · rintro rfl
    exact ⟨hnow, hold⟩

/-- Two cells are passed one after the other if they are a part of the walk. -/
theorem passesBefore_append_iff : PassesBefore (u ++ v) a b u.length ↔ [a, b].Sublist u := by
  constructor
  · rintro ⟨i, j, hij, hj, hi, hb⟩
    rw [List.getElem?_append_left (hij.trans hj)] at hi
    rw [List.getElem?_append_left hj] at hb
    obtain ⟨hlt, rfl⟩ := List.getElem?_eq_some_iff.1 hi
    have hmem : b ∈ u.drop (i + 1) := by
      refine List.mem_of_getElem? (i := j - (i + 1)) ?_
      rw [List.getElem?_drop, Nat.add_sub_cancel' hij, hb]
    have htail : [u[i], b].Sublist (u[i] :: u.drop (i + 1)) :=
      (List.singleton_sublist.2 hmem).cons_cons _
    rw [← List.drop_eq_getElem_cons hlt] at htail
    exact htail.trans (List.drop_sublist i u)
  · intro h
    obtain ⟨x, y, rfl, ha, hb⟩ := List.cons_sublist_iff.1 h
    obtain ⟨i, hi, rfl⟩ := List.getElem_of_mem ha
    obtain ⟨j, hj, rfl⟩ := List.getElem_of_mem (List.singleton_sublist.1 hb)
    refine ⟨i, x.length + j, by omega, by simpa using hj, ?_, ?_⟩
    · simp [List.append_assoc, List.getElem?_append_left hi]
    · simp [List.append_assoc, List.getElem?_append_right, List.getElem?_append_left hj]

end Times

/-- **The goal accepts the walks that visit its cells in order.**  It is built on every chain.  On
    a chain of two cells or more a walk over any cells ends in an accepting state exactly if it
    reaches the last cell, and before that passes the cell before it and later the first one.  It
    ends in the sink exactly if it reaches the last cell but does not pass these two before, and
    only then in a failure. -/
theorem visiting_sequence_is_recognized (n : Nat) : ∃ d, visitingSequence n = .ok d ∧
    (2 ≤ n → ∀ ps, ∃ q, d.visit d.initial ps = .ok q ∧
      (q ∈ d.accepting ↔ ∃ k, ReachesFirst ps (n - 1) k ∧ PassesBefore ps (n - 2) 0 k) ∧
      (q = d.sink ↔ ∃ k, ReachesFirst ps (n - 1) k ∧ ¬ PassesBefore ps (n - 2) 0 k) ∧
      (q ∈ (Levels.ofAutomaton d.toAutomaton).failures →
        ∃ k, ReachesFirst ps (n - 1) k ∧ ¬ PassesBefore ps (n - 2) 0 k)) := by
  obtain ⟨d, hd, h⟩ := exists_visitingSequence n
  refine ⟨d, hd, fun hn ps => ?_⟩
  suffices hq : ∃ q, d.visit 0 ps = .ok q ∧
      (q = 3 ↔ ∃ k, ReachesFirst ps (n - 1) k ∧ PassesBefore ps (n - 2) 0 k) ∧
      (q = d.sink ↔ ∃ k, ReachesFirst ps (n - 1) k ∧ ¬ PassesBefore ps (n - 2) 0 k) by
    obtain ⟨q, hq, haccepting, hsink⟩ := hq
    exact ⟨q, by rw [h.initial, hq], h.mem_accepting_iff.trans haccepting, hsink,
      fun hfail => hsink.1 (h.eq_sink_of_mem_failures hfail)⟩
  by_cases hlast : n - 1 ∈ ps
  · obtain ⟨u, v, rfl, hu⟩ := List.eq_append_cons_of_mem hlast
    refine ⟨_, h.visit_last hn hu, ?_⟩
    simp only [reachesFirst_append_iff hu, exists_eq_left, passesBefore_append_iff, h.sink_eq]
    split_ifs with hsub <;> simp [hsub]
  · refine ⟨_, h.visit_zero hlast, ?_⟩
    simp only [not_reachesFirst hlast, false_and, exists_false, iff_false, h.sink_eq]
    split_ifs <;> simp

/-- A walk that takes its time is accepted, and one that jumps to the last cell is lost. -/
theorem visiting_sequence_on_five_cells : ∃ d, visitingSequence 5 = .ok d ∧
    (∃ q ∈ d.accepting, d.visit d.initial [1, 2, 3, 2, 1, 0, 1, 2, 3, 4] = .ok q) ∧
    d.visit d.initial [4] = .ok d.sink := by
  obtain ⟨d, hd, h⟩ := visiting_sequence_is_recognized 5
  obtain ⟨q, hq, haccepting, -⟩ := h (by decide) [1, 2, 3, 2, 1, 0, 1, 2, 3, 4]
  obtain ⟨r, hr, -, hsink, -⟩ := h (by decide) [4]
  have hlost : r = d.sink := hsink.2 ⟨0, ⟨rfl, nofun⟩, fun ⟨_, _, _, hj, _⟩ => nomatch hj⟩
  refine ⟨d, hd, ⟨q, haccepting.2 ⟨9, ⟨rfl, by decide⟩, ?_⟩, hq⟩, hlost ▸ hr⟩
  exact ⟨2, 5, by decide, by decide, rfl, rfl⟩

end GoalAutomata
