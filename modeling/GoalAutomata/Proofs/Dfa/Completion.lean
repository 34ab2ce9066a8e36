/-
  Completion changes nothing that a simulator can see.

  A completed table has more entries, all of them into its old sink, which becomes a
  state with a loop; its own sink is the number after that.  From the old states and
  the old sink every interpretation leads where it did.  Nothing is accepting at the
  two sinks and no edge leads out of them, so the edges into them are on no path to
  acceptance and the distances are those of the table before.

  * `Dfa.successor_complete`, `Dfa.distance_complete`: steps and distances stay;
  * `Mirrors.call`: a call keeps the simulators of both tables together;
  * `completion_is_invisible`: what this means for runs.
-/
import GoalAutomata.Dfa.Completion
import GoalAutomata.Proofs.Complete
import GoalAutomata.Proofs.Dfa
import GoalAutomata.Proofs.Dfa.Alphabet

namespace GoalAutomata

namespace Row

variable {row : Row} {sink : Nat} {e : Guard × Nat}

theorem mem_completed_of_mem (h : e ∈ row) : e ∈ row.completed sink := by
  unfold completed
  split_ifs
  · exact h
  · exact List.mem_append_left _ h

/-- **A completed row leads where the row does**, and into the sink where that leads nowhere. -/
theorem elim_find?_completed (I : Fluents) (other : Nat) :
    ((row.completed sink).find? (·.1.holds I)).elim other (·.2) =
      (row.find? (·.1.holds I)).elim sink (·.2) := by
  unfold completed
  split_ifs with h
  · have hsome : (row.find? (·.1.holds I)).isSome := by
      rw [List.find?_isSome, ← List.any_eq_true]
      exact any_holds_of_isComplete h I
    obtain ⟨e, he⟩ := Option.isSome_iff_exists.1 hsome
    rw [he, Option.elim_some, Option.elim_some]
  · rw [List.find?_append]
    cases hfind : row.find? (·.1.holds I) with
    | some e => rfl
    | none =>
      have hmissing : row.missing.holds I = true := by
        rw [holds_missing, Bool.not_eq_true', List.any_eq_false]
        exact List.find?_eq_none.1 hfind
      simp [hmissing]

end Row

namespace Dfa

variable {d : Dfa} {q r k : Nat} {row : Row}

/-! ## The completed table -/

/-- The rows of a completion: the completed rows, and the loop at the old sink. -/
theorem getElem?_completedTable : d.completedTable[q]? = some row ↔
    (∃ old, d.table[q]? = some old ∧ old.completed d.sink = row) ∨
      q = d.sink ∧ [(.tt, d.sink)] = row := by
  have hlen : d.sink = d.table.length := rfl
  rw [completedTable, List.getElem?_append, List.length_map, ← hlen]
  split_ifs with hq
  · rw [List.getElem?_map, Option.map_eq_some_iff]
    exact (or_iff_left fun h => hq.ne h.1).symm
  · have hold : d.table[q]? = none := List.getElem?_eq_none (not_lt.1 hq)
    rw [hold, List.getElem?_singleton]
    split_ifs with h0
    · have hsink : q = d.sink := by omega
      simp [hsink]
    · have hsink : q ≠ d.sink := by omega
      simp [hsink]

theorem complete_cases (d : Dfa) : d.complete = d ∨ d.complete.table = d.completedTable := by
  unfold complete
  split_ifs
  · exact Or.inl rfl
  · exact Or.inr rfl

theorem initial_complete (d : Dfa) : d.complete.initial = d.initial := by
  unfold complete
  split_ifs <;> rfl

theorem accepting_complete (d : Dfa) : d.complete.accepting = d.accepting := by
  unfold complete
  split_ifs <;> rfl

theorem sink_of_table_complete (h : d.complete.table = d.completedTable) :
    d.complete.sink = d.sink + 1 := by
  rw [sink, size, h, length_completedTable]
  rfl

theorem size_le_size_complete (d : Dfa) : d.size ≤ d.complete.size := by
  rcases d.complete_cases with h | h
  · rw [h]
  · exact (Nat.le_succ _).trans (sink_of_table_complete h).ge

/-! ## Steps and distances -/

/-- **From a state or the sink, a completed table leads where the table does.** -/
theorem successor_complete (hq : q ≤ d.size) (I : Fluents) :
    d.complete.successor q I = d.successor q I := by
  rcases d.complete_cases with h | h
  · rw [h]
  · rcases Nat.lt_or_eq_of_le (show q ≤ d.sink from hq) with hlt | rfl
    · have hrow : d.table[q]? = some d.table[q] := List.getElem?_eq_getElem hlt
      have hnew : d.complete.table[q]? = some (d.table[q].completed d.sink) := by
        rw [h]
        exact getElem?_completedTable.2 (Or.inl ⟨_, hrow, rfl⟩)
      rw [successor_of_row hrow, successor_of_row hnew, Row.elim_find?_completed]
    · have hnew : d.complete.table[d.sink]? = some [(.tt, d.sink)] := by
        rw [h]
        exact getElem?_completedTable.2 (Or.inr ⟨rfl, rfl⟩)
      rw [successor_of_row hnew, successor, if_pos rfl]
      simp

/-- The edges of a completion: those of the table, and edges into the two sinks. -/
theorem edge_complete_cases (h : d.complete.table = d.completedTable)
    (hE : d.complete.toAutomaton.Edge q r) : d.toAutomaton.Edge q r ∨ d.sink ≤ r := by
  rcases edge_iff.1 hE with ⟨-, rfl⟩ | ⟨row, hrow, e, he, rfl, hg⟩
  · rw [sink_of_table_complete h]
    exact Or.inr (Nat.le_succ _)
  · rw [h] at hrow
    rcases getElem?_completedTable.1 hrow with ⟨old, hold, rfl⟩ | ⟨-, rfl⟩
    · rcases Row.mem_completed he with he | he
      · exact Or.inl (edge_iff.2 (Or.inr ⟨old, hold, e, he, rfl, hg⟩))
      · exact Or.inr he.ge
    · rw [List.mem_singleton.1 he]
      exact Or.inr le_rfl

theorem edge_complete_of_edge (h : d.complete.table = d.completedTable)
    (hE : d.toAutomaton.Edge q r) : d.complete.toAutomaton.Edge q r := by
  rw [edge_iff, h]
  rcases edge_iff.1 hE with ⟨rfl, rfl⟩ | ⟨row, hrow, e, he, hr, hg⟩
  · exact Or.inr ⟨_, getElem?_completedTable.2 (Or.inr ⟨rfl, rfl⟩), (.tt, d.sink), by simp⟩
  · exact Or.inr ⟨_, getElem?_completedTable.2 (Or.inl ⟨row, hrow, rfl⟩), e,
      Row.mem_completed_of_mem he, hr, hg⟩

/-- No edge leads out of the sinks. -/
theorem sink_le_of_edge (hq : d.sink ≤ q) (hE : d.toAutomaton.Edge q r) : d.sink ≤ r := by
  rcases edge_iff.1 hE with ⟨-, rfl⟩ | ⟨row, hrow, -⟩
  · exact le_rfl
  · exact absurd (List.getElem?_eq_some_iff.1 hrow).1 (not_lt.2 hq)

/-- **Completion changes no distance to acceptance.** -/
theorem distance_complete (d : Dfa) (q k : Nat) :
    d.complete.toAutomaton.Distance q k ↔ d.toAutomaton.Distance q k := by
  rcases d.complete_cases with h | h
  · rw [h]
  · have hpath : ∀ n, PathTo d.complete.toAutomaton.Edge (· ∈ d.accepting) n q ↔
        PathTo d.toAutomaton.Edge (· ∈ d.accepting) n q := fun n => by
      -- the two sinks are the trap into which the new edges lead
      refine pathTo_iff_of_trap (D := (d.sink ≤ ·)) ?_ ?_ (fun _ _ => edge_complete_of_edge h)
        (fun _ _ => edge_complete_cases h)
      · intro p hp hacc
        exact absurd (d.accepting_lt p hacc) (not_lt.2 hp)
      · intro p r hp hE
        rcases edge_complete_cases h hE with hE | hr
        · exact sink_le_of_edge hp hE
        · exact hr
    have hacc : d.complete.toAutomaton.accepting = d.accepting := d.accepting_complete
    rw [Automaton.Distance, IsDistance, hacc]
    simp only [hpath]
    rfl

end Dfa

/-! ## Potentials and payments -/

variable {R : Type} [Amount R] {d : Dfa} {reward : R} {shaping : Shaping R}
  {S T : CompleteSimulator R}

/-- Automata with the same distances give a common state the same potential. -/
theorem Potential.eval_ofLevels_congr {A B : Automaton}
    (h : ∀ q k, A.Distance q k ↔ B.Distance q k) {q : Nat} (hA : q ∈ A.allStates)
    (hB : q ∈ B.allStates) (initial : Nat) (reward : R) (last : Bool) :
    (Potential.ofLevels (.ofAutomaton A) initial reward).eval q last =
      (Potential.ofLevels (.ofAutomaton B) initial reward).eval q last := by
  simp only [eval, get, ofLevels, Std.ExtTreeMap.getElem?_map, Levels.level_congr h,
    Levels.getElem?_known_congr h hA hB]

namespace Dfa

theorem eval_complete {q : Nat} (hq : q ≤ d.size) (reward : R) (last : Bool) :
    (PricedAutomaton.new d.complete.toAutomaton reward).potential.eval q last =
      (PricedAutomaton.new d.toAutomaton reward).potential.eval q last := by
  have hinitial : d.complete.toAutomaton.initial = d.toAutomaton.initial := d.initial_complete
  unfold PricedAutomaton.new
  rw [hinitial]
  exact Potential.eval_ofLevels_congr d.distance_complete
    (mem_allStates.2 (hq.trans d.size_le_size_complete)) (mem_allStates.2 hq) _ _ _

theorem payment_complete (d : Dfa) (reward : R) (q : Nat) :
    (PricedAutomaton.new d.complete.toAutomaton reward).payment q =
      (PricedAutomaton.new d.toAutomaton reward).payment q := by
  change (if d.complete.accepting.contains q then reward else 0) = _
  rw [d.accepting_complete]
  rfl

end Dfa

/-! ## Side by side -/

/-- `S` drives the table `d`, `T` its completion, both pay alike and are at the same state. -/
structure Mirrors (d : Dfa) (reward : R) (shaping : Shaping R) (S T : CompleteSimulator R) :
    Prop where
  table : S.machine = .new d.toAutomaton reward
  completion : T.machine = .new d.complete.toAutomaton reward
  shaping : S.shaping = shaping ∧ T.shaping = shaping
  state : T.state? = S.state?
  bounded : ∀ q, S.state? = some q → q ≤ d.size

theorem mirrors_new (d : Dfa) (reward : R) (shaping : Shaping R) :
    Mirrors d reward shaping (.new d.toAutomaton reward shaping)
      (.new d.complete.toAutomaton reward shaping) :=
  ⟨rfl, rfl, ⟨rfl, rfl⟩, rfl, nofun⟩

namespace Mirrors

theorem pay_eq (h : Mirrors d reward shaping S T) {q r : Nat} (hq : q ≤ d.size) (hr : r ≤ d.size)
    (last : Bool) : T.pay q r last = S.pay q r last := by
  unfold CompleteSimulator.pay
  rw [h.table, h.completion, h.shaping.1, h.shaping.2, d.payment_complete, d.eval_complete hq,
    d.eval_complete hr]

/-- **Both simulators give the same verdicts.** -/
theorem agrees (h : Mirrors d reward shaping S T) :
    Simulator.state? T = Simulator.state? S ∧ Simulator.isTrue T = Simulator.isTrue S ∧
      Simulator.isFailed T = Simulator.isFailed S := by
  change T.state? = S.state? ∧ T.state?.any _ = S.state?.any _ ∧ T.state?.any _ = S.state?.any _
  rw [h.state, h.table, h.completion]
  refine ⟨rfl, ?_, ?_⟩
  · change S.state?.any (d.complete.accepting.contains ·) = _
    rw [d.accepting_complete]
    rfl
  · exact congrArg S.state?.any (funext (Levels.isFailure_congr d.distance_complete))

/-- **A call is answered alike**, and keeps the simulators together. -/
theorem call (h : Mirrors d reward shaping S T) (c : Call) :
    Mirrors d reward shaping (Simulator.call S c).1 (Simulator.call T c).1 ∧
      (Simulator.call T c).2 = (Simulator.call S c).2 := by
  cases c with
  | reset =>
    have hinitial : T.machine.automaton.initial = S.machine.automaton.initial := by
      rw [h.table, h.completion]
      exact d.initial_complete
    refine ⟨⟨h.table, h.completion, h.shaping, congrArg some hinitial, ?_⟩,
      congrArg Answer.started hinitial⟩
    rintro q ⟨⟩
    rw [h.table]
    exact d.initial_lt.le
  | step I last =>
    cases hq : S.state? with
    | none =>
      have hS := CompleteSimulator.step_of_none I last hq
      have hT := CompleteSimulator.step_of_none I last (h.state.trans hq)
      change Mirrors _ _ _ (S.step I last).state (T.step I last).state ∧
        Answer.stepped (T.step I last).result = Answer.stepped (S.step I last).result
      rw [hS, hT]
      exact ⟨h, rfl⟩
    | some q =>
      have hle := h.bounded q hq
      obtain ⟨r, hr, hsucc⟩ := d.exists_successor hle I
      obtain ⟨hresS, hS⟩ := CompleteSimulator.step_of_successor (S := S) last hq
        (by rw [h.table]; exact hsucc)
      obtain ⟨hresT, hT⟩ := CompleteSimulator.step_of_successor (S := T) last (h.state.trans hq)
        (by rw [h.completion]; exact (d.successor_complete hle I).trans hsucc)
      change Mirrors _ _ _ (S.step I last).state (T.step I last).state ∧
        Answer.stepped (T.step I last).result = Answer.stepped (S.step I last).result
      rw [hS, hT, hresS, hresT, h.pay_eq hle hr]
      refine ⟨⟨h.table, h.completion, h.shaping, rfl, ?_⟩, rfl⟩
      rintro _ ⟨⟩
      exact hr

/-- **A run is answered alike.** -/
theorem run (h : Mirrors d reward shaping S T) (cs : List Call) :
    Mirrors d reward shaping (Simulator.after S cs) (Simulator.after T cs) ∧
      Simulator.answers T cs = Simulator.answers S cs := by
  induction cs generalizing S T with
  | nil => exact ⟨h, rfl⟩
  | cons c cs ih =>
    obtain ⟨hnext, hanswer⟩ := h.call c
    obtain ⟨hlast, hrest⟩ := ih hnext
    exact ⟨hlast, by rw [Simulator.answers, Simulator.answers, hanswer, hrest]⟩

end Mirrors

/-- **Completion is invisible to simulators.**  Make any calls to a simulator of the table `d` and
    to one of its completion.  Whatever the kind of amounts, they give the same answers, states and
    rewards both, and after every call they are at the same state and give the same verdicts.  The
    states of the table and its sink, which is a state of the completion unless that is the table
    itself, have the same successors, levels, failure flags and potentials in both, and the levels
    have the same top. -/
theorem completion_is_invisible (d : Dfa) (reward : R) (shaping : Shaping R) :
    let M := PricedAutomaton.new d.toAutomaton reward
    let M' := PricedAutomaton.new d.complete.toAutomaton reward
    let E := CompleteSimulator.new d.toAutomaton reward shaping
    let E' := CompleteSimulator.new d.complete.toAutomaton reward shaping
    (∀ cs, Simulator.answers E' cs = Simulator.answers E cs ∧
      Simulator.state? (Simulator.after E' cs) = Simulator.state? (Simulator.after E cs) ∧
      Simulator.isTrue (Simulator.after E' cs) = Simulator.isTrue (Simulator.after E cs) ∧
      Simulator.isFailed (Simulator.after E' cs) = Simulator.isFailed (Simulator.after E cs)) ∧
    (∀ q ≤ d.size, (∀ I, d.complete.successor q I = d.successor q I) ∧
      M'.levels.level q = M.levels.level q ∧ M'.isFailure q = M.isFailure q ∧
      ∀ last, M'.potential.eval q last = M.potential.eval q last) ∧
    M'.levels.top = M.levels.top ∧
    (d.complete = d ∨ d.complete.size = d.size + 1 ∧
      d.complete.table[d.sink]? = some [(.tt, d.sink)]) := by
  intro M M' E E'
  refine ⟨fun cs => ?_, fun q hq => ⟨d.successor_complete hq, ?_, ?_, d.eval_complete hq reward⟩,
    Levels.top_congr d.distance_complete, ?_⟩
  · obtain ⟨hafter, hanswers⟩ := (mirrors_new d reward shaping).run cs
    exact ⟨hanswers, hafter.agrees⟩
  · exact Levels.level_congr d.distance_complete q
  · exact Levels.isFailure_congr d.distance_complete q
  · refine d.complete_cases.imp id fun h => ⟨Dfa.sink_of_table_complete h, ?_⟩
    rw [h]
    exact Dfa.getElem?_completedTable.2 (Or.inr ⟨rfl, rfl⟩)

end GoalAutomata
