/-
  Automata whose queries stay among their states.

  An automaton is closed if every state and the sink have a successor, which is a
  state or the sink again (`Automaton.Closed`).  A table of guarded entries is a
  closed automaton (`Dfa.closed`); its states with the sink are the numbers up to
  its size.
-/
import GoalAutomata.Dfa
import GoalAutomata.Proofs.Levels

namespace GoalAutomata

/-- A state or the sink is where the automaton starts and where every step from one leads, and the
    accepting states are those that are listed. -/
structure Automaton.Closed (A : Automaton) : Prop where
  initial : A.initial ∈ A.allStates
  successor : ∀ q ∈ A.allStates, ∀ I, ∃ r ∈ A.allStates, A.successor q I = .ok r
  accepting : ∀ q, A.isAccepting q = true ↔ q ∈ A.accepting

namespace Dfa

variable {d : Dfa} {q : Nat}

theorem mem_allStates : q ∈ d.toAutomaton.allStates ↔ q ≤ d.size := by
  rw [Automaton.mem_allStates, Nat.le_iff_lt_or_eq]
  exact or_congr States.mem_below Iff.rfl

theorem exists_successor (h : q ≤ d.size) (I : Fluents) :
    ∃ r ≤ d.size, d.successor q I = .ok r := by
  rcases d.successor_cases q I with ⟨-, hq⟩ | ⟨row, hrow, hq⟩ | ⟨hlt, -⟩
  · exact ⟨d.sink, le_rfl, hq⟩
  · refine ⟨_, ?_, hq⟩
    cases he : row.find? (·.1.holds I) with
    | none => exact le_rfl
    | some e =>
      have hlt := d.target_lt row (List.mem_of_getElem? hrow) e (List.mem_of_find?_eq_some he)
      exact hlt.le
  · exact absurd h (not_le.2 hlt)

/-- A state lists its entries, and the sink its loop. -/
theorem transitionsFrom_eq_ok_iff {ts : List Transition} : d.transitionsFrom q = .ok ts ↔
    q = d.sink ∧ ts = [⟨q, .tt, q⟩] ∨
      ∃ row, d.table[q]? = some row ∧ ts = row.map fun e => ⟨q, e.1, e.2⟩ := by
  unfold transitionsFrom
  by_cases hq : q = d.sink
  · have hrow : d.table[d.sink]? = none := List.getElem?_eq_none le_rfl
    simp [hq, hrow, eq_comm]
  · cases hrow : d.table[q]? <;> simp [hq, eq_comm]

/-- The edges of a table: the loop of the sink, and the entries not guarded by `false`. -/
theorem edge_iff {r : Nat} : d.toAutomaton.Edge q r ↔ q = d.sink ∧ r = d.sink ∨
    ∃ row, d.table[q]? = some row ∧ ∃ e ∈ row, e.2 = r ∧ e.1 ≠ .ff := by
  rw [Automaton.edge_iff fun p ts hts t ht => ?_, ← Automaton.mem_allStates, mem_allStates]
  · constructor
    · rintro ⟨-, ts, hts, t, ht, rfl, hg⟩
      rcases transitionsFrom_eq_ok_iff.1 hts with ⟨hq, rfl⟩ | ⟨row, hrow, rfl⟩
      · rw [List.mem_singleton.1 ht]
        exact Or.inl ⟨hq, hq⟩
      · obtain ⟨e, he, rfl⟩ := List.mem_map.1 ht
        exact Or.inr ⟨row, hrow, e, he, rfl, hg⟩
    · rintro (⟨hq, hr⟩ | ⟨row, hrow, e, he, rfl, hg⟩)
      · refine ⟨hq.le, _, transitionsFrom_eq_ok_iff.2 (Or.inl ⟨hq, rfl⟩), _,
          List.mem_singleton_self _, hq.trans hr.symm, by simp⟩
      · have hlt : q < d.size := (List.getElem?_eq_some_iff.1 hrow).1
        exact ⟨hlt.le, _, transitionsFrom_eq_ok_iff.2 (Or.inr ⟨row, hrow, rfl⟩), _,
          List.mem_map_of_mem he, rfl, hg⟩
  · rcases transitionsFrom_eq_ok_iff.1 hts with ⟨-, rfl⟩ | ⟨row, -, rfl⟩
    · rw [List.mem_singleton.1 ht]
    · obtain ⟨e, -, rfl⟩ := List.mem_map.1 ht
      rfl

/-- **A table is a closed automaton.** -/
theorem closed (d : Dfa) : d.toAutomaton.Closed where
  initial := mem_allStates.2 d.initial_lt.le
  successor q hq I := by
    obtain ⟨r, hr, hsucc⟩ := exists_successor (mem_allStates.1 hq) I
    exact ⟨r, mem_allStates.2 hr, hsucc⟩
  accepting _ := Std.ExtTreeSet.contains_iff_mem

end Dfa

end GoalAutomata
