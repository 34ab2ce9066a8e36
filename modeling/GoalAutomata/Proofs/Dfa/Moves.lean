/-
  Edges and moves of a table.

  An edge is an entry that is not guarded by `false`, a move is what an
  interpretation does.  A move follows an edge unless it leads to the sink, and no
  path to acceptance goes through the sink.  The other way round an edge is a move
  where guards are satisfiable and no two of a state hold together: the
  interpretation that enables the entry enables no other.

  * `Dfa.sink_or_edge_of_successor`, `Dfa.exists_successor_of_edge`: both ways;
  * `Dfa.not_pathTo_sink`: the sink is lost.
-/
import GoalAutomata.Proofs.Dfa.Completion
import GoalAutomata.Proofs.Dfa.Determinism

namespace GoalAutomata

namespace Dfa

variable {d : Dfa} {q r n : Nat} {I : Fluents}

theorem not_pathTo_sink : ¬ PathTo d.toAutomaton.Edge (· ∈ d.accepting) n d.sink := by
  refine not_pathTo_of_trap (D := (d.sink ≤ ·)) (fun q hq hacc => ?_) (fun q r hq hE => ?_) le_rfl
  · exact absurd (d.accepting_lt q hacc) (not_lt.2 hq)
  · exact sink_le_of_edge hq hE

theorem sink_or_edge_of_successor (h : d.successor q I = .ok r) :
    r = d.sink ∨ d.toAutomaton.Edge q r := by
  rcases d.successor_cases q I with ⟨-, hq⟩ | ⟨row, hrow, hq⟩ | ⟨-, hq⟩
  · cases hq.symm.trans h
    exact Or.inl rfl
  · cases hq.symm.trans h
    cases hfind : row.find? (·.1.holds I) with
    | none => exact Or.inl rfl
    | some e =>
      have hholds := List.find?_some hfind
      have hguard : e.1 ≠ .ff := by
        intro hff
        rw [hff] at hholds
        cases hholds
      exact Or.inr (edge_iff.2
        (Or.inr ⟨row, hrow, e, List.mem_of_find?_eq_some hfind, rfl, hguard⟩))
  · cases hq.symm.trans h

/-- In an exclusive row an interpretation takes the entry that it enables. -/
theorem successor_of_holds {row : Row} (hrow : d.table[q]? = some row) (hexcl : row.Exclusive)
    {e : Guard × Nat} (he : e ∈ row) (hI : e.1.holds I = true) : d.successor q I = .ok e.2 := by
  rw [successor_of_row hrow, hexcl.find?_eq_some_iff.2 ⟨he, hI⟩, Option.elim_some]

/-- **Every edge is a move** where guards can hold, and none together with another. -/
theorem exists_successor_of_edge (hsat : ∀ row ∈ d.table, ∀ e ∈ row, ∃ I, e.1.holds I = true)
    (hexcl : ∀ row ∈ d.table, row.Exclusive) (h : d.toAutomaton.Edge q r) :
    ∃ I, d.successor q I = .ok r := by
  rcases edge_iff.1 h with ⟨rfl, rfl⟩ | ⟨row, hrow, e, he, rfl, -⟩
  · exact ⟨∅, if_pos rfl⟩
  · have hmem := List.mem_of_getElem? hrow
    obtain ⟨I, hI⟩ := hsat row hmem e he
    exact ⟨I, successor_of_holds hrow (hexcl row hmem) he hI⟩

end Dfa

end GoalAutomata
