/-
  Only the fluents that are mentioned matter.

  Two interpretations that agree on the names in a guard give it the same meaning,
  and a table of guarded entries reads the same from interpretations that agree on
  its alphabet.  The interpretations over the atoms of a row therefore stand for all
  interpretations, and what holds of each of them holds of every one.

  * `Guard.holds_congr`, `Dfa.successor_congr`: other fluents do not matter;
  * `Row.exists_interpretation`: every interpretation has one over the atoms that
    agrees with it;
  * `Row.any_holds_of_isComplete`: a complete row leaves no interpretation unmatched.
-/
import GoalAutomata.Dfa
import Mathlib.Tactic.SplitIfs

namespace GoalAutomata

variable {I J : Fluents}

/-- **A guard sees only the fluents that it names.** -/
theorem Guard.holds_congr {g : Guard} (h : ∀ s ∈ g.names, s ∈ I ↔ s ∈ J) :
    g.holds I = g.holds J := by
  induction g with
  | tt | ff => rfl
  | atom s =>
    rw [holds_atom, holds_atom, Bool.eq_iff_iff, Std.ExtTreeSet.contains_iff_mem,
      Std.ExtTreeSet.contains_iff_mem]
    exact h s (List.mem_singleton.2 rfl)
  | not g ih => rw [holds_not, holds_not, ih h]
  | and gs ih =>
    have hgs : ∀ g ∈ gs, g.holds I = g.holds J := fun g hg =>
      ih g hg fun s hs => h s (by simpa [names] using ⟨g, hg, hs⟩)
    rw [Bool.eq_iff_iff, holds_and, holds_and, List.all_eq_true, List.all_eq_true]
    exact forall₂_congr fun g hg => by rw [hgs g hg]
  | or gs ih =>
    have hgs : ∀ g ∈ gs, g.holds I = g.holds J := fun g hg =>
      ih g hg fun s hs => h s (by simpa [names] using ⟨g, hg, hs⟩)
    rw [Bool.eq_iff_iff, holds_or, holds_or, List.any_eq_true, List.any_eq_true]
    exact exists_congr fun g => and_congr_right fun hg => by rw [hgs g hg]

namespace Row

variable {row : Row}

theorem mem_atoms {s : String} : s ∈ row.atoms ↔ ∃ e ∈ row, s ∈ e.1.names := by
  simp [atoms, Std.ExtTreeSet.mem_ofList]

theorem holds_congr (h : ∀ s ∈ row.atoms, s ∈ I ↔ s ∈ J) {e : Guard × Nat} (he : e ∈ row) :
    e.1.holds I = e.1.holds J :=
  Guard.holds_congr fun s hs => h s (mem_atoms.2 ⟨e, he, hs⟩)

/-- The entry that is taken is the same. -/
theorem find?_congr (h : ∀ e ∈ row, e.1.holds I = e.1.holds J) :
    row.find? (·.1.holds I) = row.find? (·.1.holds J) := by
  induction row with
  | nil => rfl
  | cons e row ih =>
    rw [List.find?_cons, List.find?_cons, h e (by simp), ih fun e' he => h e' (by simp [he])]

/-- **The interpretations over the atoms stand for all.** -/
theorem exists_interpretation {Is : List Fluents} (h : row.interpretations? = some Is)
    (I : Fluents) : ∃ J ∈ Is, ∀ s ∈ row.atoms, s ∈ I ↔ s ∈ J := by
  unfold interpretations? at h
  split_ifs at h
  cases h
  refine ⟨.ofList (row.atoms.toList.filter (I.contains ·)), ?_, ?_⟩
  · exact List.mem_map_of_mem (mem_subsets.2 List.filter_sublist)
  · intro s hs
    simp [Std.ExtTreeSet.mem_ofList, hs]

/-- **A complete row leaves no interpretation unmatched.** -/
theorem any_holds_of_isComplete (h : row.isComplete = true) (I : Fluents) :
    row.any (·.1.holds I) = true := by
  rw [isComplete, Bool.or_eq_true] at h
  rcases h with h | h
  · obtain ⟨e, he, hg⟩ := List.any_eq_true.1 h
    refine List.any_eq_true.2 ⟨e, he, ?_⟩
    rw [of_decide_eq_true hg, Guard.holds_tt]
  · cases hIs : row.interpretations? with
    | none => simp [hIs] at h
    | some Is =>
      rw [hIs] at h
      obtain ⟨J, hJ, hagree⟩ := exists_interpretation hIs I
      obtain ⟨e, he, hholds⟩ := List.any_eq_true.1 (List.all_eq_true.1 h J hJ)
      refine List.any_eq_true.2 ⟨e, he, ?_⟩
      rw [holds_congr hagree he, hholds]

end Row

namespace Dfa

variable {d : Dfa}

theorem mem_alphabet {s : String} : s ∈ d.alphabet ↔ ∃ row ∈ d.table, s ∈ row.atoms := by
  simp [alphabet, Row.mem_atoms, Std.ExtTreeSet.mem_ofList]

/-- **An automaton sees only the fluents of its alphabet.** -/
theorem successor_congr (h : ∀ s ∈ d.alphabet, s ∈ I ↔ s ∈ J) (q : Nat) :
    d.successor q I = d.successor q J := by
  unfold successor
  split_ifs
  · rfl
  · cases hrow : d.table[q]? with
    | none => rfl
    | some row =>
      have hmem : row ∈ d.table := List.mem_of_getElem? hrow
      have hatoms : ∀ s ∈ row.atoms, s ∈ I ↔ s ∈ J := fun s hs =>
        h s (mem_alphabet.2 ⟨row, hmem, hs⟩)
      simp only [Row.find?_congr fun _ he => Row.holds_congr hatoms he]

end Dfa

end GoalAutomata
