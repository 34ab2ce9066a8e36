/-
  Levels and failures mean what words can do.

  The levels of a table come from its entries, whatever their guards say; words are
  read by the first entry that holds.  A word that leads to acceptance never goes
  through the sink and follows an edge with every interpretation, so it is a path,
  and the level of its start is no greater than its length.  Where every guard can
  hold, and no two of a state together, every edge is a move, so a shortest path is
  a word as well.

  * `Automaton.Accepts`: the words that lead to acceptance;
  * `Dfa.pathTo_of_accepts`, `Dfa.exists_accepts_of_pathTo`: words against paths;
  * `Dfa.not_reaches_of_successor`: what is lost stays lost;
  * `levels_count_words`: levels and failures, in terms of words.
-/
import GoalAutomata.Proofs.Dfa.Moves

namespace GoalAutomata

/-! ## Words -/

namespace Automaton

variable {A : Automaton} {q : Nat} {I : Fluents} {w : List Fluents} {qs : List Nat}

/-- The word `w` leads from the state `q` to an accepting one. -/
def Accepts (A : Automaton) (q : Nat) (w : List Fluents) : Prop :=
  ∃ qs r, A.walk q w = .ok qs ∧ qs.getLast? = some r ∧ r ∈ A.accepting

theorem walk_cons_eq_ok_iff : A.walk q (I :: w) = .ok qs ↔
    ∃ r rs, A.successor q I = .ok r ∧ A.walk r w = .ok rs ∧ qs = q :: rs := by
  rw [walk]
  cases hr : A.successor q I with
  | error e => simp
  | ok r =>
    cases hw : A.walk r w with
    | error e => simp [hw]
    | ok rs => simp [hw, eq_comm]

theorem walk_ne_nil (h : A.walk q w = .ok qs) : qs ≠ [] := by
  cases w with
  | nil =>
    cases h
    simp
  | cons I w =>
    obtain ⟨r, rs, -, -, rfl⟩ := walk_cons_eq_ok_iff.1 h
    simp

@[simp] theorem accepts_nil : A.Accepts q [] ↔ q ∈ A.accepting := by
  simp [Accepts, walk]

theorem accepts_cons :
    A.Accepts q (I :: w) ↔ ∃ r, A.successor q I = .ok r ∧ A.Accepts r w := by
  constructor
  · rintro ⟨qs, p, hqs, hlast, hp⟩
    obtain ⟨r, rs, hr, hrs, rfl⟩ := walk_cons_eq_ok_iff.1 hqs
    rw [List.getLast?_cons_of_ne_nil (walk_ne_nil hrs)] at hlast
    exact ⟨r, hr, rs, p, hrs, hlast, hp⟩
  · rintro ⟨r, hr, rs, p, hrs, hlast, hp⟩
    refine ⟨q :: rs, p, walk_cons_eq_ok_iff.2 ⟨r, rs, hr, hrs, rfl⟩, ?_, hp⟩
    rwa [List.getLast?_cons_of_ne_nil (walk_ne_nil hrs)]

end Automaton

/-! ## Words and paths of a table -/

namespace Dfa

variable {d : Dfa} {q r n : Nat} {I : Fluents} {w : List Fluents}

/-- **A word that leads to acceptance is a path.** -/
theorem pathTo_of_accepts (h : d.toAutomaton.Accepts q w) :
    PathTo d.toAutomaton.Edge (· ∈ d.accepting) w.length q := by
  induction w generalizing q with
  | nil => exact .target (Automaton.accepts_nil.1 h)
  | cons I w ih =>
    obtain ⟨r, hr, hw⟩ := Automaton.accepts_cons.1 h
    rcases sink_or_edge_of_successor hr with rfl | hE
    · exact absurd (ih hw) not_pathTo_sink
    · exact .edge hE (ih hw)

/-- **A path is a word** where guards can hold, and none together with another. -/
theorem exists_accepts_of_pathTo (hsat : ∀ row ∈ d.table, ∀ e ∈ row, ∃ I, e.1.holds I = true)
    (hexcl : ∀ row ∈ d.table, row.Exclusive)
    (h : PathTo d.toAutomaton.Edge (· ∈ d.accepting) n q) :
    ∃ w : List Fluents, w.length = n ∧ d.toAutomaton.Accepts q w := by
  induction h with
  | target hacc => exact ⟨[], rfl, Automaton.accepts_nil.2 hacc⟩
  | edge hE _ ih =>
    obtain ⟨w, hlen, hw⟩ := ih
    obtain ⟨I, hI⟩ := exists_successor_of_edge hsat hexcl hE
    exact ⟨I :: w, congrArg (· + 1) hlen, Automaton.accepts_cons.2 ⟨_, hI, hw⟩⟩

/-- **What is lost stays lost**: no interpretation leads back to where acceptance can be reached. -/
theorem not_reaches_of_successor (h : ¬ d.toAutomaton.Reaches q) (hr : d.successor q I = .ok r) :
    ¬ d.toAutomaton.Reaches r := by
  rintro ⟨n, hn⟩
  rcases sink_or_edge_of_successor hr with rfl | hE
  · exact not_pathTo_sink hn
  · exact h ⟨n + 1, .edge hE hn⟩

/-- Every word can be read from a lost state, and finds no accepting one. -/
theorem exists_walk_of_not_reaches (h : ¬ d.toAutomaton.Reaches q) (hq : q ≤ d.size)
    (w : List Fluents) :
    ∃ qs, d.toAutomaton.walk q w = .ok qs ∧ ∀ r ∈ qs, r ∉ d.accepting := by
  have hrejects : ∀ r, ¬ d.toAutomaton.Reaches r → r ∉ d.accepting := fun r hr hacc =>
    hr (Automaton.reaches_of_mem_accepting hacc)
  induction w generalizing q with
  | nil => exact ⟨[q], rfl, by simpa using hrejects q h⟩
  | cons I w ih =>
    obtain ⟨r, hr, hsucc⟩ := d.exists_successor hq I
    obtain ⟨rs, hrs, hnone⟩ := ih (not_reaches_of_successor h hsucc) hr
    exact ⟨q :: rs, Automaton.walk_cons_eq_ok_iff.2 ⟨r, rs, hsucc, hrs, rfl⟩,
      List.forall_mem_cons.2 ⟨hrejects q h, hnone⟩⟩

end Dfa

/-- **Levels and failures mean what words can do.**  From a state of the table `d` or its sink, a
    word that leads to acceptance shows that the state is no failure, and that its level is at most
    the length of the word.  A failure meets no accepting state whatever it reads.  If every guard
    can hold, and no two of a state together, then the level of a state that is no failure is the
    length of a shortest word that leads to acceptance, and the failures are the states from which
    no word does. -/
theorem levels_count_words (d : Dfa) :
    let L := Levels.ofAutomaton d.toAutomaton
    (∀ q ≤ d.size, q ∈ L.failures ↔ L.isFailure q = true) ∧
    (∀ q ≤ d.size, ∀ w, d.toAutomaton.Accepts q w →
      L.isFailure q = false ∧ L.level q ≤ w.length) ∧
    (∀ q ≤ d.size, L.isFailure q = true → ∀ w,
      ∃ qs, d.toAutomaton.walk q w = .ok qs ∧ ∀ r ∈ qs, r ∉ d.accepting) ∧
    ((∀ row ∈ d.table, ∀ e ∈ row, ∃ I, e.1.holds I = true) →
      (∀ row ∈ d.table, row.Exclusive) → ∀ q ≤ d.size,
        (L.isFailure q = false →
          IsLeast {k | ∃ w : List Fluents, w.length = k ∧ d.toAutomaton.Accepts q w} (L.level q)) ∧
        (L.isFailure q = true ↔ ∀ w, ¬ d.toAutomaton.Accepts q w)) := by
  intro L
  have hlost : ∀ q, L.isFailure q = true ↔ ¬ d.toAutomaton.Reaches q :=
    fun q => Levels.isFailure_iff
  have hword : ∀ q w, d.toAutomaton.Accepts q w → L.isFailure q = false ∧ L.level q ≤ w.length := by
    intro q w hw
    have hpath := Dfa.pathTo_of_accepts hw
    refine ⟨?_, Levels.level_le_of_pathTo hpath⟩
    rw [← Bool.not_eq_true, hlost]
    exact not_not.2 ⟨w.length, hpath⟩
  refine ⟨fun q hq => ?_, fun q _ => hword q, fun q hq hf => ?_, fun hsat hexcl q _ => ⟨?_, ?_⟩⟩
  · rw [Levels.isFailure_eq_contains (Dfa.mem_allStates.2 hq), Std.ExtTreeSet.contains_iff_mem]
  · exact Dfa.exists_walk_of_not_reaches ((hlost q).1 hf) hq
  · intro hf
    rw [← Bool.not_eq_true, hlost, not_not] at hf
    have hpath := (Levels.distance_level hf).1
    refine ⟨Dfa.exists_accepts_of_pathTo hsat hexcl hpath, ?_⟩
    rintro _ ⟨w, rfl, hw⟩
    exact (hword q w hw).2
  · constructor
    · intro hf w hw
      rw [(hword q w hw).1] at hf
      cases hf
    · intro hnone
      rw [hlost]
      rintro ⟨n, hn⟩
      obtain ⟨w, -, hw⟩ := Dfa.exists_accepts_of_pathTo hsat hexcl hn
      exact hnone w hw

/-- Acceptance after two steps and not before, and never from the sink. -/
theorem words_of_two_steps :
    IsLeast {k | ∃ w : List Fluents, w.length = k ∧ Dfa.twoSteps.toAutomaton.Accepts 0 w} 2 ∧
      ∀ w, ¬ Dfa.twoSteps.toAutomaton.Accepts 3 w := by
  have hsat : ∀ row ∈ Dfa.twoSteps.table, ∀ e ∈ row, ∃ I, e.1.holds I = true := by
    simp [Dfa.twoSteps]
  have hexcl : ∀ row ∈ Dfa.twoSteps.table, row.Exclusive := by
    simp [Dfa.twoSteps, Row.Exclusive]
  obtain ⟨-, -, -, h⟩ := levels_count_words Dfa.twoSteps
  have hstart : (Levels.ofAutomaton Dfa.twoSteps.toAutomaton).isFailure 0 = false := by
    decide +kernel
  have hlevel : (Levels.ofAutomaton Dfa.twoSteps.toAutomaton).level 0 = 2 := by decide +kernel
  have hsink : (Levels.ofAutomaton Dfa.twoSteps.toAutomaton).isFailure 3 = true := by
    decide +kernel
  have hleast := (h hsat hexcl 0 (by decide)).1 hstart
  rw [hlevel] at hleast
  exact ⟨hleast, (h hsat hexcl 3 (by decide)).2.1 hsink⟩

end GoalAutomata
