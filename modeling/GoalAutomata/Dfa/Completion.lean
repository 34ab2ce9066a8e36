/-
  Completion: the sink made explicit.

  Every state that some interpretation may leave unmatched gets one more entry,
  guarded by the negation of all its guards, into a new state with the number of
  the old sink.  The new state loops and is not accepting.  An automaton whose
  states are all complete stays as it is.
-/
import GoalAutomata.Dfa

namespace GoalAutomata

namespace Row

/-- The guard that holds exactly where no guard of the row does. -/
def missing (row : Row) : Guard :=
  if row.isEmpty then .tt else (Guard.or (row.map (·.1))).neg

theorem holds_missing (row : Row) (I : Fluents) :
    row.missing.holds I = !row.any (·.1.holds I) := by
  unfold missing
  split
  · simp_all
  · simp [List.any_map, Function.comp_def]

/-- The row with an entry into `sink` for what it leaves unmatched. -/
def completed (sink : Nat) (row : Row) : Row :=
  if row.isComplete then row else row ++ [(row.missing, sink)]

theorem mem_completed {sink : Nat} {row : Row} {e : Guard × Nat} (h : e ∈ row.completed sink) :
    e ∈ row ∨ e.2 = sink := by
  unfold completed at h
  split at h
  · exact .inl h
  · simp only [List.mem_append, List.mem_singleton] at h
    exact h.imp id (congrArg Prod.snd)

end Row

namespace Dfa

/-- The rows of a completion: those of the states, each completed, and that of the old sink. -/
def completedTable (d : Dfa) : List Row :=
  d.table.map (Row.completed d.sink) ++ [[(.tt, d.sink)]]

theorem length_completedTable (d : Dfa) : d.completedTable.length = d.table.length + 1 := by
  rw [completedTable, List.length_append, List.length_map, List.length_singleton]

theorem lt_length_completedTable {d : Dfa} {q : Nat} (h : q < d.table.length) :
    q < d.completedTable.length := by
  rw [length_completedTable]
  exact Nat.lt_succ_of_lt h

theorem target_lt_completedTable (d : Dfa) :
    ∀ row ∈ d.completedTable, ∀ e ∈ row, e.2 < d.completedTable.length := by
  intro row hrow e he
  have hs : d.sink < d.completedTable.length := by
    rw [length_completedTable]
    exact Nat.lt_succ_self _
  rcases List.mem_append.1 hrow with hrow | hrow
  · obtain ⟨old, hold, rfl⟩ := List.mem_map.1 hrow
    rcases Row.mem_completed he with he | he
    · exact lt_length_completedTable (d.target_lt old hold e he)
    · rw [he]
      exact hs
  · rw [List.mem_singleton.1 hrow] at he
    rw [List.mem_singleton.1 he]
    exact hs

/-- The automaton with its sink as one more state, unless every state is complete. -/
def complete (d : Dfa) : Dfa :=
  if d.table.all Row.isComplete then d
  else {
    initial := d.initial
    accepting := d.accepting
    table := d.completedTable
    initial_lt := lt_length_completedTable d.initial_lt
    accepting_lt := fun q hq => lt_length_completedTable (d.accepting_lt q hq)
    target_lt := d.target_lt_completedTable }

end Dfa

end GoalAutomata
