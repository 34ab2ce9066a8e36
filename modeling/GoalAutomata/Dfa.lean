/-
  Deterministic automata as tables of guarded entries.

  Row `q` of the table lists the entries of state `q`: a guard and the state to
  which it leads.  The sink is the number of states; it is absorbing and never
  accepting.

  * `Dfa.ofTransitions`: the checked construction.  The initial state, the
    accepting states and both ends of every transition must be states, and no
    interpretation may enable two entries of one state;
  * `conflict?`: the least interpretation that enables two entries of a row.  It
    is enough to try the sets of atoms that the row mentions.  A row with more
    than `maxAtoms` atoms is not tried, and `Dfa.unchecked` names its state.
-/
import GoalAutomata.Automaton
import GoalAutomata.Dfa.Subsets

namespace GoalAutomata

/-- The entries of one state: guards with the states to which they lead. -/
abbrev Row := List (Guard × Nat)

namespace Row

/-- With more atoms than this the interpretations of a row are not enumerated. -/
def maxAtoms : Nat := 16

/-- The fluents that the guards of a row mention. -/
def atoms (row : Row) : Fluents := .ofList (row.flatMap fun e => e.1.names)

/-- Every interpretation over the atoms of a row, by increasing size; none if there are too many
    atoms. -/
def interpretations? (row : Row) : Option (List Fluents) :=
  if row.atoms.size ≤ maxAtoms then some ((subsets row.atoms.toList).map (.ofList ·)) else none

/-- The entries whose guards hold. -/
def enabled (row : Row) (I : Fluents) : Row := row.filter (·.1.holds I)

/-- The first interpretation that enables two entries. -/
def conflict? (row : Row) : Option Fluents :=
  if row.length < 2 then none
  else row.interpretations?.bind fun Is => Is.find? fun I => 1 < (row.enabled I).length

/-- Whether some entry is enabled by every interpretation, as far as the atoms can be enumerated. -/
def isComplete (row : Row) : Bool :=
  row.any (·.1 = .tt) ||
    match row.interpretations? with
    | some Is => Is.all fun I => row.any (·.1.holds I)
    | none => false

end Row

/-- A deterministic automaton as a table of guarded entries. -/
structure Dfa where
  initial : Nat
  accepting : States
  /-- the entries of each state -/
  table : List Row
  initial_lt : initial < table.length
  accepting_lt : ∀ q ∈ accepting, q < table.length
  target_lt : ∀ row ∈ table, ∀ e ∈ row, e.2 < table.length
  deriving DecidableEq

namespace Dfa

/-- The number of states. -/
def size (d : Dfa) : Nat := d.table.length

/-- The sink is one past the last state. -/
def sink (d : Dfa) : Nat := d.size

/-- Every fluent that some guard mentions. -/
def alphabet (d : Dfa) : Fluents := .ofList (d.table.flatMap (·.flatMap fun e => e.1.names))

/-! ## Construction -/

/-- The entries from the state `q`, in the order in which they are listed. -/
def rowOf (ts : List Transition) (q : Nat) : Row :=
  (ts.filter (·.source = q)).map fun t => (t.guard, t.destination)

/-- The entries of the states `0, ..., n - 1`. -/
def tableOf (n : Nat) (ts : List Transition) : List Row := (List.range n).map (rowOf ts)

/-- Whether both ends of a transition are below `n`. -/
def inRange (n : Nat) (t : Transition) : Bool := t.source < n && t.destination < n

/-- The first state with a conflict, and its least conflicting interpretation. -/
def firstConflict? (d : Dfa) : Option (Nat × Fluents) :=
  (List.range d.size).findSome? fun q => (d.table[q]?.bind Row.conflict?).map (q, ·)

/-- The automaton with the given parts if their states are in range; its determinism is not
    checked. -/
def assemble (n initial : Nat) (accepting : States) (ts : List Transition) : Except Error Dfa :=
  if hi : n ≤ initial then .error (.initialOutOfRange initial n)
  else match ha : accepting.toList.find? (n ≤ ·) with
    | some q => .error (.acceptingOutOfRange q n)
    | none => match ht : ts.find? (!inRange n ·) with
      | some t => .error (.transitionOutOfRange t.source t.destination n)
      | none => .ok {
          initial, accepting
          table := tableOf n ts
          initial_lt := by simpa [tableOf] using hi
          accepting_lt := by
            intro q hq
            have := List.find?_eq_none.1 ha q (Std.ExtTreeSet.mem_toList.2 hq)
            simpa [tableOf] using this
          target_lt := by
            intro row hrow e he
            simp only [tableOf, List.mem_map] at hrow
            obtain ⟨q, _, rfl⟩ := hrow
            simp only [rowOf, List.mem_map, List.mem_filter] at he
            obtain ⟨t, ⟨ht', _⟩, rfl⟩ := he
            have := List.find?_eq_none.1 ht t ht'
            simp only [inRange, Bool.not_eq_true, Bool.not_eq_false', Bool.and_eq_true,
              decide_eq_true_eq] at this
            simpa [tableOf] using this.2 }

/-- **The checked construction**: the first fault, if there is one, is the error. -/
def ofTransitions (n initial : Nat) (accepting : States) (ts : List Transition) :
    Except Error Dfa :=
  match assemble n initial accepting ts with
  | .error e => .error e
  | .ok d => match d.firstConflict? with
    | some (q, I) => .error (.ambiguous q I)
    | none => .ok d

/-- The states whose determinism cannot be checked, for they mention too many atoms. -/
def unchecked (d : Dfa) : List Nat :=
  (List.range d.size).filter fun q =>
    d.table[q]?.any fun row => 2 ≤ row.length && row.interpretations?.isNone

/-- What the checked construction reports. -/
def remarks {R : Type} (d : Dfa) : List (Event R) := d.unchecked.map .determinismUnchecked

/-! ## Queries -/

/-- The entry that an interpretation enables first. -/
def entry? (d : Dfa) (q : Nat) (I : Fluents) : Option (Guard × Nat) :=
  d.table[q]?.bind (·.find? (·.1.holds I))

/-- Where an interpretation leads: the sink unless some entry is enabled. -/
def successor (d : Dfa) (q : Nat) (I : Fluents) : Except Error Nat :=
  if q = d.sink then .ok d.sink
  else match d.table[q]? with
    | none => .error (.unknownState q)
    | some row => .ok ((row.find? (·.1.holds I)).elim d.sink (·.2))

/-- The sink leads to itself, a state along the entry that is enabled first, and nothing else has a
    successor. -/
theorem successor_cases (d : Dfa) (q : Nat) (I : Fluents) :
    q = d.sink ∧ d.successor q I = .ok d.sink ∨
    (∃ row, d.table[q]? = some row ∧
      d.successor q I = .ok ((row.find? (·.1.holds I)).elim d.sink (·.2))) ∨
    d.sink < q ∧ d.successor q I = .error (.unknownState q) := by
  unfold successor
  by_cases hq : q = d.sink
  · exact Or.inl ⟨hq, if_pos hq⟩
  · rw [if_neg hq]
    cases hrow : d.table[q]? with
    | some row => exact Or.inr (Or.inl ⟨row, rfl, rfl⟩)
    | none =>
      have hle : d.sink ≤ q := List.getElem?_eq_none_iff.1 hrow
      exact Or.inr (Or.inr ⟨Nat.lt_of_le_of_ne hle (Ne.symm hq), rfl⟩)

theorem successor_of_row {d : Dfa} {q : Nat} {row : Row} (h : d.table[q]? = some row)
    (I : Fluents) :
    d.successor q I = .ok ((row.find? (·.1.holds I)).elim d.sink (·.2)) := by
  have hne : q ≠ d.sink := Nat.ne_of_lt (List.getElem?_eq_some_iff.1 h).1
  rw [successor, if_neg hne, h]

/-- The transitions from a state; the sink has a loop. -/
def transitionsFrom (d : Dfa) (q : Nat) : Except Error (List Transition) :=
  if q = d.sink then .ok [⟨d.sink, .tt, d.sink⟩]
  else match d.table[q]? with
    | none => .error (.unknownState q)
    | some row => .ok (row.map fun e => ⟨q, e.1, e.2⟩)

/-- Whether a state has no entry that an interpretation enables. -/
def unmatched (d : Dfa) (q : Nat) (I : Fluents) : Bool := q < d.size && (d.entry? q I).isNone

/-- A table as an automaton. -/
def toAutomaton (d : Dfa) : Automaton where
  states := .below d.size
  initial := d.initial
  accepting := d.accepting
  sink := d.sink
  isAccepting q := d.accepting.contains q
  successor := d.successor
  transitionsFrom := d.transitionsFrom
  unmatched := d.unmatched

end Dfa

end GoalAutomata
