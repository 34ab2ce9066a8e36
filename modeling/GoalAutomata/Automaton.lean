/-
  Automata over interpretations.

  An automaton may be incomplete: reading an interpretation that no guard accepts
  leads to its sink, a state one past the real ones.  `Automaton` is what the rest
  of the library sees of any of them, whatever they are made of: two queries that
  may fail (`successor`, `transitionsFrom`) and the states that matter.

  * `Automaton.transitions`: the transitions of all states whose transitions can
    be listed, each once, by source, guard and destination;
  * `Automaton.walk`: the states along a word, from a given one.
-/
import GoalAutomata.Error
import GoalAutomata.Event
import GoalAutomata.Guard.Order

namespace GoalAutomata

/-- A guarded transition. -/
structure Transition where
  source : Nat
  guard : Guard
  destination : Nat
  deriving DecidableEq

namespace Transition

/-- Transitions are ordered by source, then guard, then destination. -/
def order : Transition → Transition → Ordering :=
  compareLex (compareOn source)
    (compareLex (fun t u => t.guard.order u.guard) (compareOn destination))

instance : Std.TransCmp fun t u : Transition => t.guard.order u.guard where
  eq_swap {t u} := @Std.OrientedCmp.eq_swap Guard Guard.order _ t.guard u.guard
  isLE_trans {t u v} := @Std.TransCmp.isLE_trans Guard Guard.order _ t.guard u.guard v.guard

instance : Std.TransCmp order := inferInstanceAs (Std.TransCmp (compareLex _ (compareLex _ _)))

instance : Std.LawfulEqCmp order where
  eq_of_compare {t u} h := by
    cases t; cases u
    simp only [order, compareLex, compareOn, Ordering.then_eq_eq] at h
    simp only [mk.injEq]
    exact ⟨Std.LawfulEqCmp.eq_of_compare h.1, Std.LawfulEqCmp.eq_of_compare h.2.1,
      Std.LawfulEqCmp.eq_of_compare h.2.2⟩

end Transition

/-- A set of transitions. -/
abbrev Transitions := Std.ExtTreeSet Transition Transition.order

/-- An automaton over interpretations. -/
structure Automaton where
  states : States
  initial : Nat
  accepting : States
  /-- where an interpretation leads that no guard accepts -/
  sink : Nat
  isAccepting : Nat → Bool
  successor : Nat → Fluents → Except Error Nat
  transitionsFrom : Nat → Except Error (List Transition)
  /-- whether the query for a successor is reported as one that no guard accepts -/
  unmatched : Nat → Fluents → Bool := fun _ _ => false

namespace Automaton

/-- One past the last of some states, `0` if there is none. -/
def sinkOf (qs : States) : Nat :=
  match qs.max? with
  | some q => q + 1
  | none => 0

/-- All transitions that can be listed. -/
def transitions (A : Automaton) : Transitions :=
  .ofList (A.states.toList.flatMap fun q => (A.transitionsFrom q).toOption.getD []) _

/-- What the query for a successor reports. -/
def remarks {R : Type} (A : Automaton) (q : Nat) (I : Fluents) : List (Event R) :=
  if A.unmatched q I then [.unmatched q I] else []

/-- The states along a word from the state `q`, which comes first. -/
def walk (A : Automaton) (q : Nat) : List Fluents → Except Error (List Nat)
  | [] => .ok [q]
  | I :: w =>
    match A.successor q I with
    | .error e => .error e
    | .ok r => (q :: ·) <$> A.walk r w

/-- What the queries along a word report. -/
def walkRemarks {R : Type} (A : Automaton) (q : Nat) : List Fluents → List (Event R)
  | [] => []
  | I :: w =>
    A.remarks q I ++
      match A.successor q I with
      | .error _ => []
      | .ok r => A.walkRemarks r w

end Automaton

end GoalAutomata
