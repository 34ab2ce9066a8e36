/-
  Levels: backward distances to acceptance.

  The graph of an automaton has an edge for every transition that can be listed
  and whose guard is not the constant `false`.  The level of a state is the least
  number of edges to an accepting state.  States without a path, the failures,
  get the level after the last one.

  * `search edges targets`: a breadth-first search from the targets, against the
    edges, with a queue and the distances found so far;
  * `Levels.ofAutomaton`: the levels of an automaton.
-/
import GoalAutomata.Automaton

namespace GoalAutomata

/-! ## Distances in a graph -/

/-- A breadth-first search in its course. -/
structure Search where
  /-- the states still to be taken, the next one first -/
  queue : List Nat
  /-- the distance of every state that has entered the queue -/
  found : StateMap Nat
  /-- the distance of the state taken last -/
  last? : Option Nat

namespace Search

/-- All targets are queued, at distance zero. -/
def start (targets : States) : Search :=
  ⟨targets.toList, targets.toList.foldl (·.insert · 0) ∅, none⟩

/-- The source `p` of an edge into distance `k` is queued unless it has a distance already. -/
def visit (k : Nat) (s : Search) (p : Nat) : Search :=
  if p ∈ s.found then s
  else { s with queue := s.queue ++ [p], found := s.found.insert p (k + 1) }

/-- One turn of the loop, none once the queue is empty: takes the first state of the queue and
    visits its sources. -/
def turn (sources : Nat → List Nat) (s : Search) : Option Search :=
  match s.queue with
  | [] => none
  | q :: queue =>
    let k := s.found[q]?.getD 0
    some ((sources q).foldl (visit k) { s with queue, last? := some k })

/-- At most `n` turns of the loop. -/
def run (sources : Nat → List Nat) : Nat → Search → Search
  | 0, s => s
  | n + 1, s =>
    match s.turn sources with
    | none => s
    | some t => run sources n t

/-- One past the distance of the state taken last, zero if none was. -/
def top (s : Search) : Nat := s.last?.elim 0 (· + 1)

end Search

/-- The sources of the edges into each state that has some. -/
def predecessors (edges : List (Nat × Nat)) : StateMap States :=
  edges.foldl (fun P e => P.alter e.2 fun qs? => some ((qs?.getD ∅).insert e.1)) ∅

/-- The predecessors of a state, in ascending order. -/
def sourcesInto (P : StateMap States) (q : Nat) : List Nat := (P[q]?.getD ∅).toList

/-- The search for the targets, against the edges.  A state that is not a target is queued as the
    source of some edge, and once only, which bounds the turns. -/
def search (edges : List (Nat × Nat)) (targets : States) : Search :=
  (Search.start targets).run (sourcesInto (predecessors edges)) (edges.length + targets.size)

/-! ## Levels of an automaton -/

/-- The distances to acceptance of the states of an automaton. -/
structure Levels where
  /-- the level of each known state, that of the failures included -/
  known : StateMap Nat
  /-- one past the last level found, zero when nothing is accepting -/
  top : Nat
  /-- the states without a path to acceptance -/
  failures : States

namespace Levels

/-- The level of a state; an unknown one is at the top. -/
def level (L : Levels) (q : Nat) : Nat := L.known[q]?.getD L.top

/-- Whether a state has no path to acceptance. -/
def isFailure (L : Levels) (q : Nat) : Bool := L.failures.contains q || !L.known.contains q

end Levels

namespace Automaton

/-- The states together with the sink. -/
def allStates (A : Automaton) : States := A.states.insert A.sink

/-- The edges of the graph: the transitions that can be listed and are not guarded by `false`. -/
def edges (A : Automaton) : List (Nat × Nat) :=
  A.allStates.toList.flatMap fun q =>
    match A.transitionsFrom q with
    | .ok ts => (ts.filter (·.guard ≠ .ff)).map fun t => (t.source, t.destination)
    | .error _ => []

/-- The search for acceptance, against the edges. -/
def levelSearch (A : Automaton) : Search := search A.edges A.accepting

end Automaton

namespace Levels

/-- The levels of an automaton. -/
def ofAutomaton (A : Automaton) : Levels :=
  let s := A.levelSearch
  let failures := A.allStates.filter (!s.found.contains ·)
  { known := failures.toList.foldl (·.insert · s.top) s.found
    top := s.top
    failures }

end Levels

end GoalAutomata
