/-
  The part of an unfolding that has been seen.

  Configurations get consecutive states in the order of their discovery, the
  initial one `0`.  They are listed by state, and a map leads back from each to its
  state.  The sink is the capacity, so that it stays the same while the graph
  grows.  An observed transition is labelled with the interpretation restricted to
  the alphabet.

  * `KnownGraph.record`: notes a transition, and tells what is new;
  * `KnownGraph.toAutomaton`: the graph as an automaton, in which a label that has
    not been observed leads to the sink.
-/
import GoalAutomata.Automaton
import GoalAutomata.Outcome

namespace GoalAutomata

/-- The observed transitions of one state, by label. -/
abbrev LabelMap := Std.ExtTreeMap Fluents Nat Fluents.order

/-- What has been seen of an unfolding. -/
structure KnownGraph (C : Type) where
  alphabet : Fluents
  /-- the greatest number of states -/
  capacity : Nat
  /-- the configuration of each state -/
  configurations : List C
  /-- the state of each known configuration, the latest first -/
  ids : List (C × Nat)
  /-- the observed transitions of each state that has some -/
  rows : StateMap LabelMap
  accepting : States
  /-- the states that provably cannot reach acceptance -/
  failures : States

/-- What recording a transition has brought. -/
structure Discovery where
  /-- the state of the destination -/
  state : Nat
  /-- whether the destination had not been seen -/
  isNew : Bool
  /-- whether a state, a transition or a classification is new -/
  changed : Bool
  deriving DecidableEq

namespace KnownGraph

variable {C : Type}

/-- The graph that knows the initial configuration only; it has room for at least that. -/
def new (initial : C) (accepting failed : Bool) (alphabet : Fluents) (capacity : Nat) :
    KnownGraph C where
  alphabet
  capacity := max capacity 1
  configurations := [initial]
  ids := [(initial, 0)]
  rows := ∅
  accepting := if accepting && !failed then .ofList [0] else ∅
  failures := if failed then .ofList [0] else ∅

/-- The number of states. -/
def size (G : KnownGraph C) : Nat := G.configurations.length

/-- The configuration of a state. -/
def configuration? (G : KnownGraph C) (q : Nat) : Option C := G.configurations[q]?

/-- The label of a transition on `I`. -/
def label (G : KnownGraph C) (I : Fluents) : Fluents := I.restrict G.alphabet

/-- The observed transitions of a state. -/
def row (G : KnownGraph C) (q : Nat) : LabelMap := G.rows[q]?.getD ∅

section Record

variable [DecidableEq C] {R : Type}

/-- The state of a configuration. -/
def state? (G : KnownGraph C) (c : C) : Option Nat := G.ids.lookup c

/-- The graph with one more configuration, which gets the next state. -/
def add (G : KnownGraph C) (c : C) : KnownGraph C :=
  { G with configurations := G.configurations ++ [c], ids := (c, G.size) :: G.ids }

/-- Finds the state of a configuration, or adds it, which fails if there is no room.  The flag tells
    whether it is new. -/
def enter (G : KnownGraph C) (c : C) : Outcome R (KnownGraph C) (Nat × Bool) :=
  match G.state? c with
  | some q => .done (q, false) G
  | none =>
    if G.capacity ≤ G.size then .failed (.graphFull G.capacity) G
    else .done (G.size, true) (G.add c)

/-- The graph with a transition, unless one with its label is there, and whether it is new. -/
def connect (G : KnownGraph C) (q : Nat) (label : Fluents) (r : Nat) : KnownGraph C × Bool :=
  if label ∈ G.row q then (G, false)
  else ({ G with rows := G.rows.insert q ((G.row q).insert label r) }, true)

/-- The graph with a state classified, and whether the classification is new.  A failure is never
    accepting. -/
def classify (G : KnownGraph C) (q : Nat) (accepting failed : Bool) : KnownGraph C × Bool :=
  if failed then ({ G with failures := G.failures.insert q }, !G.failures.contains q)
  else if accepting then
    ({ G with accepting := G.accepting.insert q }, !G.accepting.contains q)
  else (G, false)

/-- Notes a transition from the state `q` to the configuration `c`. -/
def record (G : KnownGraph C) (q : Nat) (label : Fluents) (c : C) (accepting failed : Bool) :
    Outcome R (KnownGraph C) Discovery :=
  (G.enter c).andThen fun (r, isNew) G =>
    let (G, connected) := G.connect q label r
    let (G, classified) := G.classify r accepting failed
    .done ⟨r, isNew, isNew || connected || classified⟩ G

end Record

/-! ## As an automaton -/

/-- Where a label leads: to the sink unless it has been observed. -/
def successor (G : KnownGraph C) (q : Nat) (I : Fluents) : Except Error Nat :=
  if q = G.capacity then .ok G.capacity
  else if G.size ≤ q then .error (.unknownState q)
  else .ok ((G.row q)[G.label I]?.getD G.capacity)

/-- The observed transitions from a state, by label; the sink has a loop. -/
def transitionsFrom (G : KnownGraph C) (q : Nat) : Except Error (List Transition) :=
  if q = G.capacity then .ok [⟨G.capacity, .tt, G.capacity⟩]
  else if G.size ≤ q then .error (.unknownState q)
  else .ok ((G.row q).toList.map fun e => ⟨q, .minterm e.1 G.alphabet, e.2⟩)

/-- The known graph as an automaton. -/
def toAutomaton (G : KnownGraph C) : Automaton where
  states := .below G.size
  initial := 0
  accepting := G.accepting
  sink := G.capacity
  isAccepting q := G.accepting.contains q
  successor := G.successor
  transitionsFrom := G.transitionsFrom

end KnownGraph

end GoalAutomata
