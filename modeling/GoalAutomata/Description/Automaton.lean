/-
  The written form of an automaton.

  Guards are kept as text.  The form of an automaton lists its transitions in
  their order, each once, so two automata with the same transitions have the same
  form, in whatever order their rows list them.

  * `Dfa.toDescription` and `Description.toDfa`: between the two;
  * `Description.render` and `Description.read`: between the form and JSON text.
-/
import GoalAutomata.Dfa
import GoalAutomata.Guard.Printer
import GoalAutomata.Json.Reader
import GoalAutomata.Json.Writer

namespace GoalAutomata

/-- A transition with its guard as text. -/
structure WrittenTransition where
  source : Nat
  guard : String
  destination : Nat
  deriving DecidableEq

/-- An automaton with its guards as text. -/
structure Description where
  states : Nat
  initial : Nat
  accepting : List Nat
  transitions : List WrittenTransition
  deriving DecidableEq

/-! ## From and to automata -/

namespace WrittenTransition

/-- A transition as written. -/
def ofTransition (t : Transition) : WrittenTransition := ⟨t.source, t.guard.render, t.destination⟩

/-- The transition, if its guard is one. -/
def toTransition (t : WrittenTransition) : Except Error Transition :=
  (⟨t.source, ·, t.destination⟩) <$> Guard.read t.guard

end WrittenTransition

/-- The transitions of a list, or the first error. -/
def readTransitions : List WrittenTransition → Except Error (List Transition)
  | [] => .ok []
  | t :: ts =>
    match t.toTransition with
    | .error e => .error e
    | .ok u => (u :: ·) <$> readTransitions ts

/-- The written form of an automaton. -/
def Dfa.toDescription (d : Dfa) : Description where
  states := d.size
  initial := d.initial
  accepting := d.accepting.toList
  transitions := d.toAutomaton.transitions.toList.map .ofTransition

/-- The automaton of a written form: its guards are read first, then it is checked. -/
def Description.toDfa (D : Description) : Except Error Dfa :=
  match readTransitions D.transitions with
  | .error e => .error e
  | .ok ts => Dfa.ofTransitions D.states D.initial (.ofList D.accepting) ts

/-! ## From and to JSON -/

namespace WrittenTransition

/-- A written transition as JSON. -/
def toJson (t : WrittenTransition) : Json :=
  .record [("source", .count t.source), ("guard", .text t.guard),
    ("destination", .count t.destination)]

/-- The written transition that a value describes. -/
def ofJson? (x : Json) : Option WrittenTransition :=
  match x.fields? ["source", "guard", "destination"] with
  | some [some source, some guard, some destination] => do
    return ⟨← source.count?, ← guard.text?, ← destination.count?⟩
  | _ => none

end WrittenTransition

namespace Description

/-- A written form as JSON. -/
def toJson (D : Description) : Json :=
  .record [("states", .count D.states), ("initial_state", .count D.initial),
    ("accepting_states", .array (D.accepting.map .count)),
    ("transitions", .array (D.transitions.map (·.toJson)))]

/-- The written form that a value describes; the initial state may miss and is then `0`. -/
def ofJson? (x : Json) : Option Description :=
  match x.fields? ["states", "initial_state", "accepting_states", "transitions"] with
  | some [some states, initial, some accepting, some transitions] => do
    let states ← states.count?
    let initial ← match initial with
      | none => some 0
      | some x => x.count?
    let accepting ← (← accepting.array?).mapM (·.count?)
    let transitions ← (← transitions.array?).mapM WrittenTransition.ofJson?
    return { states, initial, accepting, transitions }
  | _ => none

/-- A written form as indented text. -/
def render (D : Description) : String := D.toJson.pretty

/-- The written form of a text. -/
def read (text : String) : Except Error Description :=
  match (Json.read text).bind ofJson? with
  | some D => .ok D
  | none => .error .badDescription

end Description

/-- The automaton that a text describes. -/
def Dfa.read (text : String) : Except Error Dfa :=
  match Description.read text with
  | .error e => .error e
  | .ok D => D.toDfa

end GoalAutomata
