/-
  Reading the modes of payment and the tunables of exploration from JSON.

  A missing field takes its standard value, an unknown one is passed over.
-/
import GoalAutomata.Json
import GoalAutomata.Shaping

namespace GoalAutomata

/-- A field that may miss, read if it is there. -/
def Json.orElse? {α : Type} (standard : α) (read : Json → Option α) : Option Json → Option α
  | none => some standard
  | some x => read x

namespace Mode

/-- The mode with a name. -/
def ofName? (s : String) : Option Mode :=
  if s = "sparse" then some sparse else if s = "potential" then some potential else none

/-- A mode, by its name or as an object with nothing else in it. -/
def ofJson? : Json → Option Mode
  | .string (some s) => ofName? s
  | .object [(some s, .null)] => ofName? s
  | _ => none

end Mode

namespace Shaping

/-- The shaping that a value describes. -/
def ofJson? (x : Json) : Option (Shaping Float32) :=
  match x.fields? ["mode", "discount"] with
  | some [mode, discount] => do
    let standard : Shaping Float32 := .standard
    let mode ← Json.orElse? standard.mode Mode.ofJson? mode
    let discount ← Json.orElse? standard.discount Json.single? discount
    return { mode, discount }
  | _ => none

end Shaping

namespace Exploration

/-- The exploration that a value describes. -/
def ofJson? (x : Json) : Option (Exploration Float32) :=
  match x.fields? ["shaping", "initial_bonus", "decay", "threshold", "max_states"] with
  | some [shaping, bonus, decay, threshold, maxStates] => do
    let standard : Exploration Float32 := .standard
    let shaping ← Json.orElse? standard.shaping Shaping.ofJson? shaping
    let initialBonus ← Json.orElse? standard.initialBonus Json.single? bonus
    let decay ← Json.orElse? standard.decay Json.single? decay
    let threshold ← Json.orElse? standard.threshold Json.single? threshold
    let maxStates ← Json.orElse? standard.maxStates Json.count? maxStates
    return { shaping, initialBonus, decay, threshold, maxStates }
  | _ => none

end Exploration

end GoalAutomata
