/-
  Spaces as JSON.

  A space is an object with one field, which names its kind: `Discrete` with a
  count, or `MultiDiscrete` with a list of counts.
-/
import GoalAutomata.Json
import GoalAutomata.Space

namespace GoalAutomata

namespace Space

/-- The value that describes a space. -/
def toJson : Space → Json
  | discrete n => .record [("Discrete", .count n)]
  | multi ns => .record [("MultiDiscrete", .array (ns.map .count))]

/-- The space that a value describes. -/
def ofJson? : Json → Option Space
  | .object [(some "Discrete", x)] => x.count?.map discrete
  | .object [(some "MultiDiscrete", x)] => (x.array?.bind (·.mapM Json.count?)).map multi
  | _ => none

theorem mapM_count (ns : List Nat) : (ns.map Json.count).mapM Json.count? = some ns := by
  induction ns with
  | nil => rfl
  | cons n ns ih =>
    rw [List.map_cons, List.mapM_cons, ih]
    rfl

/-- A space can be read from its value. -/
@[simp] theorem ofJson?_toJson (s : Space) : ofJson? s.toJson = some s := by
  cases s with
  | discrete n => rfl
  | multi ns => exact congrArg (Option.map multi) (mapM_count ns)

end Space

end GoalAutomata
