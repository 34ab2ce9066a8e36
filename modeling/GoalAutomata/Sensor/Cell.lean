/-
  Sensors of a walker on cells.

  A cell sensor tells the cell, by its own fluent or by those listed for it.  On
  demand it tells the action, the number of the reading, and the states of goals
  that the observation carries.  Readings are counted from one over the whole
  life of the sensor, and chosen ones fail.
-/
import GoalAutomata.Chain.Visiting
import GoalAutomata.Environment.Chain
import GoalAutomata.Sensor

namespace GoalAutomata

/-! ## What an observation tells -/

/-- Observations that tell a cell, and perhaps the states of goals. -/
class Located (O : Type) where
  position : O → Nat
  states : O → List Nat

/-- A number is a cell. -/
instance : Located Nat := ⟨id, fun _ => []⟩

/-- An observation with states of goals. -/
instance {O : Type} [Located O] : Located (O × List Nat) :=
  ⟨fun o => Located.position o.1, fun o => Located.states o.1 ++ o.2⟩

/-- The fluent of an action. -/
def ChainAction.fluent : ChainAction → String
  | left => "left"
  | stay => "nop"
  | right => "right"

/-! ## The sensor -/

/-- A sensor of a walker on cells. -/
structure CellSensor where
  /-- the fluents of each cell, none for a cell that is not listed; without a list every cell has
      its own -/
  listed? : Option (StateMap Fluents) := none
  /-- the numbers of the readings that fail -/
  failAt : List Nat := []
  tellsAction : Bool := false
  tellsReading : Bool := false
  tellsStates : Bool := false
  /-- the number of readings so far -/
  readings : Nat := 0

namespace CellSensor

/-- The fluents of a cell. -/
def cell (x : CellSensor) (position : Nat) : Fluents :=
  match x.listed? with
  | none => cellFluents position
  | some m => m[position]?.getD ∅

/-- The fluent of an action, or of there being none. -/
def action : Option ChainAction → String
  | some a => a.fluent
  | none => "start"

/-- The fluents of the states of goals, which are numbered from zero. -/
def goalStates (qs : List Nat) : List String :=
  qs.zipIdx.map fun p => "g" ++ toString p.2 ++ "q" ++ toString p.1

/-- The reading with number `n`. -/
def observe {O : Type} [Located O] (x : CellSensor) (n : Nat) (o : O) (a? : Option ChainAction) :
    Fluents :=
  let more :=
    (if x.tellsAction then [action a?] else []) ++
    (if x.tellsReading then ["c" ++ toString n] else []) ++
    (if x.tellsStates then goalStates (Located.states o) else [])
  (x.cell (Located.position o)).insertMany more

instance {O : Type} [Located O] : Sensor CellSensor O ChainAction where
  read x o a? :=
    let n := x.readings + 1
    (if n ∈ x.failAt then .error ("sensor failure at call " ++ toString n)
      else .ok (x.observe n o a?),
     { x with readings := n })

end CellSensor

end GoalAutomata
