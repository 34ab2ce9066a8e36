/-
  Shapes of finite sets of observations and actions.

  A space is one finite range, or a product of ranges.  `Space.cardinality` is
  the number of its values as far as it fits a 64-bit word: the dimensions are
  multiplied from left to right, and the first partial product that does not fit
  ends the count.
-/

namespace GoalAutomata

/-- The shape of a finite set of observations or actions. -/
inductive Space where
  /-- the numbers below `n` -/
  | discrete (n : Nat)
  /-- the tuples of numbers below the given sizes -/
  | multi (dims : List Nat)
  deriving DecidableEq, Inhabited

namespace Space

/-- The size of each component. -/
def dims : Space → List Nat
  | discrete n => [n]
  | multi ns => ns

/-- The product of two numbers, if it fits a 64-bit word. -/
def checkedMul (m n : Nat) : Option Nat := if m * n < Nat.pow 2 64 then some (m * n) else none

/-- The number of values, unless a partial product of the dimensions leaves the 64-bit words. -/
def cardinality (s : Space) : Option Nat := s.dims.foldlM checkedMul 1

/-- The components of both spaces, in order. -/
def compose (s t : Space) : Space := multi (s.dims ++ t.dims)

/-- A list of numbers in brackets. -/
def renderDims (ns : List Nat) : String := "[" ++ ", ".intercalate (ns.map toString) ++ "]"

/-- A space as text. -/
def render : Space → String
  | discrete n => "Discrete(" ++ toString n ++ ")"
  | multi ns => "MultiDiscrete(" ++ renderDims ns ++ ")"

@[simp] theorem dims_discrete (n : Nat) : (discrete n).dims = [n] := rfl

@[simp] theorem dims_multi (ns : List Nat) : (multi ns).dims = ns := rfl

@[simp] theorem dims_compose (s t : Space) : (s.compose t).dims = s.dims ++ t.dims := rfl

end Space

end GoalAutomata
