/-
  Guards as text.

  Disjunction binds weakest, then conjunction, then negation.  An operand stands
  in parentheses when it does not bind tighter than its parent, also where a
  reader would not need them: a disjunction inside a disjunction keeps its own.
-/
import GoalAutomata.Guard

namespace GoalAutomata

namespace Guard

/-- How tightly a guard binds. -/
def strength : Guard → Nat
  | or _ => 1
  | and _ => 2
  | not _ => 3
  | _ => 4

/-- The text `s` of `g` as an operand of a guard that binds with strength `n`. -/
def wrap (n : Nat) (g : Guard) (s : List Char) : List Char :=
  if g.strength ≤ n then '(' :: s ++ [')'] else s

mutual

/-- The characters of a guard. -/
def chars : Guard → List Char
  | tt => ['t', 'r', 'u', 'e']
  | ff => ['f', 'a', 'l', 's', 'e']
  | atom s => s.toList
  | not g => '~' :: wrap 3 g (chars g)
  | and gs => operandChars 2 [' ', '&', ' '] gs
  | or gs => operandChars 1 [' ', '|', ' '] gs

/-- The characters of operands of strength-`n` parents, with a separator between them. -/
def operandChars (n : Nat) (sep : List Char) : List Guard → List Char
  | [] => []
  | g :: gs => wrap n g (chars g) ++ moreChars n sep gs

/-- The characters of further operands, each after a separator. -/
def moreChars (n : Nat) (sep : List Char) : List Guard → List Char
  | [] => []
  | g :: gs => sep ++ wrap n g (chars g) ++ moreChars n sep gs

end

/-- A guard as text. -/
def render (g : Guard) : String := .ofList g.chars

end Guard

end GoalAutomata
