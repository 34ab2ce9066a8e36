/-
  The goal of visiting cells of a chain in order.

  A walker on the cells `0, ..., n - 1` makes one fluent true, that of its cell.
  The goal is to visit the cell before the last, then the first, then the last
  one; reaching the last cell early fails it.
-/
import GoalAutomata.Dfa.Builder

namespace GoalAutomata

/-- The fluent of a cell. -/
def cellFluent (position : Nat) : String := "s" ++ toString position

/-- The fluents of a walker on a cell. -/
def cellFluents (position : Nat) : Fluents := .ofList [cellFluent position]

/-- The goal on a chain of `n` cells: state `1` is past the checkpoint, state `2` back at the start,
    and state `3` at the end. -/
def visitingSequence (n : Nat) : Except Error Dfa := do
  let checkpoint := cellFluent (n - 2)
  let start := cellFluent 0
  let last := cellFluent (n - 1)
  let b := Builder.addState (.addState (.addState {}))
  let b ← b.addWritten 0 ("~" ++ checkpoint ++ " & ~" ++ last) 0
  let b ← b.addWritten 0 checkpoint 1
  let b ← b.addWritten 1 ("~" ++ start ++ " & ~" ++ last) 1
  let b ← b.addWritten 1 start 2
  let b ← b.addWritten 2 ("~" ++ last) 2
  let b ← b.addWritten 2 last 3
  let b ← b.addWritten 3 "true" 3
  (b.setAccepting 3 true).build

end GoalAutomata
