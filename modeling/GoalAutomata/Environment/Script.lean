/-
  Environments that follow a script, whatever the actions.

  Every step plays the next line of the script, and the last line repeats; a line
  is an answer, or a failure.
-/
import GoalAutomata.Amount
import GoalAutomata.Environment

namespace GoalAutomata

/-- A line of a script. -/
inductive ScriptLine (R : Type) where
  | answer (s : Step Nat R)
  | invalid (state : Nat)

/-- An environment that plays lines. -/
structure Script (A R : Type) where
  /-- the observation of a reset -/
  start : Nat
  lines : List (ScriptLine R)
  /-- the lines to be played -/
  pending : List (ScriptLine R)
  observations : Space
  actions : Space

namespace Script

variable {A R : Type}

/-- The script from its first line on. -/
def restart (s : Script A R) : Script A R := { s with pending := s.lines }

/-- An episode plays every line once, or the last line over and over. -/
def horizon (s : Script A R) : Nat := max s.lines.length 1

/-- The script after a line has been played; the last one stays. -/
def proceed (s : Script A R) : Script A R :=
  match s.pending with
  | _ :: line :: rest => { s with pending := line :: rest }
  | _ => s

/-- The line to be played; a script without lines answers with zeros. -/
def line [Zero R] (s : Script A R) : ScriptLine R :=
  s.pending.head?.getD (.answer ⟨0, 0, false, ∅⟩)

instance [Zero R] : Environment (Script A R) Nat A R where
  reset s := .done s.start s.restart
  step s _ :=
    match s.line with
    | .answer r => .done r s.proceed
    | .invalid q => .failed (.unknownState q) s.proceed
  observations s := s.observations
  actions s := s.actions
  horizon := horizon

end Script

end GoalAutomata
