/-
  What can go wrong, and how it is worded.

  Every fallible operation of the library answers an `Error`, which names the
  cause; `Error.message` is the only place where a cause becomes text.
-/
import GoalAutomata.Guard.Parser

namespace GoalAutomata

/-- Why a file could not be read or written. -/
inductive FileError where
  /-- there is no such file or directory -/
  | missing
  /-- the bytes are no text -/
  | notText
  /-- the path names a directory -/
  | isDirectory
  /-- a file stands where the path needs a directory -/
  | notDirectory
  /-- the path or a name in it has too many bytes -/
  | nameTooLong
  /-- the path has a character that no path has -/
  | illegalName
  /-- the machine refuses for another reason -/
  | denied
  deriving DecidableEq

/-- The cause of a failure. -/
inductive Error where
  /-- an initial state that is not one of the states -/
  | initialOutOfRange (state size : Nat)
  /-- an accepting state that is not one of the states -/
  | acceptingOutOfRange (state size : Nat)
  /-- a transition with an end that is not one of the states -/
  | transitionOutOfRange (source destination size : Nat)
  /-- two transitions of a state that one interpretation enables together -/
  | ambiguous (state : Nat) (interpretation : Fluents)
  /-- a chain without room for a step -/
  | chainTooShort (cells : Nat)
  /-- a state that the automaton does not have -/
  | unknownState (state : Nat)
  /-- a step before the first reset -/
  | notStarted
  /-- a failure of the sensor, with its own text -/
  | sensorFailed (cause : String)
  /-- a text that is no guard -/
  | badGuard (text : String) (cause : Guard.Failure)
  /-- a graph without room for another state -/
  | graphFull (capacity : Nat)
  /-- a formula that cannot be compiled or followed -/
  | badFormula (formula cause : String)
  /-- a file that cannot be read or written -/
  | badFile (cause : FileError)
  /-- a text that does not describe what it should -/
  | badDescription
  /-- an episode that did not end within its limit of steps -/
  | endless (limit : Nat)
  deriving DecidableEq

namespace Error

/-- The wording of an error. -/
def message : Error → String
  | initialOutOfRange q n =>
    s!"Invalid automaton: Initial state {q} is not one of the {n} states."
  | acceptingOutOfRange q n =>
    s!"Invalid automaton: Accepting state {q} is not one of the {n} states."
  | transitionOutOfRange q r n =>
    s!"Invalid automaton: Transition {q} -> {r} refers to a state outside of the {n} states."
  | ambiguous q I =>
    s!"Invalid automaton: State {q} has more than one transition enabled by the interpretation {I.render}."
  | chainTooShort n =>
    s!"Invalid automaton: The chain environment needs at least 2 cells but got {n}."
  | unknownState q => s!"State {q} does not belong to the automaton."
  | notStarted => "The simulator was stepped before being reset."
  | sensorFailed _ => "The fluent extractor failed."
  | badGuard text cause => s!"Couldn't parse the guard `{text}`: {cause.message}."
  | graphFull n => s!"The partial automaton can hold at most {n} states."
  | badFormula formula cause => s!"Couldn't compile the formula `{formula}`: {cause}."
  | badFile _ => "IO error"
  | badDescription => "Couldn't (de)serialize the configuration."
  | endless n => s!"The episode did not end within {n} steps."

end Error

/-- The guard of a text, or an error that carries the whole text. -/
def Guard.read (text : String) : Except Error Guard :=
  match Guard.parse text with
  | .ok g => .ok g
  | .error cause => .error (.badGuard text cause)

end GoalAutomata
