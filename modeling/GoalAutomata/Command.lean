/-
  Commands: training on a chain, inspection and export of goal automata.

  `Command.read` reads a command from its arguments.  Every option has a standard
  value, and the operand is a file.
-/
import GoalAutomata.Amount
import GoalAutomata.Command.Grammar
import GoalAutomata.Single.Decimal

namespace GoalAutomata

/-! ## What can be asked for -/

/-- Training on a chain, and an evaluation of what has been learnt. -/
structure Training where
  /-- the number of cells -/
  states : Nat := 5
  episodes : Nat := 500
  alpha : Float32 := 1 / 10
  epsilon : Float32 := 1 / 10
  gamma : Float32 := 9 / 10
  seed : Nat := 42
  /-- what the goal pays -/
  reward : Float32 := 10
  /-- the file of the goal automaton; otherwise cells are to be visited in order -/
  automaton? : Option String := none
  /-- whether the goal pays on acceptance only -/
  sparse : Bool := false
  /-- whether the automaton is discovered on the way -/
  onTheFly : Bool := false
  /-- the number of episodes of the evaluation -/
  evaluations : Nat := 10

/-- The table of an automaton with its levels and potentials. -/
structure Inspection where
  file? : Option String := none
  reward : Float32 := 10

/-- A file with the automaton of visiting the cells of a chain. -/
structure Export where
  file? : Option String := none
  /-- the number of cells -/
  states : Nat := 5

/-- Something to be done. -/
inductive Command where
  | train (t : Training)
  | inspect (file : String) (reward : Float32)
  | write (file : String) (states : Nat)

/-! ## Values -/

/-- A natural number below `2 ^ 64`: digits, after a plus sign or none. -/
def wordOf? (text : String) : Option Nat :=
  let ds := match text.toList with
    | '+' :: ds => ds
    | ds => ds
  let n := Single.ofDigits ds
  if ds ≠ [] ∧ ds.all Char.isDigit ∧ n < Nat.pow 2 64 then some n else none

namespace Setter

variable {τ : Type}

/-- A natural number. -/
def word (set : Nat → τ → τ) : Setter τ := fun text t =>
  match wordOf? text with
  | some n => .ok (set n t)
  | none => .error .badValue

/-- A single precision number. -/
def single (set : Float32 → τ → τ) : Setter τ := fun text t =>
  match Single.read? text with
  | some x => .ok (set x t)
  | none => .error .badValue

/-- A file, whose name is not empty. -/
def file (set : String → τ → τ) : Setter τ := fun text t =>
  if text.isEmpty then .error .missingValue else .ok (set text t)

end Setter

/-! ## Grammars -/

namespace Training

/-- The arguments of training. -/
def grammar : Grammar Training where
  options := [
    ("states", .value (.word fun n t => { t with states := n })),
    ("episodes", .value (.word fun n t => { t with episodes := n })),
    ("alpha", .value (.single fun x t => { t with alpha := x })),
    ("epsilon", .value (.single fun x t => { t with epsilon := x })),
    ("gamma", .value (.single fun x t => { t with gamma := x })),
    ("seed", .value (.word fun n t => { t with seed := n })),
    ("reward", .value (.single fun x t => { t with reward := x })),
    ("automaton", .value (.file fun path t => { t with automaton? := some path })),
    ("sparse", .flag fun t => { t with sparse := true }),
    ("on-the-fly", .flag fun t => { t with onTheFly := true }),
    ("eval-episodes", .value (.word fun n t => { t with evaluations := n }))]

end Training

namespace Inspection

/-- The arguments of inspection. -/
def grammar : Grammar Inspection where
  options := [("reward", .value (.single fun x i => { i with reward := x }))]
  operand? := some (.file fun path i => { i with file? := some path })

end Inspection

namespace Export

/-- The arguments of export. -/
def grammar : Grammar Export where
  options := [("states", .value (.word fun n x => { x with states := n }))]
  operand? := some (.file fun path x => { x with file? := some path })

end Export

namespace Command

/-- The first arguments that name something. -/
def names : List String := ["train", "inspect", "export", "help"]

/-- Training, as asked for. -/
def readTraining (texts : List String) : Except Refusal Command := do
  return train (← Training.grammar.read {} texts)

/-- Inspection, as asked for. -/
def readInspection (texts : List String) : Except Refusal Command := do
  let i ← Inspection.grammar.read {} texts
  match i.file? with
  | some path => return inspect path i.reward
  | none => .error .missingOperand

/-- Export, as asked for. -/
def readExport (texts : List String) : Except Refusal Command := do
  let x ← Export.grammar.read {} texts
  match x.file? with
  | some path => return write path x.states
  | none => .error .missingOperand

/-- Help, on everything or on one command. -/
def readHelp : List String → Except Refusal Command
  | [] => .error .help
  | [name] => if name ∈ names then .error .help else .error .unknownCommand
  | _ => .error .unknownCommand

/-- The command that arguments ask for.  No command follows `--`. -/
def read : List String → Except Refusal Command
  | [] => .error .noCommand
  | text :: texts =>
    match Argument.ofText text with
    | .escape => match texts with
      | [] => .error .noCommand
      | name :: _ => if name ∈ names then .error .unknownArgument else .error .unknownCommand
    | .long "help" none | .short 'h' => .error .help
    | .long "help" (some _) => .error .surplusValue
    | .long .. | .short _ => .error .unknownArgument
    | .word "train" => readTraining texts
    | .word "inspect" => readInspection texts
    | .word "export" => readExport texts
    | .word "help" => readHelp texts
    | .word _ => .error .unknownCommand

end Command

end GoalAutomata
