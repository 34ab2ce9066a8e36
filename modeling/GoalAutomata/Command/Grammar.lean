/-
  Reading the arguments of a command.

  A command has options, which begin with two dashes, and perhaps one operand.  An
  option is a flag or takes a value, in the same argument after an equals sign or in
  the next one.  An argument that begins with a dash, save a single dash, is never
  taken for the value of an earlier one; after `--` every argument is an operand.

  Reading is a walk over the arguments that builds up what is asked for.  A value
  in an argument of its own waits until the next known argument: it is checked
  then, so that a fault in it gives way to an argument that is unknown.
-/

namespace GoalAutomata

/-! ## Refusals -/

/-- Why arguments are not carried out. -/
inductive Refusal where
  /-- help is asked for -/
  | help
  /-- nothing is asked for -/
  | noCommand
  | unknownCommand
  | unknownArgument
  /-- an operand is missing -/
  | missingOperand
  /-- an option is given twice -/
  | repeated
  /-- an option lacks a value, or has an empty one where that has no meaning -/
  | missingValue
  /-- a flag has a value -/
  | surplusValue
  /-- a value has the wrong form -/
  | badValue
  deriving DecidableEq

namespace Refusal

/-- The wording of a refusal. -/
def message : Refusal → String
  | help => "Commands: train, inspect FILE, export FILE, help."
  | noCommand => "A command is needed: train, inspect or export."
  | unknownCommand => "There is no such command."
  | unknownArgument => "There is no such argument."
  | missingOperand => "A file is needed."
  | repeated => "An option is given twice."
  | missingValue => "An option needs a value."
  | surplusValue => "A flag takes no value."
  | badValue => "A value has the wrong form."

end Refusal

/-! ## Arguments -/

/-- An argument by its form. -/
inductive Argument where
  /-- two dashes alone -/
  | escape
  /-- two dashes and a name, perhaps with a value -/
  | long (name : String) (value? : Option String)
  /-- a dash and letters -/
  | short (letter : Char)
  /-- anything else -/
  | word (text : String)
  deriving DecidableEq

/-- The form of an argument. -/
def Argument.ofText (text : String) : Argument :=
  match text.toList with
  | ['-', '-'] => escape
  | '-' :: '-' :: cs =>
    let name := String.ofList (cs.takeWhile (· ≠ '='))
    match cs.dropWhile (· ≠ '=') with
    | [] => long name none
    | _ :: value => long name (some (String.ofList value))
  | '-' :: c :: _ => short c
  | _ => word text

/-- How a value changes what is asked for. -/
abbrev Setter (τ : Type) := String → τ → Except Refusal τ

/-- An option. -/
inductive Choice (τ : Type) where
  | flag (set : τ → τ)
  | value (set : Setter τ)

/-- The arguments of a command that asks for something in `τ`. -/
structure Grammar (τ : Type) where
  options : List (String × Choice τ)
  operand? : Option (Setter τ) := none

/-! ## Reading -/

/-- A value to be checked, or to come. -/
structure Pending (τ : Type) where
  /-- the name of its option, none for an operand -/
  name? : Option String
  value? : Option String
  set : Setter τ

/-- How far the arguments have been read. -/
structure Reading (τ : Type) where
  /-- what is asked for so far -/
  target : τ
  /-- the names of the options so far, none for the operand -/
  given : List (Option String) := []
  pending? : Option (Pending τ) := none
  /-- whether an operand has been met -/
  operandMet : Bool := false

namespace Reading

variable {τ : Type}

/-- Checks the value that waits. -/
def settle (r : Reading τ) : Except Refusal (Reading τ) :=
  match r.pending? with
  | none => .ok r
  | some p => match p.value? with
    | none => .error .missingValue
    | some v =>
      if p.name? ∈ r.given then .error .repeated
      else
        (fun target =>
          { r with target, given := p.name? :: r.given, pending? := none }) <$> p.set v r.target

/-- After a flag. -/
def raise (r : Reading τ) (name : String) (set : τ → τ) : Except Refusal (Reading τ) :=
  match r.settle with
  | .error e => .error e
  | .ok r =>
    if some name ∈ r.given then .error .repeated
    else .ok { r with target := set r.target, given := some name :: r.given }

/-- After the name of an option, and its value if that is in the same argument. -/
def await (r : Reading τ) (name : String) (value? : Option String) (set : Setter τ) :
    Except Refusal (Reading τ) :=
  match r.settle with
  | .error e => .error e
  | .ok r =>
    let r := { r with pending? := some ⟨some name, value?, set⟩ }
    if value?.isSome then r.settle else .ok r

/-- After an operand. -/
def operand (g : Grammar τ) (r : Reading τ) (text : String) : Except Refusal (Reading τ) :=
  match g.operand? with
  | some set =>
    if r.operandMet then .error .unknownArgument
    else
      (fun r => { r with pending? := some ⟨none, some text, set⟩, operandMet := true })
        <$> r.settle
  | none => .error .unknownArgument

/-- After a word, which is a value if one is to come. -/
def word (g : Grammar τ) (r : Reading τ) (text : String) : Except Refusal (Reading τ) :=
  match r.pending? with
  | some ⟨name?, none, set⟩ => .ok { r with pending? := some ⟨name?, some text, set⟩ }
  | _ => r.operand g text

/-- Help is given unless the value that waits is at fault. -/
def askHelp (r : Reading τ) : Except Refusal (Reading τ) :=
  match r.settle with
  | .error e => .error e
  | .ok _ => .error .help

/-- After an argument before `--`. -/
def argument (g : Grammar τ) (r : Reading τ) : Argument → Except Refusal (Reading τ)
  | .escape => .ok r
  | .short 'h' => r.askHelp
  | .short _ => .error .unknownArgument
  | .long "help" none => r.askHelp
  | .long "help" (some _) => .error .surplusValue
  | .long name value? =>
    match g.options.lookup name, value? with
    | none, _ => .error .unknownArgument
    | some (.flag _), some _ => .error .surplusValue
    | some (.flag set), none => r.raise name set
    | some (.value set), v? => r.await name v? set
  | .word text => r.word g text

/-- After a list of arguments. -/
def arguments (g : Grammar τ) : Reading τ → List String → Except Refusal (Reading τ)
  | r, [] => .ok r
  | r, text :: texts =>
    match Argument.ofText text with
    | .escape => texts.foldlM (operand g) r
    | a => match r.argument g a with
      | .error e => .error e
      | .ok r => arguments g r texts

end Reading

/-- What a list of arguments asks for, starting from `standard`. -/
def Grammar.read {τ : Type} (g : Grammar τ) (standard : τ) (texts : List String) :
    Except Refusal τ := do
  let r ← Reading.arguments g ⟨standard, [], none, false⟩ texts
  return (← r.settle).target

end GoalAutomata
