/-
  The program: commands over the files of the machine.
-/
import GoalAutomata.Command.Running

namespace GoalAutomata

/-- The failure of a file operation of the machine, which numbers its causes from zero up or
    down. -/
def FileError.ofMachine : IO.Error → FileError
  | .noFileOrDirectory .. => .missing
  | .inappropriateType _ n _ => if n = 20 ∨ -n = 20 then .notDirectory else .isDirectory
  | .invalidArgument _ n _ => if n = 36 ∨ -n = 36 then .nameTooLong else .illegalName
  | _ => .denied

/-- The files of the machine. -/
def machineStorage : Storage IO where
  read path := do
    match ← (IO.FS.readBinFile path).toBaseIO with
    | .error e => return .error (.ofMachine e)
    | .ok bytes => match String.fromUTF8? bytes with
      | some text => return .ok text
      | none => return .error .notText
  write path text := do
    match ← (IO.FS.writeFile path text).toBaseIO with
    | .error e => return .error (.ofMachine e)
    | .ok () => return .ok ()

/-- The value of a field as it is printed. -/
def Event.Value.render : Event.Value Float32 → String
  | .count n => toString n
  | .flag b => toString b
  | .amount x => Single.fixed 6 x
  | .text s => s

/-- An event on one line. -/
def Event.render (e : Event Float32) : String :=
  " ".intercalate (e.message :: e.fields.map fun f => f.1 ++ "=" ++ f.2.render)

end GoalAutomata

open GoalAutomata in
/-- Reads the command, carries it out and prints its report. -/
def main (args : List String) : IO UInt32 := do
  match Command.read args with
  | .error .help =>
    IO.println Refusal.help.message
    return 0
  | .error r =>
    IO.eprintln r.message
    return 2
  | .ok c =>
    let r ← c.run machineStorage
    r.shown.forM fun e => IO.println e.render
    r.lines.forM (IO.println ·)
    match r.result with
    | .ok () => return 0
    | .error e =>
      IO.eprintln e.message
      return 1
