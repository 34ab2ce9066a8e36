/-
  Where commands keep files.

  * `Storage`: files as seen by a command, in any monad;
  * `Folder`: files held in memory, by the names on the way to them.  A folder
    exists as soon as a file is in it, and so does the current one;
  * `Folder.walk`: a path is followed name by name, and the first step that
    cannot be taken says what is wrong with it.
-/
import GoalAutomata.Error
import Std.Data.ExtTreeMap

namespace GoalAutomata

/-- Reading and writing of whole text files. -/
structure Storage (m : Type → Type) where
  read : String → m (Except FileError String)
  write : String → String → m (Except FileError Unit)

/-- The names on the way to a file or folder, from the outermost folder on. -/
abbrev PathParts := List String

/-- Files in memory. -/
structure Folder where
  /-- where paths start that do not begin with a slash -/
  current : PathParts
  files : Std.ExtTreeMap PathParts ByteArray compare := ∅

namespace Folder

/-- The most bytes of one name. -/
def maxNameSize : Nat := 255

/-- The most bytes of a path. -/
def maxPathSize : Nat := 4095

/-- What a path leads to. -/
inductive Place where
  | file (p : PathParts)
  | folder (p : PathParts)
  /-- nothing, in a folder that is there -/
  | vacant (p : PathParts)

/-- Whether there is a folder. -/
def isFolder (F : Folder) (p : PathParts) : Bool :=
  p.isPrefixOf F.current || F.files.keys.any fun q => p.isPrefixOf q && p ≠ q

/-- The place that names lead to from a folder.  An empty name and a dot stay, two dots go one
    folder up, and only a folder has something behind it. -/
def walk (F : Folder) (p : PathParts) : List String → Except FileError Place
  | [] => .ok (.folder p)
  | name :: rest =>
    if name = "" ∨ name = "." then F.walk p rest
    else if name = ".." then F.walk p.dropLast rest
    else if maxNameSize < name.utf8ByteSize then .error .nameTooLong
    else
      let q := p ++ [name]
      if q ∈ F.files then if rest = [] then .ok (.file q) else .error .notDirectory
      else if F.isFolder q then F.walk q rest
      else if rest = [] then .ok (.vacant q) else .error .missing

/-- Where a path starts. -/
def start (F : Folder) (path : String) : PathParts :=
  if path.startsWith "/" then [] else F.current

/-- The names of a path between its slashes, if it can be a path at all. -/
def names (path : String) : Except FileError (List String) :=
  if path.isEmpty then .error .missing
  else if path.toList.contains '\x00' then .error .illegalName
  else if maxPathSize < path.utf8ByteSize then .error .nameTooLong
  else .ok (path.splitOn "/")

/-- The files with a file laid down, in folders that come with it. -/
def put (F : Folder) (path : String) (bytes : ByteArray) : Folder :=
  let parts := (path.splitOn "/").filter fun name => name ≠ "" && name ≠ "."
  { F with files := F.files.insert (F.start path ++ parts) bytes }

/-- The bytes of a file. -/
def bytes (F : Folder) (path : String) : Except FileError ByteArray := do
  match ← F.walk (F.start path) (← names path) with
  | .file p => match F.files[p]? with
    | some b => return b
    | none => .error .missing
  | .folder _ => .error .isDirectory
  | .vacant _ => .error .missing

/-- The text of a file. -/
def read (F : Folder) (path : String) : Except FileError String :=
  match F.bytes path with
  | .error e => .error e
  | .ok b => match String.fromUTF8? b with
    | some text => .ok text
    | none => .error .notText

/-- The file that a path to be written to stands for.  A slash at its end asks for a folder, so no
    file can be meant, but the way there is still followed. -/
def target (F : Folder) (path : String) : Except FileError PathParts := do
  let parts ← names path
  if path.endsWith "/" then
    let outer := (parts.reverse.dropWhile (· = "")).tail.reverse
    let _ ← F.walk (F.start path) (outer ++ [""])
    .error .isDirectory
  else match ← F.walk (F.start path) parts with
    | .file p | .vacant p => return p
    | .folder _ => .error .isDirectory

/-- The files after a text has been written, to a file that is there or in a folder that is. -/
def write (F : Folder) (path text : String) : Except FileError Folder := do
  return { F with files := F.files.insert (← F.target path) text.toUTF8 }

/-- Files in memory as storage. -/
def storage : Storage (StateM Folder) where
  read path F := (F.read path, F)
  write path text F :=
    match F.write path text with
    | .ok F => (.ok (), F)
    | .error e => (.error e, F)

end Folder

end GoalAutomata
