/-
  Writing JSON text, on one line or indented.

  Indented text puts every item and every field on a line of its own, two spaces
  deeper than its brackets; empty brackets stay together.  Quotes, backslashes
  and control characters are escaped, everything else stands for itself.
-/
import GoalAutomata.Json

namespace GoalAutomata

namespace Json

/-- A character as it stands in a string. -/
def writeChar (c : Char) : String :=
  match c with
  | '"' => "\\\""
  | '\\' => "\\\\"
  | '\x08' => "\\b"
  | '\x0c' => "\\f"
  | '\n' => "\\n"
  | '\r' => "\\r"
  | '\t' => "\\t"
  | c =>
    if c.toNat < 0x20 then
      "\\u00" ++ String.ofList [Nat.digitChar (c.toNat / 16), Nat.digitChar (c.toNat % 16)]
    else c.toString

/-- A string between quotes. -/
def writeText (s : String) : String := "\"" ++ String.join (s.toList.map writeChar) ++ "\""

/-- A number that is a whole one, as the values written here are. -/
def writeNumeral (n : Numeral) : String :=
  (if n.negative then "-" else "") ++ toString (n.significand * Nat.pow 10 n.exponent.toNat)

/-- Where an item begins: nowhere else, or on a new line at a depth. -/
def lineBreak : Option Nat → String
  | none => ""
  | some depth => "\n" ++ String.ofList (List.replicate (2 * depth) ' ')

/-- Parts between brackets, separated by commas. -/
def bracket (left right : String) (depth : Option Nat) (parts : List String) : String :=
  if parts.isEmpty then left ++ right
  else
    left ++ ",".intercalate (parts.map (lineBreak (depth.map (· + 1)) ++ ·)) ++ lineBreak depth
      ++ right

mutual

/-- The text of a value: on one line, or indented from a depth on. -/
def writeAt (depth : Option Nat) : Json → String
  | null => "null"
  | bool b => if b then "true" else "false"
  | number n => writeNumeral n
  | string s => (s.map writeText).getD "null"
  | array xs => bracket "[" "]" depth (writeItems (depth.map (· + 1)) xs)
  | object fs => bracket "\x7b" "\x7d" depth (writeFields (depth.map (· + 1)) fs)

/-- The texts of the items of an array. -/
def writeItems (depth : Option Nat) : List Json → List String
  | [] => []
  | x :: xs => writeAt depth x :: writeItems depth xs

/-- The texts of the fields of an object. -/
def writeFields (depth : Option Nat) : List (Option String × Json) → List String
  | [] => []
  | (name, x) :: fs =>
    (writeText (name.getD "") ++ (if depth.isSome then ": " else ":") ++ writeAt depth x)
      :: writeFields depth fs

end

/-- The text of a value on one line. -/
def compact (x : Json) : String := writeAt none x

/-- The text of a value, indented. -/
def pretty (x : Json) : String := writeAt (some 0) x

end Json

end GoalAutomata
