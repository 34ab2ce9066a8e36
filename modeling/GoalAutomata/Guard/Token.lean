/-
  The tokens of guard text.

  Text is cut into words (the longest runs of letters, digits and underscores)
  and operator characters; blanks separate and are dropped.  `~` and `!` both
  negate.  Any other character is illegal, and `Token.scan` answers the first.
-/
import GoalAutomata.Text.Alphanumeric
import GoalAutomata.Text.Extender

namespace GoalAutomata

/-- A word, an operator or a parenthesis. -/
inductive Token where
  | word (name : List Char)
  | neg
  | conj
  | disj
  | left
  | right
  deriving DecidableEq

namespace Token

/-- Whether a character can stand in a word. -/
def isWordChar (c : Char) : Bool := Text.isAlphanumeric c || c == '_'

/-- The token that an operator character stands for. -/
def ofOperator? : Char → Option Token
  | '~' | '!' => some neg
  | '&' => some conj
  | '|' => some disj
  | '(' => some left
  | ')' => some right
  | _ => none

/-- The word read so far (last character first), if any, in front of the tokens that follow. -/
def endWord (read : List Char) (ts : List Token) : List Token :=
  match read with
  | [] => ts
  | _ => word read.reverse :: ts

/-- The tokens of a text after the part `read` of a word (last character first), or the first
    illegal character. -/
def scanFrom (read : List Char) : List Char → Except Char (List Token)
  | [] => .ok (endWord read [])
  | c :: cs =>
    if Text.isBlank c then (endWord read ·) <$> scanFrom [] cs
    else match ofOperator? c with
      | some t => (endWord read <| t :: ·) <$> scanFrom [] cs
      | none => if isWordChar c then scanFrom (c :: read) cs else .error c

/-- The tokens of a text, or its first illegal character. -/
def scan (cs : List Char) : Except Char (List Token) := scanFrom [] cs

/-! ## Naming a token -/

/-- A character of a word as it is quoted: one that would merge with its neighbour or not be seen
    is escaped by its code point. -/
def quoteChar (c : Char) : String :=
  if Text.isExtender c || Text.isFiller c then
    "\\u\x7b" ++ String.ofList (Nat.toDigits 16 c.toNat) ++ "\x7d"
  else c.toString

/-- The name of a token in messages, a word with its text in quotes. -/
def describe : Token → String
  | word w => "Ident(\"" ++ String.join (w.map quoteChar) ++ "\")"
  | neg => "Not"
  | conj => "And"
  | disj => "Or"
  | left => "Open"
  | right => "Close"

end Token

end GoalAutomata
