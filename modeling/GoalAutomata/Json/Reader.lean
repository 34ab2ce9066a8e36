/-
  Reading JSON text.

  Blanks are spaces, tabs, line feeds and carriage returns.  A number has no
  leading zero, and digits on both sides of its point.  A string holds no control
  character and only the escapes of the format.

  * `Json.read`: the value of a whole text.

  The bound on the recursion is taken from the length of the text: a value uses
  two units for each character that it consumes, at most.
-/
import GoalAutomata.Json

namespace GoalAutomata

namespace Json

/-- Whether a character separates tokens. -/
def isSpace (c : Char) : Bool := c == ' ' || c == '\t' || c == '\n' || c == '\r'

/-- The text without the blanks in front. -/
def skip (cs : List Char) : List Char := cs.dropWhile isSpace

/-! ## Numbers -/

/-- The digits in front of a text, and what follows them. -/
def digits (cs : List Char) : List Nat × List Char :=
  ((cs.takeWhile Char.isDigit).map fun c => c.toNat - '0'.toNat, cs.dropWhile Char.isDigit)

/-- The digits `ds` after the significand `n`, up to the first that does not fit a 64-bit word: the
    new significand and the number of digits taken. -/
def absorb (n : Nat) : List Nat → Nat × Nat
  | [] => (n, 0)
  | d :: ds =>
    if n * 10 + d < Nat.pow 2 64 then ((absorb (n * 10 + d) ds).1, (absorb (n * 10 + d) ds).2 + 1)
    else (n, 0)

/-- The number with the given whole part, fraction and exponent.  Digits of the whole part that do
    not fit count as zeros, those of the fraction are dropped. -/
def numeral (negative : Bool) (whole : List Nat) (fraction : Option (List Nat))
    (exponent : Option Int) : Numeral :=
  let (n, taken) := absorb 0 whole
  let dropped := whole.length - taken
  let (m, places) := absorb n (fraction.getD [])
  { negative
    significand := m
    exponent := exponent.getD 0 + dropped - places
    integral := dropped = 0 && fraction.isNone && exponent.isNone }

/-- The number of a list of digits. -/
def ofDigits (ds : List Nat) : Nat := ds.foldl (fun n d => n * 10 + d) 0

/-- The fraction in front of a text, if it starts with a point. -/
def readFraction : List Char → Option (Option (List Nat) × List Char)
  | '.' :: cs => match digits cs with
    | ([], _) => none
    | (ds, cs) => some (some ds, cs)
  | cs => some (none, cs)

/-- The digits of an exponent with the given sign. -/
def readExponentDigits (sign : Int) (cs : List Char) : Option (Option Int × List Char) :=
  match digits cs with
  | ([], _) => none
  | (ds, cs) => some (some (sign * ofDigits ds), cs)

/-- The exponent in front of a text, if it starts with its letter. -/
def readExponent : List Char → Option (Option Int × List Char)
  | 'e' :: '+' :: cs | 'E' :: '+' :: cs => readExponentDigits 1 cs
  | 'e' :: '-' :: cs | 'E' :: '-' :: cs => readExponentDigits (-1) cs
  | 'e' :: cs | 'E' :: cs => readExponentDigits 1 cs
  | cs => some (none, cs)

/-- A number after its sign. -/
def readNumber (negative : Bool) (cs : List Char) : Option (Json × List Char) :=
  match digits cs with
  | ([], _) | (0 :: _ :: _, _) => none
  | (whole, cs) =>
    match readFraction cs with
    | none => none
    | some (fraction, cs) =>
      match readExponent cs with
      | none => none
      | some (exponent, cs) => some (number (numeral negative whole fraction exponent), cs)

/-! ## Strings -/

/-- The value of a hexadecimal digit. -/
def hexDigit? (c : Char) : Option Nat :=
  if c.isDigit then some (c.toNat - '0'.toNat)
  else if 'a' ≤ c && c ≤ 'f' then some (c.toNat - 'a'.toNat + 10)
  else if 'A' ≤ c && c ≤ 'F' then some (c.toNat - 'A'.toNat + 10)
  else none

/-- The value of four hexadecimal digits. -/
def hex? (a b c d : Char) : Option Nat :=
  match hexDigit? a, hexDigit? b, hexDigit? c, hexDigit? d with
  | some a, some b, some c, some d => some (((a * 16 + b) * 16 + c) * 16 + d)
  | _, _, _, _ => none

/-- A piece of a string: a character, or a 16-bit unit given by its number. -/
inductive Piece where
  | char (c : Char)
  | unit (n : Nat)

/-- The characters of the pieces, if every surrogate unit is one of a pair. -/
def assemble : List Piece → Option (List Char)
  | [] => some []
  | .char c :: ps => (assemble ps).map (c :: ·)
  | .unit n :: ps =>
    if n < 0xd800 || 0xe000 ≤ n then (assemble ps).map (.ofNat n :: ·)
    else match ps with
      | .unit m :: ps =>
        if n < 0xdc00 && 0xdc00 ≤ m && m < 0xe000 then
          (assemble ps).map (.ofNat (0x10000 + (n - 0xd800) * 0x400 + (m - 0xdc00)) :: ·)
        else none
      | _ => none

/-- The character that a one-letter escape stands for. -/
def escape? : Char → Option Char
  | '"' => some '"'
  | '\\' => some '\\'
  | '/' => some '/'
  | 'b' => some '\x08'
  | 'f' => some '\x0c'
  | 'n' => some '\n'
  | 'r' => some '\r'
  | 't' => some '\t'
  | _ => none

/-- The pieces of a string after its opening quote, and what follows the closing one. -/
def readPieces : List Char → Option (List Piece × List Char)
  | [] => none
  | '"' :: cs => some ([], cs)
  | '\\' :: 'u' :: a :: b :: c :: d :: cs =>
    match hex? a b c d, readPieces cs with
    | some n, some (ps, cs) => some (.unit n :: ps, cs)
    | _, _ => none
  | '\\' :: e :: cs =>
    match escape? e, readPieces cs with
    | some c, some (ps, cs) => some (.char c :: ps, cs)
    | _, _ => none
  | c :: cs =>
    if c.toNat < 0x20 || c == '\\' then none
    else (readPieces cs).map fun r => (.char c :: r.1, r.2)

/-- A string after its opening quote. -/
def readString (cs : List Char) : Option (Option String × List Char) :=
  (readPieces cs).map fun r => ((assemble r.1).map .ofList, r.2)

/-! ## Values -/

mutual

/-- The value in front of a text. -/
def readValue : Nat → List Char → Option (Json × List Char)
  | 0, _ => none
  | fuel + 1, cs =>
    match skip cs with
    | 'n' :: 'u' :: 'l' :: 'l' :: cs => some (null, cs)
    | 't' :: 'r' :: 'u' :: 'e' :: cs => some (bool true, cs)
    | 'f' :: 'a' :: 'l' :: 's' :: 'e' :: cs => some (bool false, cs)
    | '"' :: cs => (readString cs).map fun r => (string r.1, r.2)
    | '[' :: cs => match skip cs with
      | ']' :: cs => some (array [], cs)
      | cs => readItems fuel [] cs
    | '{' :: cs => match skip cs with
      | '}' :: cs => some (object [], cs)
      | cs => readFields fuel [] cs
    | '-' :: cs => readNumber true cs
    | cs => readNumber false cs

/-- The rest of an array after the items read so far, last one first. -/
def readItems : Nat → List Json → List Char → Option (Json × List Char)
  | 0, _, _ => none
  | fuel + 1, xs, cs =>
    match readValue fuel cs with
    | none => none
    | some (x, cs) => match skip cs with
      | ',' :: cs => readItems fuel (x :: xs) cs
      | ']' :: cs => some (array (x :: xs).reverse, cs)
      | _ => none

/-- The rest of an object after the fields read so far, last one first. -/
def readFields : Nat → List (Option String × Json) → List Char → Option (Json × List Char)
  | 0, _, _ => none
  | fuel + 1, fs, cs =>
    match skip cs with
    | '"' :: cs => match readString cs with
      | none => none
      | some (name, cs) => match skip cs with
        | ':' :: cs => match readValue fuel cs with
          | none => none
          | some (x, cs) => match skip cs with
            | ',' :: cs => readFields fuel ((name, x) :: fs) cs
            | '}' :: cs => some (object ((name, x) :: fs).reverse, cs)
            | _ => none
        | _ => none
    | _ => none

end

/-- The value of a text, which holds nothing else. -/
def read (text : String) : Option Json :=
  match readValue (2 * text.length + 2) text.toList with
  | some (x, cs) => if skip cs = [] then some x else none
  | none => none

end Json

end GoalAutomata
