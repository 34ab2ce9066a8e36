/-
  JSON values as they stand in a text.

  A number keeps the form in which it was written, for a count takes no fraction
  and an amount is rounded only when it is read.  A string with an unpaired
  surrogate escape has no characters; it may stand where nothing reads it.  The
  fields of an object keep their order and their repetitions.
-/

namespace GoalAutomata

/-- A number as written: the digits that fit a 64-bit word, and the power of ten that they count. -/
structure Numeral where
  negative : Bool
  significand : Nat
  exponent : Int
  /-- neither a fraction nor an exponent was written, and every digit fits -/
  integral : Bool
  deriving DecidableEq

namespace Numeral

/-- A natural number below `2 ^ 64`. -/
def ofNat (n : Nat) : Numeral := ⟨false, n, 0, true⟩

/-- The natural number written without sign, fraction and exponent. -/
def toNat? (n : Numeral) : Option Nat :=
  if n.integral && !n.negative then some n.significand else none

/-! ## Amounts -/

/-- The greatest power of ten that is a double. -/
def maxPower : Nat := 308

/-- A power of ten as a double. -/
def powerOfTen (n : Nat) : Float := Float.ofScientific 1 false n

/-- The double `x` times a power of ten, of which `maxPower` at most is divided at a time; nothing
    if it is infinite.  Three divisions bring any 64-bit count to zero. -/
def scale : Nat → Float → Int → Option Float
  | 0, _, _ => some 0
  | fuel + 1, x, e =>
    if e.natAbs ≤ maxPower then
      if 0 ≤ e then
        let y := x * powerOfTen e.toNat
        if y.isInf then none else some y
      else some (x / powerOfTen e.natAbs)
    else if x == 0 then some x
    else if 0 ≤ e then none
    else scale fuel (x / powerOfTen maxPower) (e + maxPower)

/-- The double that a numeral stands for, nothing if it is out of range. -/
def toDouble? (n : Numeral) : Option Float :=
  (scale 4 n.significand.toUInt64.toFloat n.exponent).map fun x => if n.negative then -x else x

/-- The single that a numeral stands for: an integer is rounded at once, unless its sign makes it
    no 64-bit word, and any other number by way of a double. -/
def toSingle? (n : Numeral) : Option Float32 :=
  if n.integral && !n.negative then some n.significand.toUInt64.toFloat32
  else if n.integral && 0 < n.significand && n.significand ≤ Nat.pow 2 63 then
    some (-n.significand.toUInt64.toFloat32)
  else n.toDouble?.map (·.toFloat32)

end Numeral

/-- A JSON value. -/
inductive Json where
  | null
  | bool (b : Bool)
  | number (n : Numeral)
  | string (s : Option String)
  | array (xs : List Json)
  | object (fields : List (Option String × Json))
  deriving Inhabited

namespace Json

/-- A text as a value. -/
def text (s : String) : Json := string (some s)

/-- A natural number as a value. -/
def count (n : Nat) : Json := number (.ofNat n)

/-- An object with the given fields. -/
def record (fields : List (String × Json)) : Json :=
  object (fields.map fun f => (some f.1, f.2))

/-- The natural number that a value is. -/
def count? : Json → Option Nat
  | number n => n.toNat?
  | _ => none

/-- The single precision number that a value is. -/
def single? : Json → Option Float32
  | number n => n.toSingle?
  | _ => none

/-- The text that a value is. -/
def text? : Json → Option String
  | string s => s
  | _ => none

/-- The list that a value is. -/
def array? : Json → Option (List Json)
  | array xs => some xs
  | _ => none

/-- The value of a field in an object with each name at most once. -/
def field? (fields : List (Option String × Json)) (name : String) : Option Json :=
  (fields.find? (·.1 = some name)).map (·.2)

/-- The values of the fields of a record with the given names, which may miss.  The record is an
    object, in which every name can be read and no given one is repeated, or an array of its first
    fields. -/
def fields? (names : List String) : Json → Option (List (Option Json))
  | object fs =>
    if fs.all (·.1.isSome) && names.all fun s => (fs.filter (·.1 = some s)).length ≤ 1 then
      some (names.map (field? fs))
    else none
  | array xs =>
    if xs.length ≤ names.length then some ((List.range names.length).map (xs[·]?)) else none
  | _ => none

end Json

end GoalAutomata
