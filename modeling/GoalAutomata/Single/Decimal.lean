/-
  Single precision numbers as decimal text.

  * `Single.read?`: a sign, digits with or without a point among or beside them,
    and an exponent; or `inf`, `infinity` and `nan` in letters of any case.  The
    result is the single nearest to the written value;
  * `Single.fixed`: a text with a fixed number of decimal places, nearest to the
    exact value, ties to the even digit; a negative number keeps its sign even
    when only zeros are left.
-/
import GoalAutomata.Single.Nearest

namespace GoalAutomata

namespace Single

/-! ## Reading -/

/-- The number of a list of decimal digits. -/
def ofDigits (ds : List Char) : Nat := ds.foldl (fun n c => n * 10 + (c.toNat - '0'.toNat)) 0

/-- An exponent after its letter: a sign and at least one digit, and nothing more. -/
def exponent? (cs : List Char) : Option Int :=
  let (sign, ds) : Int × List Char := match cs with
    | '+' :: ds => (1, ds)
    | '-' :: ds => (-1, ds)
    | ds => (1, ds)
  if ds ≠ [] ∧ ds.all Char.isDigit then some (sign * ofDigits ds) else none

/-- The fraction after an optional point, and what follows it. -/
def fraction : List Char → List Char × List Char
  | '.' :: cs => (cs.takeWhile Char.isDigit, cs.dropWhile Char.isDigit)
  | cs => ([], cs)

/-- Beyond this many decimal places before or after the first digit, a number is infinite or
    zero. -/
def maxPlaces : Nat := 60

/-- The bits of the single nearest to `n * 10 ^ e`, where `n` has as many digits as `width`. -/
def decimalBits (n width : Nat) (e : Int) : Nat :=
  if n = 0 then 0
  else if (maxPlaces : Int) < e + width then infinityBits
  else if e + width < -(maxPlaces : Int) then 0
  else if 0 ≤ e then nearestBits (n * Nat.pow 10 e.toNat) 1
  else nearestBits n (Nat.pow 10 e.natAbs)

/-- The bits of an unsigned decimal number. -/
def magnitude? (cs : List Char) : Option Nat :=
  let whole := cs.takeWhile Char.isDigit
  let (places, rest) := fraction (cs.dropWhile Char.isDigit)
  let ds := whole ++ places
  let bits (e : Int) : Nat :=
    let n := ofDigits ds
    decimalBits n (toString n).length (e - places.length)
  if ds.isEmpty then none
  else match rest with
    | [] => some (bits 0)
    | 'e' :: cs | 'E' :: cs => (exponent? cs).map bits
    | _ => none

/-- An unsigned number or the name of a special one. -/
def unsigned? (negative : Bool) (cs : List Char) : Option Float32 :=
  let name := String.ofList (cs.map Char.toLower)
  if name = "inf" ∨ name = "infinity" then some (ofMagnitude negative infinityBits)
  else if name = "nan" then some (Float32.ofBits 0x7fc00000)
  else (magnitude? cs).map (ofMagnitude negative)

/-- The single that a text stands for. -/
def read? (text : String) : Option Float32 :=
  match text.toList with
  | '-' :: cs => unsigned? true cs
  | '+' :: cs => unsigned? false cs
  | cs => unsigned? false cs

/-! ## Writing -/

/-- A whole number of `10 ^ -places` as text, with `places` digits after the point. -/
def pointed (places n : Nat) : String :=
  let ds := (toString (n % Nat.pow 10 places)).toList
  toString (n / Nat.pow 10 places) ++ "." ++
    String.ofList (List.replicate (places - ds.length) '0' ++ ds)

/-- A single with a fixed number of decimal places. -/
def fixed (places : Nat) (x : Float32) : String :=
  if x.isNaN then "NaN"
  else
    let sign := if isNegative x then "-" else ""
    if x.isInf then sign ++ "inf"
    else
      let (m, p) := decode x.toBits.toNat
      let units := m * Nat.pow 2 p * Nat.pow 10 places
      sign ++ pointed places (roundDiv units (Nat.pow 2 leastExponent))

end Single

end GoalAutomata
