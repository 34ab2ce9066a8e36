/-
  Single precision numbers and exact fractions.

  A finite single is a whole number of at most 24 bits times a power of two, the
  least of which is `2 ^ -149`.

  * `roundDiv a b`: the whole number nearest to `a / b`, the even one of two;
  * `nearestBits a b`: the bits of the single nearest to `a / b`;
  * `decode bits`: the whole number and the power of two of a single.
-/

namespace GoalAutomata

namespace Single

/-- The whole number nearest to a fraction, the even one of two. -/
def roundDiv (a b : Nat) : Nat :=
  let q := a / b
  let r := a % b
  if 2 * r < b then q else if b < 2 * r then q + 1 else q + q % 2

/-- The least power of two is `2 ^ -leastExponent`. -/
def leastExponent : Nat := 149

/-- The bits of infinity. -/
def infinityBits : Nat := 0x7f800000

/-- The power of two that the last of 24 bits of `a / b` counts, plus `leastExponent`. -/
def lastPlace (a b : Nat) : Nat :=
  -- `a / b` lies between `2 ^ (e - 1)` and `2 ^ (e + 1)`
  let e := (a.log2 : Int) - b.log2
  let reaches := if 0 ≤ e then b * Nat.pow 2 e.toNat ≤ a else b ≤ a * Nat.pow 2 (-e).toNat
  ((if reaches then e else e - 1) - 23 + leastExponent).toNat

/-- The bits of the single nearest to `a / b`, for positive `b`. -/
def nearestBits (a b : Nat) : Nat :=
  if a = 0 then 0
  else
    let p := lastPlace a b
    let m :=
      if p ≤ leastExponent then roundDiv (a * Nat.pow 2 (leastExponent - p)) b
      else roundDiv a (b * Nat.pow 2 (p - leastExponent))
    -- a carry into a 25th bit moves on to the next exponent
    min (p * Nat.pow 2 23 + m) infinityBits

/-- A finite single without its sign, as `m * 2 ^ p / 2 ^ leastExponent`. -/
def decode (bits : Nat) : Nat × Nat :=
  let e := bits / Nat.pow 2 23 % Nat.pow 2 8
  let m := bits % Nat.pow 2 23
  if e = 0 then (m, 0) else (m + Nat.pow 2 23, e - 1)

/-- The single with the given sign and the bits of its magnitude. -/
def ofMagnitude (negative : Bool) (bits : Nat) : Float32 :=
  Float32.ofBits (bits + if negative then Nat.pow 2 31 else 0).toUInt32

/-- Whether a single has its sign bit. -/
def isNegative (x : Float32) : Bool := Nat.pow 2 31 ≤ x.toBits.toNat

end Single

end GoalAutomata
