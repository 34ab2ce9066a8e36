/-
  Amounts: the numbers in which rewards and potentials are expressed.

  Everything that computes a reward is written once, over an arbitrary kind of
  amount.  Two kinds matter:

  * `Float32`, single precision, in which a program computes;
  * `Rat`, in which the same computation is exact, so that laws such as the
    telescoping of shaped rewards hold without rounding.

  An amount may fail to be a number (a `NaN`).  `Amount.lesser` and
  `Amount.greater` then answer the other operand, so one stray value does not
  spread through a minimum or a maximum.
-/

namespace GoalAutomata

/-- A kind of number in which rewards can be paid. -/
class Amount (R : Type) extends Zero R, One R, Neg R, Add R, Sub R, Mul R, Div R where
  /-- The amount nearest to a count. -/
  ofNat : Nat → R
  /-- Strict comparison; nothing is below or above what is not a number. -/
  less : R → R → Bool
  /-- The lesser of two amounts, or the only one that is a number. -/
  lesser : R → R → R
  /-- The greater of two amounts, or the only one that is a number. -/
  greater : R → R → R
  /-- The least finite single precision number. -/
  least : R

namespace Amount

variable {R : Type} [Amount R]

/-- The sum of a list, added from the left to zero. -/
def sum (xs : List R) : R := xs.foldl (· + ·) 0

/-- The sum of a list divided by a count. -/
def average (xs : List R) (count : Nat) : R := sum xs / ofNat count

end Amount

/-! ## Single precision -/

/-- Counts below `2 ^ 64` round to the nearest single, ties to the even one. -/
instance : Amount Float32 where
  zero := 0
  one := 1
  neg := (- ·)
  add := (· + ·)
  sub := (· - ·)
  mul := (· * ·)
  div := (· / ·)
  ofNat n := n.toUInt64.toFloat32
  less x y := x < y
  lesser x y := if x.isNaN then y else if y < x then y else x
  greater x y := if x.isNaN then y else if x < y then y else x
  least := Float32.ofBits 0xff7fffff

/-! ## Exact arithmetic -/

instance : Amount Rat where
  zero := 0
  one := 1
  neg := (- ·)
  add := (· + ·)
  sub := (· - ·)
  mul := (· * ·)
  div := (· / ·)
  ofNat n := n
  less x y := x < y
  lesser x y := if y < x then y else x
  greater x y := if x < y then y else x
  least := -(Nat.pow 2 128 - Nat.pow 2 104 : Nat)

end GoalAutomata
