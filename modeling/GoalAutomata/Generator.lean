/-
  Random numbers.

  A generator gives one word after another.  Numbers of other kinds are made of words,
  by rules of the generator's own; what is relied on is said by `LawfulGenerator`.
-/
import GoalAutomata.Amount

namespace GoalAutomata

/-- A source of random numbers. -/
class Generator (G : Type) where
  ofSeed : UInt64 → G
  /-- a random word -/
  word : G → UInt32 × G
  /-- a number in `[0, 1)` -/
  unit {R : Type} [Amount R] : G → R × G
  /-- a number below a bound -/
  below : Nat → G → Nat × G

namespace Generator

variable {G : Type} [Generator G]

/-- The generator after `n` words. -/
def skip : Nat → G → G
  | 0, k => k
  | n + 1, k => skip n (word k).2

theorem skip_add (m n : Nat) (k : G) : skip (m + n) k = skip n (skip m k) := by
  induction m generalizing k with
  | zero => rw [Nat.zero_add, skip]
  | succ m ih => rw [Nat.succ_add, skip, skip, ih]

end Generator

/-- What is relied on.  Units are in `[0, 1)` and take a word each.  Numbers below a bound are below
    it, unless the bound is zero; they may take any number of words, but come in the end. -/
class LawfulGenerator (G : Type) [Generator G] : Prop where
  unit_mem (k : G) : 0 ≤ (Generator.unit (R := Rat) k).1 ∧ (Generator.unit (R := Rat) k).1 < 1
  snd_unit {R : Type} [Amount R] (k : G) :
    (Generator.unit (R := R) k).2 = (Generator.word k).2
  below_lt {n : Nat} (k : G) : 0 < n → (Generator.below n k).1 < n
  exists_snd_below {n : Nat} (k : G) : 0 < n → ∃ m, (Generator.below n k).2 = Generator.skip m k

end GoalAutomata
