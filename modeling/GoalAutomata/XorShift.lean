/-
  Random numbers by shifts and exclusive ors.

  The generator has four words of 32 bits, never all zero.  A seed is stretched to
  them by a linear congruence, whose high bits are mixed and rotated.

  * `XorShift.next`: a random word;
  * `XorShift.unit`: a multiple of `2 ^ -24` in `[0, 1)`;
  * `XorShift.below`: a number below a bound, each as likely as any other.
-/
import GoalAutomata.Generator

namespace GoalAutomata

/-- The state of a generator. -/
structure XorShift where
  x : UInt32
  y : UInt32
  z : UInt32
  w : UInt32
  deriving DecidableEq

namespace XorShift

/-! ## Seeds -/

/-- The congruence that stretches a seed. -/
def stretch (s : UInt64) : UInt64 := s * 6364136223846793005 + 11634580027462260723

/-- A word rotated to the right. -/
def rotateRight (x r : UInt32) : UInt32 := (x >>> r) ||| (x <<< (32 - r))

/-- The word of a stretched seed. -/
def mix (s : UInt64) : UInt32 :=
  rotateRight (((s >>> 18) ^^^ s) >>> 27).toUInt32 (s >>> 59).toUInt32

/-- The generator of a seed.  Four zeros, from which nothing else would ever come, are replaced. -/
def ofSeed (seed : UInt64) : XorShift :=
  let a := stretch seed
  let b := stretch a
  let c := stretch b
  let d := stretch c
  let k : XorShift := ⟨mix a, mix b, mix c, mix d⟩
  if k = ⟨0, 0, 0, 0⟩ then ⟨0x0bad5eed, 0x0bad5eed, 0x0bad5eed, 0x0bad5eed⟩ else k

/-! ## Draws -/

/-- The next word. -/
def next (k : XorShift) : UInt32 × XorShift :=
  let t := k.x ^^^ (k.x <<< 11)
  let w := k.w ^^^ (k.w >>> 19) ^^^ (t ^^^ (t >>> 8))
  (w, ⟨k.y, k.z, k.w, w⟩)

/-- A multiple of `2 ^ -24` in `[0, 1)`. -/
def unit {R : Type} [Amount R] (k : XorShift) : R × XorShift :=
  let (v, k) := k.next
  (Amount.ofNat (v >>> 8).toNat / Amount.ofNat (Nat.pow 2 24), k)

/-- The greatest low word that is accepted for a bound below `2 ^ 32`: a power of two times the
    bound, less one. -/
def acceptance (n : Nat) : Nat := n * Nat.pow 2 (31 - Nat.log2 n) - 1

/-- Whether a word is accepted for a bound: the low word of their product is not beyond that. -/
def isAccepted (n : Nat) (v : UInt32) : Bool := v.toNat * n % Nat.pow 2 32 ≤ acceptance n

/-- The number below a bound for which a word stands: the high word of their product. -/
def scaled (n : Nat) (v : UInt32) : Nat := v.toNat * n / Nat.pow 2 32

/-- The number for which the first accepted one of the next `m` words stands. -/
def below? (n : Nat) : Nat → XorShift → Option (Nat × XorShift)
  | 0, _ => none
  | m + 1, k =>
    let (v, k) := k.next
    if isAccepted n v then some (scaled n v, k) else below? n m k

/-- A number below a bound.  The generator is back where it was before the words are used up. -/
def below (n : Nat) (k : XorShift) : Nat × XorShift :=
  (below? n (Nat.pow 2 128) k).getD (scaled n k.next.1, k.next.2)

instance : Generator XorShift where
  ofSeed := ofSeed
  word := next
  unit := unit
  below := below

end XorShift

end GoalAutomata
