/-
  The generator of shifts and exclusive ors is lawful.

  The high word of a product of a word and a bound is below the bound, so whichever
  word is accepted, the number it stands for is.  Zero is accepted for every bound, and
  comes round before the words are used up.
-/
import Mathlib.Algebra.Order.Field.Rat
import Mathlib.Data.Nat.Cast.Order.Field
import GoalAutomata.Proofs.XorShift.Period

namespace GoalAutomata

namespace XorShift

variable {n a c : Nat} {k k' : XorShift}

/-! ## Units -/

theorem unit_eq (k : XorShift) : (k.unit (R := Rat)).1 =
    ((k.next.1 >>> 8).toNat : Rat) / ((2 ^ 24 : Nat) : Rat) := rfl

/-- **A unit is in `[0, 1)`.** -/
theorem unit_mem (k : XorShift) : 0 ≤ (k.unit (R := Rat)).1 ∧ (k.unit (R := Rat)).1 < 1 := by
  have hword : (k.next.1 >>> 8).toNat < 2 ^ 24 := by
    have hlt := k.next.1.toNat_lt
    rw [UInt32.toNat_shiftRight, Nat.shiftRight_eq_div_pow]
    change k.next.1.toNat / 2 ^ 8 < 2 ^ 24
    omega
  have hpos : (0 : Rat) < ((2 ^ 24 : Nat) : Rat) := Nat.cast_pos.2 (Nat.two_pow_pos 24)
  rw [unit_eq]
  exact ⟨div_nonneg (Nat.cast_nonneg _) hpos.le, (div_lt_one hpos).2 (Nat.cast_lt.2 hword)⟩

/-! ## Numbers below a bound -/

/-- The number for which a word stands is below the bound. -/
theorem scaled_lt (hn : 0 < n) (v : UInt32) : scaled n v < n :=
  Nat.div_lt_of_lt_mul (Nat.mul_lt_mul_of_pos_right v.toNat_lt hn)

/-- **An answer is below the bound**, and so many words have been taken for it. -/
theorem below?_spec (hn : 0 < n) (h : below? n c k = some (a, k')) :
    a < n ∧ ∃ m, k' = Generator.skip m k := by
  induction c generalizing k with
  | zero => cases h
  | succ c ih =>
    unfold below? at h
    dsimp only at h
    split_ifs at h
    · cases h
      exact ⟨scaled_lt hn _, 1, rfl⟩
    · obtain ⟨hlt, m, hm⟩ := ih h
      exact ⟨hlt, m + 1, hm⟩

theorem isAccepted_zero (n : Nat) : isAccepted n 0 = true := by simp [isAccepted]

theorem exists_below? {m : Nat} (hm : m < c) (h : (advance^[m] k).next.1 = 0) :
    ∃ r, below? n c k = some r := by
  induction c generalizing k m with
  | zero => exact absurd hm (Nat.not_lt_zero m)
  | succ c ih =>
    unfold below?
    dsimp only
    split_ifs with hacc
    · exact ⟨_, rfl⟩
    · cases m with
      | zero => exact absurd (h ▸ isAccepted_zero n) hacc
      | succ m => exact ih (Nat.lt_of_succ_lt_succ hm) h

/-- **A word is accepted in the end**, since zero comes round. -/
theorem below_eq (n : Nat) (k : XorShift) : below? n (Nat.pow 2 128) k = some (below n k) := by
  obtain ⟨m, hm, hzero⟩ := exists_next_eq_zero k
  obtain ⟨r, hr⟩ := exists_below? (n := n) (c := Nat.pow 2 128) hm hzero
  rw [below, hr]
  rfl

instance : LawfulGenerator XorShift where
  unit_mem := unit_mem
  snd_unit _ := rfl
  below_lt {n} k hn := (below?_spec hn (below_eq n k)).1
  exists_snd_below {n} k hn := (below?_spec hn (below_eq n k)).2

end XorShift

end GoalAutomata
