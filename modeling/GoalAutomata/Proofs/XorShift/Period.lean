/-
  The generator of shifts and exclusive ors has full period.

  A step of the generator is linear over the field of two elements.  Polynomials over
  that field are written as numbers, one bit for each coefficient, and stand for sums
  of powers of the step (`act`).  One of degree 128 (`modulus`) takes a certain state to
  zero, and modulo that one far powers are computed by squaring (`act_power`).  So it
  can be seen that `2 ^ 128 - 1` steps lead from this state back to it, and that no
  proper divisor of this number does.  There are no more states but zero.

  * `minimalPeriod_eq_of_prime`: periods by the primes that divide them;
  * `exists_iterate_eq`: every state but zero is reached.
-/
import Mathlib.Data.List.Prime
import Mathlib.Dynamics.PeriodicPts.Defs
import Mathlib.NumberTheory.LucasPrimality
import Mathlib.Tactic.NormNum.Prime
import Mathlib.Tactic.ReduceModChar
import GoalAutomata.XorShift

namespace GoalAutomata

namespace XorShift

/-! ## Polynomials that act by a linear map -/

section Act

variable {V : Type} [AddCommMonoid V] (T : V →+ V) {d m f g : Nat} {v : V}

/-- The sum of those of the first `m` powers of a map for which `f` has a bit. -/
def act : Nat → Nat → V → V
  | 0, _, _ => 0
  | m + 1, f, v => (if f.testBit 0 then v else 0) + T (act m (f / 2) v)

theorem act_zero (m : Nat) (v : V) : act T m 0 v = 0 := by
  induction m with
  | zero => rfl
  | succ m ih => rw [act, Nat.zero_div, ih, Nat.zero_testBit, if_neg Bool.false_ne_true, map_zero,
      add_zero]

theorem act_one (m : Nat) (v : V) : act T (m + 1) 1 v = v := by
  rw [act, Nat.testBit_one_zero, if_pos rfl, Nat.div_eq_of_lt one_lt_two, act_zero, map_zero,
    add_zero]

theorem act_two_mul (m f : Nat) (v : V) : act T (m + 1) (2 * f) v = T (act T m f v) := by
  have hbit : (2 * f).testBit 0 = false := by simp
  rw [act, hbit, if_neg Bool.false_ne_true, zero_add, Nat.mul_div_cancel_left f two_pos]

theorem act_of_lt (hf : f < 2 ^ m) (v : V) : act T (m + 1) f v = act T m f v := by
  induction m generalizing f with
  | zero =>
    rw [Nat.lt_one_iff.1 hf, act_zero, act_zero]
  | succ m ih => rw [act, ih (by omega), act]

theorem act_xor (hchar : ∀ a : V, a + a = 0) (m f g : Nat) (v : V) :
    act T m (f ^^^ g) v = act T m f v + act T m g v := by
  induction m generalizing f g with
  | zero => exact (add_zero 0).symm
  | succ m ih =>
    have hbit : (if (f ^^^ g).testBit 0 then v else 0) =
        (if f.testBit 0 then v else 0) + (if g.testBit 0 then v else 0) := by
      rw [Nat.testBit_xor]
      cases f.testBit 0 <;> cases g.testBit 0 <;> simp [hchar]
    simp only [act]
    rw [hbit, Nat.xor_div_two, ih, map_add, add_add_add_comm]

theorem commute_act (m f : Nat) : Function.Commute (act T m f) T := by
  intro v
  induction m generalizing f with
  | zero => exact (map_zero T).symm
  | succ m ih =>
    rw [act, act, ih, map_add, apply_ite T, map_zero]

/-! ## Polynomials modulo another

The operations on numbers are named and the product is by the recursor itself, since this is what the
kernel computes at once. -/

/-- Multiplies by the variable, modulo a polynomial `P` of degree `d + 1`. -/
def shift (d P f : Nat) : Nat := Nat.xor (Nat.mul 2 f) (Nat.mul (Nat.div f (Nat.pow 2 d)) P)

/-- The product with the first `m` bits of `g`. -/
def product (d P f m : Nat) : Nat → Nat :=
  m.rec (fun _ => 0) fun _ rest g =>
    Nat.xor (Nat.mul (Nat.mod g 2) f) (shift d P (rest (Nat.div g 2)))

/-- The power of the variable with the first `m` bits of an exponent. -/
def power (d P : Nat) : Nat → Nat → Nat
  | 0, _ => 1
  | m + 1, e =>
    let root := power d P m (e / 2)
    let square := product d P root (d + 1) root
    if e % 2 = 1 then shift d P square else square

/-- `P` has degree `d + 1`. -/
def HasDegree (d P : Nat) : Prop := 2 ^ (d + 1) ≤ P ∧ P < 2 ^ (d + 2)

/-- Only a polynomial of degree `d` is divided. -/
theorem shift_cases (P : Nat) (hf : f < 2 ^ (d + 1)) :
    (2 * f < 2 ^ (d + 1) ∧ shift d P f = 2 * f) ∨
      (2 ^ (d + 1) ≤ 2 * f ∧ shift d P f = (2 * f) ^^^ P) := by
  change (_ ∧ (2 * f) ^^^ (f / 2 ^ d * P) = _) ∨ (_ ∧ (2 * f) ^^^ (f / 2 ^ d * P) = _)
  rcases lt_or_ge f (2 ^ d) with hlt | hge
  · rw [Nat.div_eq_of_lt hlt, Nat.zero_mul, Nat.xor_zero]
    exact .inl ⟨by omega, rfl⟩
  · have hone : f / 2 ^ d = 1 := Nat.div_eq_of_lt_le (by omega) (by omega)
    rw [hone, Nat.one_mul]
    exact .inr ⟨by omega, rfl⟩

theorem product_succ (d P f m g : Nat) :
    product d P f (m + 1) g = (g % 2 * f) ^^^ shift d P (product d P f m (g / 2)) := rfl

variable {P : Nat} (hP : HasDegree d P)
include hP

theorem shift_lt (hf : f < 2 ^ (d + 1)) : shift d P f < 2 ^ (d + 1) := by
  rcases shift_cases P hf with ⟨hlt, heq⟩ | ⟨hge, heq⟩
  · rwa [heq]
  · rw [heq]
    refine Nat.lt_pow_two_of_testBit _ fun i hi => ?_
    have htop : 2 * f < 2 ^ (d + 2) := by
      rw [Nat.pow_succ]
      omega
    rw [Nat.testBit_xor]
    -- both have the bit of the degree, and none beyond it
    rcases hi.eq_or_lt with rfl | hi
    · rw [Nat.testBit_of_two_pow_le_and_two_pow_add_one_gt hge htop,
        Nat.testBit_of_two_pow_le_and_two_pow_add_one_gt hP.1 hP.2, Bool.xor_self]
    · have hpow : 2 ^ (d + 2) ≤ 2 ^ i := Nat.pow_le_pow_right two_pos hi
      rw [Nat.testBit_lt_two_pow (htop.trans_le hpow), Nat.testBit_lt_two_pow (hP.2.trans_le hpow),
        Bool.xor_self]

theorem product_lt (hf : f < 2 ^ (d + 1)) (m g : Nat) : product d P f m g < 2 ^ (d + 1) := by
  induction m generalizing g with
  | zero => exact Nat.two_pow_pos _
  | succ m ih =>
    rw [product_succ]
    refine Nat.xor_lt_two_pow ?_ (shift_lt hP (ih _))
    rcases Nat.mod_two_eq_zero_or_one g with h | h <;> rw [h]
    · rw [Nat.zero_mul]
      exact Nat.two_pow_pos _
    · rwa [Nat.one_mul]

theorem power_lt (m e : Nat) : power d P m e < 2 ^ (d + 1) := by
  induction m generalizing e with
  | zero => exact Nat.one_lt_two_pow d.succ_ne_zero
  | succ m ih =>
    have hsquare := product_lt hP (ih (e / 2)) (d + 1) (power d P m (e / 2))
    unfold power
    dsimp only
    split_ifs
    · exact shift_lt hP hsquare
    · exact hsquare

variable (hchar : ∀ a : V, a + a = 0) (hv : act T (d + 2) P v = 0)
include hchar hv

theorem act_shift (hf : f < 2 ^ (d + 1)) :
    act T (d + 1) (shift d P f) v = T (act T (d + 1) f v) := by
  rw [← act_of_lt T (shift_lt hP hf), ← act_two_mul]
  rcases shift_cases P hf with ⟨-, heq⟩ | ⟨-, heq⟩ <;> rw [heq]
  rw [act_xor T hchar, hv, add_zero]

theorem act_product (hf : f < 2 ^ (d + 1)) (m g : Nat) :
    act T (d + 1) (product d P f m g) v = act T m g (act T (d + 1) f v) := by
  induction m generalizing g with
  | zero => exact act_zero T _ v
  | succ m ih =>
    rw [product_succ, act_xor T hchar, act_shift T hP hchar hv (product_lt hP hf m _), ih]
    change _ = (if g.testBit 0 then act T (d + 1) f v else 0) + _
    congr 1
    rcases Nat.mod_two_eq_zero_or_one g with h | h <;> rw [Nat.testBit_zero, h]
    · rw [Nat.zero_mul]
      exact act_zero T _ v
    · rw [Nat.one_mul]
      rfl

/-- **Far powers of the map are those of the variable**, modulo a polynomial that takes the vector
    to zero. -/
theorem act_power {e : Nat} (he : e < 2 ^ m) : act T (d + 1) (power d P m e) v = T^[e] v := by
  induction m generalizing e with
  | zero =>
    rw [Nat.lt_one_iff.1 he]
    exact act_one T d v
  | succ m ih =>
    have hroot := power_lt hP m (e / 2)
    have hsquare := product_lt hP hroot (d + 1) (power d P m (e / 2))
    -- the square of the root acts twice, and either time like half of the steps
    have hact : act T (d + 1) (product d P (power d P m (e / 2)) (d + 1) (power d P m (e / 2))) v =
        T^[e / 2 + e / 2] v := by
      rw [act_product T hP hchar hv hroot, ih (by omega),
        ((commute_act T _ _).iterate_right (e / 2)).eq v, ih (by omega), Function.iterate_add_apply]
    unfold power
    dsimp only
    split_ifs with hbit
    · have hodd : (e / 2 + e / 2).succ = e := by omega
      rw [act_shift T hP hchar hv hsquare, hact, ← Function.iterate_succ_apply' T, hodd]
    · have heven : e / 2 + e / 2 = e := by omega
      rw [hact, heven]

end Act

/-! ## Periods -/

/-- **A period is the least one if none of its quotients by a prime is a period.** -/
theorem minimalPeriod_eq_of_prime {α : Type} {f : α → α} {x : α} {n : Nat}
    (h : Function.IsPeriodicPt f n x)
    (hprime : ∀ q, q.Prime → q ∣ n → ¬Function.IsPeriodicPt f (n / q) x) :
    Function.minimalPeriod f x = n := by
  obtain ⟨c, hc⟩ := h.minimalPeriod_dvd
  by_contra hne
  have hc1 : c ≠ 1 := by
    rintro rfl
    exact hne (hc.trans (Nat.mul_one _)).symm
  obtain ⟨q, hq, b, rfl⟩ := Nat.exists_prime_and_dvd hc1
  have hn : n = Function.minimalPeriod f x * b * q := by
    rw [hc, Nat.mul_assoc, Nat.mul_comm b]
  refine hprime q hq ⟨_, hn.trans (Nat.mul_comm _ _)⟩ ?_
  rw [hn, Nat.mul_div_cancel _ hq.pos]
  exact (Function.isPeriodicPt_minimalPeriod f x).mul_const b

/-- The greatest prime that divides `2 ^ 64 + 1`, by the powers of three. -/
theorem prime_67280421310721 : Nat.Prime 67280421310721 := by
  refine lucas_primality 67280421310721 3 (by reduce_mod_char) fun q hq hdvd => ?_
  have hprimes : ∀ p ∈ List.replicate 8 2 ++ [5, 47, 373, 2998279], Prime p := by
    simp only [List.forall_mem_append, List.forall_mem_cons, List.forall_mem_replicate,
      ← Nat.prime_iff]
    norm_num
  have hmem := mem_list_primes_of_dvd_prod hq.prime hprimes (by norm_num at hdvd ⊢; exact hdvd)
  simp at hmem
  rcases hmem with rfl | rfl | rfl | rfl | rfl
  all_goals norm_num
  all_goals reduce_mod_char
  all_goals decide

/-- The number of states but zero. -/
def period : Nat := 2 ^ 128 - 1

/-- The primes of which the period is the product. -/
def periodPrimes : List Nat := [3, 5, 17, 257, 641, 65537, 274177, 6700417, 67280421310721]

theorem mem_periodPrimes {q : Nat} (hq : q.Prime) (h : q ∣ period) : q ∈ periodPrimes := by
  have hprod : period = periodPrimes.prod := by decide +kernel
  have hprimes : ∀ p ∈ periodPrimes, Prime p := by
    simp only [periodPrimes, List.forall_mem_cons, ← Nat.prime_iff, prime_67280421310721]
    norm_num
  rw [hprod] at h
  exact mem_list_primes_of_dvd_prod hq.prime hprimes h

/-! ## Steps as a linear map -/

instance : Add XorShift := ⟨fun k l => ⟨k.x ^^^ l.x, k.y ^^^ l.y, k.z ^^^ l.z, k.w ^^^ l.w⟩⟩

instance : Zero XorShift := ⟨⟨0, 0, 0, 0⟩⟩

theorem add_eq (k l : XorShift) :
    k + l = ⟨k.x ^^^ l.x, k.y ^^^ l.y, k.z ^^^ l.z, k.w ^^^ l.w⟩ := rfl

theorem zero_eq : (0 : XorShift) = ⟨0, 0, 0, 0⟩ := rfl

/-- States are added bit by bit. -/
instance : AddCommMonoid XorShift where
  add_assoc k l m := by simp only [add_eq, UInt32.xor_assoc]
  add_comm k l := by simp only [add_eq, UInt32.xor_comm]
  zero_add k := by simp only [add_eq, zero_eq, UInt32.zero_xor]
  add_zero k := by simp only [add_eq, zero_eq, UInt32.xor_zero]
  nsmul := nsmulRec

theorem add_self (k : XorShift) : k + k = 0 := by simp only [add_eq, zero_eq, UInt32.xor_self]

theorem next_add (k l : XorShift) : (k + l).next.2 = k.next.2 + l.next.2 := by
  have hw : (k + l).next.1 = k.next.1 ^^^ l.next.1 := by
    simp only [next, add_eq, UInt32.shiftLeft_xor, UInt32.shiftRight_xor]
    ac_rfl
  exact congrArg (fun w => (⟨k.y ^^^ l.y, k.z ^^^ l.z, k.w ^^^ l.w, w⟩ : XorShift)) hw

/-- A step of the generator. -/
def advance : XorShift →+ XorShift where
  toFun k := k.next.2
  map_zero' := rfl
  map_add' := next_add

/-- A polynomial of degree 128 that takes `seedling` to zero. -/
def modulus : Nat := 0x1000000010046d8b3f985d65ffd3c8001

/-- A state whose next word is zero. -/
def seedling : XorShift := ⟨0, 1, 0, 0⟩

theorem hasDegree_modulus : HasDegree 127 modulus := ⟨by decide +kernel, by decide +kernel⟩

theorem act_modulus : act advance 129 modulus seedling = 0 := by decide +kernel

/-- As many steps at once. -/
def leap (e : Nat) : XorShift := act advance 128 (power 127 modulus 128 e) seedling

theorem leap_eq {e : Nat} (he : e < 2 ^ 128) : leap e = advance^[e] seedling :=
  act_power advance hasDegree_modulus add_self act_modulus he

theorem leap_period : leap period = seedling := by decide +kernel

theorem leap_ne : ∀ q ∈ periodPrimes, leap (period / q) ≠ seedling := by decide +kernel

theorem isPeriodicPt_period : Function.IsPeriodicPt advance period seedling := by
  rw [Function.IsPeriodicPt, Function.IsFixedPt, ← leap_eq (by decide +kernel), leap_period]

/-- **No fewer steps lead back to where they started.** -/
theorem minimalPeriod_advance : Function.minimalPeriod advance seedling = period := by
  refine minimalPeriod_eq_of_prime isPeriodicPt_period fun q hq hdvd hquot => ?_
  have hlt : period / q < 2 ^ 128 := (Nat.div_le_self _ _).trans_lt (by decide +kernel)
  rw [Function.IsPeriodicPt, Function.IsFixedPt, ← leap_eq hlt] at hquot
  exact leap_ne q (mem_periodPrimes hq hdvd) hquot

/-! ## Every state is reached -/

/-- The words of a state as one number. -/
def pack (k : XorShift) : Nat :=
  k.x.toNat + 2 ^ 32 * (k.y.toNat + 2 ^ 32 * (k.z.toNat + 2 ^ 32 * k.w.toNat))

theorem pack_le (k : XorShift) : k.pack ≤ period := by
  have hx := k.x.toNat_lt
  have hy := k.y.toNat_lt
  have hz := k.z.toNat_lt
  have hw := k.w.toNat_lt
  unfold pack period
  omega

theorem pack_injective : Function.Injective pack := by
  intro ⟨x, y, z, w⟩ ⟨x', y', z', w'⟩ h
  have hx := x.toNat_lt
  have hy := y.toNat_lt
  have hz := z.toNat_lt
  have hx' := x'.toNat_lt
  have hy' := y'.toNat_lt
  have hz' := z'.toNat_lt
  simp only [pack] at h
  simp only [mk.injEq, ← UInt32.toNat_inj]
  omega

/-- The place of a state among all but zero. -/
def place (k : { k : XorShift // k ≠ 0 }) : Fin period where
  val := k.1.pack - 1
  isLt := Nat.sub_one_lt_of_le (Nat.pos_of_ne_zero fun h => k.2 (pack_injective h)) k.1.pack_le

theorem place_injective : Function.Injective place := by
  intro k l h
  have hk : k.1.pack ≠ 0 := fun h => k.2 (pack_injective h)
  have hl : l.1.pack ≠ 0 := fun h => l.2 (pack_injective h)
  have hpred : k.1.pack - 1 = l.1.pack - 1 := congrArg Fin.val h
  exact Subtype.ext (pack_injective (by omega))

/-- Zero is only reached from zero. -/
theorem iterate_ne_zero (i : Nat) : advance^[i] seedling ≠ 0 := by
  intro hzero
  have hback : advance^[period * i] seedling = seedling := isPeriodicPt_period.mul_const i
  obtain ⟨j, hj⟩ : ∃ j, period * i = j + i := ⟨period * i - i, by unfold period; omega⟩
  rw [hj, Function.iterate_add_apply, hzero, Function.iterate_fixed (map_zero advance)] at hback
  exact absurd hback (by decide)

/-- **Every state but zero is reached**, since there are no more of them than steps. -/
theorem exists_iterate_eq {k : XorShift} (hk : k ≠ 0) : ∃ i < period, advance^[i] seedling = k := by
  let reached (i : Fin period) : { k : XorShift // k ≠ 0 } :=
    ⟨advance^[i] seedling, iterate_ne_zero i⟩
  have hinj : Function.Injective reached := by
    intro i j hij
    refine Fin.ext (Function.iterate_injOn_Iio_minimalPeriod (f := advance) ?_ ?_
      (congrArg Subtype.val hij)) <;> rw [Set.mem_Iio, minimalPeriod_advance]
    · exact i.isLt
    · exact j.isLt
  obtain ⟨i, hi⟩ := Finite.surjective_of_injective (place_injective.comp hinj) (place ⟨k, hk⟩)
  exact ⟨i, i.isLt, congrArg Subtype.val (place_injective hi)⟩

/-- **From every state one is reached whose next word is zero.** -/
theorem exists_next_eq_zero (k : XorShift) : ∃ m < 2 ^ 128, (advance^[m] k).next.1 = 0 := by
  by_cases hk : k = 0
  · rw [hk]
    exact ⟨0, Nat.two_pow_pos 128, rfl⟩
  · obtain ⟨i, hi, rfl⟩ := exists_iterate_eq hk
    refine ⟨period - i, by unfold period; omega, ?_⟩
    rw [← Function.iterate_add_apply, Nat.sub_add_cancel hi.le, isPeriodicPt_period.eq]
    rfl

end XorShift

end GoalAutomata
