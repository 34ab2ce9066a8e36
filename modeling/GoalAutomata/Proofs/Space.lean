/-
  What the count of a space tells.

  The dimensions are multiplied one after another, and the count is given up as soon
  as the product of the first few does not fit a word.  A zero among the dimensions
  brings the whole product back to zero, but only if it comes before that happens: a
  space can have a zero and no count.  Without a zero the product of the first few
  divides the whole one, and the count is exact.

  * `Space.Fits`, `Space.foldlM_checkedMul_eq_some_iff`: what is counted, and when;
  * `Space.foldlM_checkedMul_eq_word?_iff`: when that is the exact product;
  * `cardinality_is_exact_without_late_zeros`: counts, other orders, compositions.
-/
import Mathlib.Algebra.BigOperators.Group.List.Lemmas
import Mathlib.Algebra.BigOperators.Ring.List
import Mathlib.Algebra.Order.Ring.Nat
import Mathlib.Tactic.SplitIfs
import GoalAutomata.Space

namespace GoalAutomata

namespace Space

variable {ns ms : List Nat} {m n p : Nat}

/-! ## Products that fit -/

/-- A number, if it fits a 64-bit word. -/
def word? (n : Nat) : Option Nat := if n < 2 ^ 64 then some n else none

theorem word?_of_lt (h : n < 2 ^ 64) : word? n = some n := if_pos h

theorem word?_of_le (h : 2 ^ 64 ≤ n) : word? n = none := if_neg (not_lt.2 h)

theorem checkedMul_eq_word? (m n : Nat) : checkedMul m n = word? (m * n) := rfl

/-- Whatever number of factors is multiplied to `m`, from the first one on, the product fits a
    64-bit word. -/
def Fits (m : Nat) (ns : List Nat) : Prop := ∀ ds, ds <+: ns → m * ds.prod < 2 ^ 64

theorem Fits.lt (h : Fits m ns) : m < 2 ^ 64 := by
  have hnil := h [] List.nil_prefix
  rwa [List.prod_nil, mul_one] at hnil

theorem Fits.mul_prod_lt (h : Fits m ns) : m * ns.prod < 2 ^ 64 := h ns List.prefix_rfl

theorem fits_nil : Fits m [] ↔ m < 2 ^ 64 := by
  refine ⟨Fits.lt, fun h ds hds => ?_⟩
  rwa [List.prefix_nil.1 hds, List.prod_nil, mul_one]

theorem fits_cons : Fits m (n :: ns) ↔ m < 2 ^ 64 ∧ Fits (m * n) ns := by
  constructor
  · refine fun h => ⟨h.lt, fun ds hds => ?_⟩
    have hcons := h (n :: ds) (List.prefix_cons_inj n |>.2 hds)
    rwa [List.prod_cons, ← mul_assoc] at hcons
  · rintro ⟨hm, h⟩ ds hds
    rcases List.prefix_cons_iff.1 hds with rfl | ⟨ds', rfl, hds'⟩
    · rwa [List.prod_nil, mul_one]
    · rw [List.prod_cons, ← mul_assoc]
      exact h ds' hds'

theorem fits_zero (ns : List Nat) : Fits 0 ns := fun ds _ => by
  rw [zero_mul]
  exact Nat.two_pow_pos 64

/-- **Without a zero, the whole product is the greatest.** -/
theorem fits_iff_of_not_mem (h : 0 ∉ ns) : Fits m ns ↔ m * ns.prod < 2 ^ 64 := by
  refine ⟨Fits.mul_prod_lt, fun hlt ds hds => lt_of_le_of_lt ?_ hlt⟩
  exact Nat.mul_le_mul_left m
    (Nat.le_of_dvd (Nat.pos_of_ne_zero (List.prod_ne_zero h)) hds.sublist.prod_dvd_prod)

/-- If the product without the zeros fits, then so do all on the way. -/
theorem fits_of_prod_filter (h : (ns.filter (· ≠ 0)).prod < 2 ^ 64) : Fits 1 ns := by
  intro ds hds
  rw [one_mul]
  by_cases hzero : 0 ∈ ds
  · rw [List.prod_eq_zero hzero]
    exact Nat.two_pow_pos 64
  · have hself : ds.filter (· ≠ 0) = ds :=
      List.filter_eq_self.2 fun d hd => decide_eq_true fun h0 => hzero (h0 ▸ hd)
    have hpos : 0 < (ns.filter (· ≠ 0)).prod :=
      Nat.pos_of_ne_zero (List.prod_ne_zero (by simp))
    have hdvd : ds.prod ∣ (ns.filter (· ≠ 0)).prod := by
      rw [← hself]
      exact (hds.sublist.filter _).prod_dvd_prod
    exact (Nat.le_of_dvd hpos hdvd).trans_lt h

/-! ## The count -/

/-- **What is counted, and when**: the exact product, if it fits all the way. -/
theorem foldlM_checkedMul_eq_some_iff (hm : m < 2 ^ 64) :
    ns.foldlM checkedMul m = some p ↔ Fits m ns ∧ m * ns.prod = p := by
  induction ns generalizing m with
  | nil =>
    rw [List.foldlM_nil, fits_nil, List.prod_nil, mul_one, and_iff_right hm]
    exact Option.some_inj
  | cons n ns ih =>
    rw [List.foldlM_cons, fits_cons, checkedMul_eq_word?, List.prod_cons, ← mul_assoc]
    rcases lt_or_ge (m * n) (2 ^ 64) with hlt | hle
    · rw [word?_of_lt hlt]
      exact (ih hlt).trans (by rw [and_iff_right hm])
    · rw [word?_of_le hle]
      exact iff_of_false nofun fun h => absurd h.1.2.lt (not_lt.2 hle)

theorem foldlM_checkedMul_eq_none_iff (hm : m < 2 ^ 64) :
    ns.foldlM checkedMul m = none ↔ ¬ Fits m ns := by
  rw [Option.eq_none_iff_forall_ne_some]
  simp only [ne_eq, foldlM_checkedMul_eq_some_iff hm]
  exact ⟨fun h hfits => h _ ⟨hfits, rfl⟩, fun h p hp => h hp.1⟩

/-- **The count is that of the exact product** unless there is a zero that comes too late. -/
theorem foldlM_checkedMul_eq_word?_iff (hm : m < 2 ^ 64) :
    ns.foldlM checkedMul m = word? (m * ns.prod) ↔ (0 ∈ ns → Fits m ns) := by
  by_cases hzero : 0 ∈ ns
  · rw [List.prod_eq_zero hzero, mul_zero, word?_of_lt (Nat.two_pow_pos 64),
      foldlM_checkedMul_eq_some_iff hm, List.prod_eq_zero hzero, mul_zero]
    simp [hzero]
  · refine iff_of_true ?_ fun h => absurd h hzero
    rcases lt_or_ge (m * ns.prod) (2 ^ 64) with hlt | hle
    · rw [word?_of_lt hlt]
      exact (foldlM_checkedMul_eq_some_iff hm).2 ⟨(fits_iff_of_not_mem hzero).2 hlt, rfl⟩
    · rw [word?_of_le hle]
      exact (foldlM_checkedMul_eq_none_iff hm).2 fun h => absurd h.mul_prod_lt (not_lt.2 hle)

/-! ## Other orders -/

theorem foldlM_checkedMul_zero (ns : List Nat) : ns.foldlM checkedMul 0 = some 0 := by
  rw [foldlM_checkedMul_eq_some_iff (Nat.two_pow_pos 64)]
  exact ⟨fits_zero ns, zero_mul _⟩

/-- **All orders of the factors give the same count** if there is no zero, or if the other factors
    fit without it, and in no other case: a zero in front saves any product, one at the end none. -/
theorem forall_perm_foldlM_checkedMul_iff :
    (∀ ms : List Nat, ms.Perm ns → ms.foldlM checkedMul 1 = ns.foldlM checkedMul 1) ↔
      (0 ∈ ns → (ns.filter (· ≠ 0)).prod < 2 ^ 64) := by
  have hone : 1 < 2 ^ 64 := Nat.one_lt_two_pow (by decide)
  constructor
  · intro h hzero
    have hfirst : (0 :: ns.erase 0).foldlM checkedMul 1 = some 0 := foldlM_checkedMul_zero _
    have hlast := h (ns.filter (· ≠ 0) ++ _) (List.filter_append_perm _ ns)
    rw [← h _ (List.perm_cons_erase hzero).symm, hfirst] at hlast
    have hfits := ((foldlM_checkedMul_eq_some_iff hone).1 hlast).1
    have hlt := hfits _ (List.prefix_append _ _)
    rwa [one_mul] at hlt
  · intro h ms hperm
    have hns : ns.foldlM checkedMul 1 = word? (1 * ns.prod) :=
      (foldlM_checkedMul_eq_word?_iff hone).2 fun hzero => fits_of_prod_filter (h hzero)
    have hms : ms.foldlM checkedMul 1 = word? (1 * ms.prod) :=
      (foldlM_checkedMul_eq_word?_iff hone).2 fun hzero =>
        fits_of_prod_filter ((hperm.filter _).prod_eq ▸ h (hperm.mem_iff.1 hzero))
    rw [hns, hms, hperm.prod_eq]

end Space

open Space in
/-- **The count of a space is exact, but for zeros that come too late.**  It is the product of the
    dimensions if the product of the first few, however many, fits a 64-bit word, and there is none
    otherwise.  That is the exact product as far as it fits, unless there is a zero behind such a
    product that does not.  All orders of the dimensions give the same count if there is no zero, or
    if the product of the others fits, and in no other case.  The count of a composition is the
    product of the counts as far as it fits, unless the second space has a zero that comes too late
    for what is multiplied from the count of the first one on. -/
theorem cardinality_is_exact_without_late_zeros (s t : Space) :
    (∀ p, s.cardinality = some p ↔ Fits 1 s.dims ∧ s.dims.prod = p) ∧
    (s.cardinality = word? s.dims.prod ↔ (0 ∈ s.dims → Fits 1 s.dims)) ∧
    ((∀ u : Space, u.dims.Perm s.dims → u.cardinality = s.cardinality) ↔
      (0 ∈ s.dims → (s.dims.filter (· ≠ 0)).prod < 2 ^ 64)) ∧
    ∀ p q, s.cardinality = some p → t.cardinality = some q →
      ((s.compose t).cardinality = checkedMul p q ↔ (0 ∈ t.dims → Fits p t.dims)) := by
  have hone : 1 < 2 ^ 64 := Nat.one_lt_two_pow (by decide)
  refine ⟨fun p => ?_, ?_, ?_, fun p q hp hq => ?_⟩
  · rw [cardinality, foldlM_checkedMul_eq_some_iff hone, one_mul]
  · rw [cardinality, ← foldlM_checkedMul_eq_word?_iff hone, one_mul]
  · rw [← forall_perm_foldlM_checkedMul_iff]
    exact ⟨fun h ms => h (multi ms), fun h u => h u.dims⟩
  · have hprod := ((foldlM_checkedMul_eq_some_iff hone).1 hp)
    have hlt : p < 2 ^ 64 := hprod.2 ▸ hprod.1.mul_prod_lt
    have hbind : (s.compose t).cardinality = t.dims.foldlM checkedMul p := by
      rw [cardinality, dims_compose, List.foldlM_append, ← cardinality, hp]
      rfl
    rw [hbind, checkedMul_eq_word?, ← ((foldlM_checkedMul_eq_some_iff hone).1 hq).2, one_mul,
      foldlM_checkedMul_eq_word?_iff hlt]

/-- **A zero that comes too late.**  The product of these dimensions is zero, and there is no count;
    in another order, with the zero in front, there is one.  So it is with the composition of two
    spaces that have a count each. -/
theorem late_zero_has_no_count :
    let s : Space := .multi [18446744073709551615, 2, 0]
    let a : Space := .discrete 18446744073709551615
    let b : Space := .multi [2, 0]
    Space.word? s.dims.prod = some 0 ∧ s.cardinality = none ∧
      (Space.multi [0, 18446744073709551615, 2]).cardinality = some 0 ∧
      a.cardinality = some 18446744073709551615 ∧ b.cardinality = some 0 ∧
      (a.compose b).cardinality = none ∧
      Space.checkedMul 18446744073709551615 0 = some 0 := by
  decide

end GoalAutomata
