/-
  The order of single precision numbers.

  A comparison looks at the signs, then at the powers of two, then at the whole
  numbers in front of them.  All numbers therefore stand in one line, infinities at
  its ends and both zeros at one place; what is not a number stands outside of it.

  * `Single.rank`: the place of a number, `⊥` for what is none;
  * `Single.lt_iff`, `le_iff`, `beq_iff`: the comparisons, by place.
-/
import Mathlib

namespace GoalAutomata

namespace Single

open Float.Model (UnpackedFloat)

/-- Places in the line: by the side of zero, the power of two and the whole number. -/
abbrev Place := Int ×ₗ Int ×ₗ Int

/-- The place of a number in parts. -/
def place : UnpackedFloat → WithBot Place
  | .notANumber => ⊥
  | .infinity .negative => ↑(toLex (-2, toLex (0, 0)) : Place)
  | .finite .negative m e _ => ↑(toLex (-1, toLex (-e, -m)) : Place)
  | .zero _ => ↑(toLex (0, toLex (0, 0)) : Place)
  | .finite .positive m e _ => ↑(toLex (1, toLex (e, m)) : Place)
  | .infinity .positive => ↑(toLex (2, toLex (0, 0)) : Place)

/-- The place of a single precision number. -/
def rank (x : Float32) : WithBot Place := place x.toModel.unpack

variable {a b : UnpackedFloat} {x y : Float32}

/-! ## Comparisons by place -/

theorem compare_signs : compare UnpackedFloat.Sign.negative UnpackedFloat.Sign.positive = .lt := rfl

theorem compare_sign_self (s : UnpackedFloat.Sign) : compare s s = .eq := by
  cases s <;> rfl

theorem then_eq_lt_iff {e f : Int} {m n : Nat} :
    (compare e f).then (compare m n) = .lt ↔ e < f ∨ e = f ∧ m < n := by
  simp [Ordering.then_eq_lt, compare_lt_iff_lt]

theorem then_eq_gt_iff {e f : Int} {m n : Nat} :
    (compare e f).then (compare m n) = .gt ↔ f < e ∨ e = f ∧ n < m := by
  simp [Ordering.then_eq_gt, compare_gt_iff_gt]

theorem lt_iff_place : a.lt b = true ↔ place a ≠ ⊥ ∧ place a < place b := by
  rcases a with ⟨_ | _⟩ | _ | ⟨_ | _⟩ | ⟨_ | _, m, e, hm⟩ <;>
    rcases b with ⟨_ | _⟩ | _ | ⟨_ | _⟩ | ⟨_ | _, n, f, hn⟩ <;>
      simp [UnpackedFloat.lt, UnpackedFloat.compare, place, Prod.Lex.toLex_lt_toLex,
        then_eq_lt_iff, then_eq_gt_iff, compare_signs]

theorem beq_iff_place : a.beq b = true ↔ place a ≠ ⊥ ∧ place a = place b := by
  rcases a with ⟨_ | _⟩ | _ | ⟨_ | _⟩ | ⟨_ | _, m, e, hm⟩ <;>
    rcases b with ⟨_ | _⟩ | _ | ⟨_ | _⟩ | ⟨_ | _, n, f, hn⟩ <;>
      simp [UnpackedFloat.beq, UnpackedFloat.compare, place, Ordering.then_eq_eq, compare_signs,
        compare_sign_self]

theorem le_eq_lt_or_beq : a.le b = (a.lt b || a.beq b) := by
  unfold UnpackedFloat.le UnpackedFloat.lt UnpackedFloat.beq
  rcases a.compare b with _ | _ | _ | _ <;> rfl

theorem le_iff_place : a.le b = true ↔ place a ≠ ⊥ ∧ place a ≤ place b := by
  rw [le_eq_lt_or_beq, Bool.or_eq_true, lt_iff_place, beq_iff_place, ← and_or_left, le_iff_lt_or_eq]

theorem isNaN_iff_place : a.isNaN = true ↔ place a = ⊥ := by
  rcases a with ⟨_ | _⟩ | _ | _ | ⟨_ | _, m, e, hm⟩ <;> simp [UnpackedFloat.isNaN, place]

/-! ## Single precision -/

theorem isNaN_iff : x.isNaN = true ↔ rank x = ⊥ := isNaN_iff_place

theorem isNaN_eq_false_iff : x.isNaN = false ↔ rank x ≠ ⊥ := by
  rw [← Bool.not_eq_true, isNaN_iff]

/-- **A number is less than what stands behind it**; what is none is not compared. -/
theorem lt_iff : x < y ↔ rank x ≠ ⊥ ∧ rank x < rank y := by
  have hlt : x < y ↔ x.toModel.unpack.lt y.toModel.unpack = true := by
    change decide (x.toModel < y.toModel) = true ↔ _
    rw [decide_eq_true_iff]
    rfl
  exact hlt.trans lt_iff_place

theorem le_iff : x ≤ y ↔ rank x ≠ ⊥ ∧ rank x ≤ rank y := by
  have hle : x ≤ y ↔ x.toModel.unpack.le y.toModel.unpack = true := by
    change decide (x.toModel ≤ y.toModel) = true ↔ _
    rw [decide_eq_true_iff]
    rfl
  exact hle.trans le_iff_place

/-- **Numbers are equal if they stand at one place**, as both zeros do. -/
theorem beq_iff : (x == y) = true ↔ rank x ≠ ⊥ ∧ rank x = rank y := beq_iff_place

end Single

end GoalAutomata
