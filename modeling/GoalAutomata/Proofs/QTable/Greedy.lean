/-
  The greedy action and its value.

  A table finds the best action of a row and the greatest value of it by two loops,
  which treat what is not a number in different ways: the first one never takes it,
  the second one drops it.  Both start from the least finite number, which is one, so
  that they carry the same value all along.  It is the greatest number of the row as
  soon as one of them is above the least.

  * `ActionValues.best`, `best_snd`: both loops in one;
  * `ActionValues.rank_le_best`, `rank_lt_best`: what is behind and what is before;
  * `greedy_value_is_outlook`: the first of the greatest, and its value.
-/
import Mathlib.Data.List.Induction
import Mathlib.Order.Bounds.Basic
import GoalAutomata.Proofs.QTable
import GoalAutomata.Proofs.Single.Order

namespace GoalAutomata

namespace ActionValues

open Single

variable {row : List Float32} {v w : Float32} {i : Nat}

/-! ## The two loops -/

/-- The best action of a row with the value that made it best. -/
def best (row : List Float32) : Nat × Float32 := row.zipIdx.foldl better (0, Amount.least)

theorem best_concat (row : List Float32) (v : Float32) :
    best (row ++ [v]) = if (best row).2 < v then (row.length, v) else best row := by
  have hfold : best (row ++ [v]) = better (best row) (v, row.length) := by
    rw [best, List.zipIdx_append, List.foldl_append, Nat.zero_add]
    rfl
  rw [hfold, better]
  simp only [Amount.less, decide_eq_true_eq]

theorem rank_least_ne_bot : rank (Amount.least : Float32) ≠ ⊥ :=
  isNaN_eq_false_iff.1 (by decide)

/-- The value of the best action is always a number. -/
theorem rank_best_ne_bot (row : List Float32) : rank (best row).2 ≠ ⊥ := by
  induction row using List.reverseRecOn with
  | nil => exact rank_least_ne_bot
  | append_singleton row v ih =>
    rw [best_concat]
    split_ifs with hlt
    · exact (bot_le.trans_lt (lt_iff.1 hlt).2).ne'
    · exact ih

/-- **Both loops carry the same value.** -/
theorem best_snd (row : List Float32) : (best row).2 = bestValue row := by
  induction row using List.reverseRecOn with
  | nil => rfl
  | append_singleton row v ih =>
    have hnumber : (bestValue row).isNaN = false :=
      isNaN_eq_false_iff.2 (ih ▸ rank_best_ne_bot row)
    have hvalue : bestValue (row ++ [v]) = if bestValue row < v then v else bestValue row := by
      rw [bestValue, List.foldl_append]
      change (if (bestValue row).isNaN then v else _) = _
      rw [hnumber]
      rfl
    rw [best_concat, hvalue, ← ih]
    split_ifs <;> rfl

/-! ## What the best action is -/

/-- No entry stands behind the best one. -/
theorem rank_le_best (h : w ∈ row) : rank w ≤ rank (best row).2 := by
  induction row using List.reverseRecOn with
  | nil => cases h
  | append_singleton row v ih =>
    rw [best_concat]
    rcases List.mem_append.1 h with hw | hw
    · split_ifs with hlt
      · exact (ih hw).trans (lt_iff.1 hlt).2.le
      · exact ih hw
    · rw [List.mem_singleton.1 hw]
      split_ifs with hlt
      · exact le_rfl
      · exact not_lt.1 fun h => hlt (lt_iff.2 ⟨rank_best_ne_bot row, h⟩)

theorem best_fst_le (row : List Float32) : (best row).1 ≤ row.length := by
  induction row using List.reverseRecOn with
  | nil => exact le_rfl
  | append_singleton row v ih =>
    rw [best_concat, List.length_append, List.length_singleton]
    split_ifs
    · exact Nat.le_succ _
    · exact ih.trans (Nat.le_succ _)

/-- Every earlier entry stands before the best one. -/
theorem rank_lt_best (hi : i < (best row).1) (hw : row[i]? = some w) :
    rank w < rank (best row).2 := by
  induction row using List.reverseRecOn with
  | nil => cases hw
  | append_singleton row v ih =>
    rw [best_concat] at hi ⊢
    split_ifs at hi ⊢ with hlt
    · rw [List.getElem?_append_left hi] at hw
      exact (rank_le_best (List.mem_of_getElem? hw)).trans_lt (lt_iff.1 hlt).2
    · rw [List.getElem?_append_left (hi.trans_le (best_fst_le row))] at hw
      exact ih hi hw

/-- The best action is found in the row, unless nothing is above the least number. -/
theorem best_cases (row : List Float32) :
    best row = (0, Amount.least) ∨ row[(best row).1]? = some (best row).2 := by
  induction row using List.reverseRecOn with
  | nil => exact Or.inl rfl
  | append_singleton row v ih =>
    rw [best_concat]
    split_ifs
    · exact Or.inr (List.getElem?_concat_length)
    · exact ih.imp_right fun h =>
        (List.getElem?_append_left (List.getElem?_eq_some_iff.1 h).1).trans h

/-- A number of a row that no other one exceeds. -/
def IsGreatestNumber (row : List Float32) (v : Float32) : Prop :=
  v ∈ row ∧ v.isNaN = false ∧ ∀ w ∈ row, w.isNaN = false → w ≤ v

theorem isGreatestNumber_best (h : row[(best row).1]? = some (best row).2) :
    IsGreatestNumber row (best row).2 := by
  refine ⟨List.mem_of_getElem? h, isNaN_eq_false_iff.2 (rank_best_ne_bot row), fun w hw hn => ?_⟩
  exact le_iff.2 ⟨isNaN_eq_false_iff.1 hn, rank_le_best hw⟩

/-- An action with a greatest number is not before the best one. -/
theorem best_fst_le_of_isGreatestNumber (h : row[(best row).1]? = some (best row).2)
    (hv : row[i]? = some v) (hgreatest : IsGreatestNumber row v) : (best row).1 ≤ i := by
  by_contra hlt
  have hbefore := rank_lt_best (not_le.1 hlt) hv
  have hle : (best row).2 ≤ v := hgreatest.2.2 _ (List.mem_of_getElem? h)
    (isNaN_eq_false_iff.2 (rank_best_ne_bot row))
  exact absurd (le_iff.1 hle).2 (not_le.2 hbefore)

end ActionValues

open ActionValues in
/-- **The outlook is the value of the greedy action.**  Take any row of single precision values, of
    which one is above the least finite number; others may be infinite or no numbers at all.  The
    best action is the first one whose value is the greatest number of the row, and that value
    equals the greatest value as the outlook has it.  In a row of at most `2 ^ 32` values the action
    fits a word of 32 bits.  A table chooses this action greedily and takes this value as its
    outlook, wherever it has the row or draws it. -/
theorem greedy_value_is_outlook (row : List Float32) (h : ∃ v ∈ row, Amount.least < v) :
    IsLeast {i | ∃ v, row[i]? = some v ∧ IsGreatestNumber row v} (bestAction row) ∧
    (∃ v, row[bestAction row]? = some v ∧ (v == bestValue row) = true) ∧
    (row.length ≤ 2 ^ 32 → bestAction row < 2 ^ 32) ∧
    ∀ {O G : Type} [Ord O] [Std.TransOrd O] [Generator G] (t : QTable O Float32 G) (o : O),
      (t.row o).1 = row →
      (t.greedy o).1 = bestAction row ∧ (t.outlook o false).1 = bestValue row := by
  obtain ⟨v, hv, habove⟩ := h
  have hfound : row[(best row).1]? = some (best row).2 := by
    refine (best_cases row).resolve_left fun hleast => ?_
    have hle := rank_le_best hv
    rw [hleast] at hle
    exact absurd (Single.lt_iff.1 habove).2 (not_lt.2 hle)
  refine ⟨⟨⟨_, hfound, isGreatestNumber_best hfound⟩, ?_⟩, ⟨_, hfound, ?_⟩, fun hlen => ?_, ?_⟩
  · rintro i ⟨w, hw, hgreatest⟩
    exact best_fst_le_of_isGreatestNumber hfound hw hgreatest
  · rw [← best_snd]
    exact Single.beq_iff.2 ⟨rank_best_ne_bot row, rfl⟩
  · exact (bestAction_lt (List.length_pos_of_mem hv)).trans_le hlen
  · rintro O G _ _ _ t o rfl
    exact ⟨rfl, rfl⟩

/-- What is no number, minus infinity, one, and two times two: the first two is chosen. -/
theorem greedy_value_of_mixed_row :
    let row : List Float32 := [.ofBits 0x7fc00000, .ofBits 0xff800000, 1, 2, 2]
    (∃ v ∈ row, Amount.least < v) ∧ ActionValues.bestAction row = 3 ∧
      IsLeast {i | ∃ v, row[i]? = some v ∧ ActionValues.IsGreatestNumber row v} 3 ∧
      ∃ v, row[3]? = some v ∧ (v == ActionValues.bestValue row) = true := by
  intro row
  have habove : ∃ v ∈ row, Amount.least < v := ⟨1, by simp [row], by decide⟩
  have hthree : ActionValues.bestAction row = 3 := by decide
  obtain ⟨hleast, hvalue, -⟩ := greedy_value_is_outlook row habove
  rw [hthree] at hleast hvalue
  exact ⟨habove, hthree, hleast, hvalue⟩

end GoalAutomata
