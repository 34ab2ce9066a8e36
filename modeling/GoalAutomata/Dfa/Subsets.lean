/-
  Subsets in order of size.

  * `choose k xs`: the sublists of `xs` with `k` elements, those that take an
    earlier element first;
  * `subsets xs`: all sublists, the empty one first, then by increasing size;
  * `mem_subsets`: they are exactly the sublists of `xs`.
-/

namespace GoalAutomata

variable {α : Type}

/-- The sublists with `k` elements. -/
def choose : Nat → List α → List (List α)
  | 0, _ => [[]]
  | _ + 1, [] => []
  | k + 1, x :: xs => (choose k xs).map (x :: ·) ++ choose (k + 1) xs

/-- All sublists, by increasing size. -/
def subsets (xs : List α) : List (List α) :=
  (List.range (xs.length + 1)).flatMap (choose · xs)

theorem mem_choose {k : Nat} {xs ys : List α} :
    ys ∈ choose k xs ↔ ys.Sublist xs ∧ ys.length = k := by
  induction xs generalizing k ys with
  | nil =>
    cases k with
    | zero => simp +contextual [choose]
    | succ k =>
      simp only [choose, List.not_mem_nil, List.sublist_nil, false_iff, not_and]
      rintro rfl
      simp
  | cons x xs ih =>
    cases k with
    | zero => simp +contextual [choose, List.length_eq_zero_iff]
    | succ k =>
      simp only [choose, List.mem_append, List.mem_map, ih, List.sublist_cons_iff]
      constructor
      · rintro (⟨zs, ⟨hs, hk⟩, rfl⟩ | ⟨hs, hk⟩)
        · exact ⟨.inr ⟨zs, rfl, hs⟩, by simp [hk]⟩
        · exact ⟨.inl hs, hk⟩
      · rintro ⟨hs | ⟨zs, rfl, hs⟩, hk⟩
        · exact .inr ⟨hs, hk⟩
        · exact .inl ⟨zs, ⟨hs, by simpa using hk⟩, rfl⟩

theorem mem_subsets {xs ys : List α} : ys ∈ subsets xs ↔ ys.Sublist xs := by
  simp only [subsets, List.mem_flatMap, List.mem_range, mem_choose]
  constructor
  · rintro ⟨_, _, hs, _⟩
    exact hs
  · intro hs
    exact ⟨ys.length, Nat.lt_succ_of_le hs.length_le, hs, rfl⟩

end GoalAutomata
