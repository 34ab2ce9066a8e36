/-
  Tables of action values.

  What all rows of a table have in common (`QTable.Filled`) is kept by any operation
  if it is a rule for rows (`RowRule`): drawn rows follow it, and so do rows after a
  step, at least with rewards of the kind that is paid.

  * `QTable.Filled.choose`, `QTable.Filled.update`: what a choice and an update keep;
  * `QTable.Sized.choose_lt`: a chosen action is one of the table;
  * `QTable.Since.choose`, `QTable.Since.update`: finitely many random words are taken.
-/
import Mathlib.Tactic.SplitIfs
import GoalAutomata.QTable

namespace GoalAutomata

/-! ## Rows -/

section Rows

variable {R : Type} [Amount R] {row : List R}

namespace ActionValues

theorem better_fst (best : Nat × R) (next : R × Nat) :
    (better best next).1 = best.1 ∨ (better best next).1 = next.2 := by
  unfold better
  split_ifs
  · exact Or.inr rfl
  · exact Or.inl rfl

/-- **The best action is one of the row**, whatever its values are. -/
theorem bestAction_lt (h : 0 < row.length) : bestAction row < row.length := by
  refine List.foldlRecOn (motive := fun best : Nat × R => best.1 < row.length) row.zipIdx better
    (b := (0, Amount.least)) h fun best hbest next hnext => ?_
  rcases better_fst best next with heq | heq
  · rwa [heq]
  · rw [heq]
    exact List.snd_lt_of_mem_zipIdx hnext

/-- A row takes a word for each of its values. -/
theorem snd_draw {G : Type} [Generator G] [LawfulGenerator G] (n : Nat) (k : G) :
    (draw (R := R) n k).2 = Generator.skip n k := by
  induction n generalizing k with
  | zero => rfl
  | succ n ih =>
    rw [Generator.skip, ← LawfulGenerator.snd_unit (R := R)]
    exact ih _

/-- What an outlook may be: zero, after the last step, or the greatest value of a row. -/
def Outlook (p : List R → Prop) (x : R) : Prop := x = 0 ∨ ∃ row, p row ∧ x = bestValue row

end ActionValues

/-- A rule for the rows of a table with `n` actions.  Drawn rows follow it, and rows that follow it
    still do so after a step with a reward that is `paid`. -/
structure RowRule (G : Type) [Generator G] (n : Nat) (l : Learning R) (paid : R → Prop)
    (p : List R → Prop) : Prop where
  draw : ∀ k : G, p (ActionValues.draw n k).1
  learn : ∀ {row reward ahead} (action : Nat), p row → paid reward → ActionValues.Outlook p ahead →
    p (row.modify action fun value => value + l.alpha * (reward + l.gamma * ahead - value))

/-- Rows keep their length. -/
theorem rowRule_length (G : Type) [Generator G] (n : Nat) (l : Learning R) :
    RowRule G n l (fun _ => True) (fun row => row.length = n) where
  draw k := ActionValues.length_draw n k
  learn _ hrow _ _ := by rw [List.length_modify, hrow]

end Rows

/-! ## Tables -/

namespace QTable

variable {O R G : Type} [Ord O] [Std.TransOrd O] {n : Nat} {l : Learning R} {p : List R → Prop}
  {t : QTable O R G}

/-- A table with `n` actions that learns like `l`, all of whose rows have the property `p`. -/
structure Filled (n : Nat) (l : Learning R) (p : List R → Prop) (t : QTable O R G) : Prop where
  actions : t.actions = n
  learning : t.learning = l
  of_row : ∀ {o : O} {row : List R}, t.rows[o]? = some row → p row

/-- A table with `n` actions, each of which has a value in every row. -/
def Sized (n : Nat) (t : QTable O R G) : Prop := t.Filled n t.learning fun row => row.length = n

theorem Filled.sized (h : t.Filled n l fun row => row.length = n) : t.Sized n :=
  ⟨h.actions, rfl, h.of_row⟩

theorem filled_new [Generator G] (seed : UInt64) :
    (new n l seed : QTable O R G).Filled n l p where
  actions := rfl
  learning := rfl
  of_row {o row} h := by
    have hnone : (new n l seed : QTable O R G).rows[o]? = none := Std.ExtTreeMap.getElem?_empty
    rw [hnone] at h
    cases h

namespace Filled

/-- The generator says nothing about the rows. -/
theorem generator (h : t.Filled n l p) (k : G) :
    Filled n l p { t with generator := k } := ⟨h.actions, h.learning, h.of_row⟩

theorem insert (h : t.Filled n l p) {o : O} {row : List R} (hrow : p row) :
    Filled n l p { t with rows := t.rows.insert o row } where
  actions := h.actions
  learning := h.learning
  of_row {o' row'} hget := by
    rw [Std.ExtTreeMap.getElem?_insert] at hget
    split_ifs at hget with heq
    · cases hget
      exact hrow
    · exact h.of_row hget

variable [Amount R] [Generator G] {paid : R → Prop} (h : t.Filled n l p)
  (hp : RowRule G n l paid p)
include h hp

/-- A row follows the rule, be it found or drawn. -/
theorem row (o : O) : p (t.row o).1 ∧ (t.row o).2.Filled n l p := by
  unfold QTable.row
  split
  · next row hrow => exact ⟨h.of_row hrow, h⟩
  · have hdraw : p (ActionValues.draw t.actions t.generator).1 := by
      rw [h.actions]
      exact hp.draw t.generator
    exact ⟨hdraw, (h.insert hdraw).generator _⟩

theorem choose (o : O) (explore : Bool) : (t.choose o explore).2.Filled n l p := by
  unfold QTable.choose
  dsimp only
  split_ifs
  · exact h.generator _
  · exact ((h.generator _).row hp o).2
  · exact (h.row hp o).2

theorem outlook (o : O) (last : Bool) :
    ActionValues.Outlook p (t.outlook o last).1 ∧ (t.outlook o last).2.Filled n l p := by
  unfold QTable.outlook
  split_ifs
  · exact ⟨Or.inl rfl, h⟩
  · have ⟨hrow, ht⟩ := h.row hp o
    exact ⟨Or.inr ⟨_, hrow, rfl⟩, ht⟩

/-- **An update keeps the rule**, also where the next observation is the same one. -/
theorem update (o : O) (action : Nat) {reward : R} (hreward : paid reward) (next : O)
    (last : Bool) : (t.update o action reward next last).Filled n l p := by
  have ⟨hahead, hnext⟩ := h.outlook hp next last
  -- the row to be changed is read from the table in which the outlook may have drawn one
  have ⟨hrow, ht⟩ := hnext.row hp o
  have hlearn := hp.learn action hrow hreward hahead
  rw [← ht.learning] at hlearn
  exact ht.insert hlearn

end Filled

/-- A table with `n` actions whose generator has given some words since `k`. -/
structure Since [Generator G] (n : Nat) (k : G) (t : QTable O R G) : Prop where
  sized : t.Sized n
  generator : ∃ m, t.generator = Generator.skip m k

theorem Since.skip [Generator G] {k k' : G} (h : t.Since n k) {m : Nat}
    (hk : k' = Generator.skip m t.generator) : Since n k { t with generator := k' } := by
  obtain ⟨m₀, hm₀⟩ := h.generator
  refine ⟨(h.sized.generator k').sized, m₀ + m, ?_⟩
  rw [Generator.skip_add, ← hm₀]
  exact hk

variable [Amount R] [Generator G]

theorem Sized.greedy_lt (h : t.Sized n) (hn : 0 < n) (o : O) : (t.greedy o).1 < n := by
  have hrow := (h.row (rowRule_length G n t.learning) o).1
  have hlt := ActionValues.bestAction_lt (hrow ▸ hn)
  rwa [hrow] at hlt

/-- **A chosen action is one of the table**, whatever the values are. -/
theorem Sized.choose_lt [LawfulGenerator G] (h : t.Sized n) (hn : 0 < n) (o : O) (explore : Bool) :
    (t.choose o explore).1 < n := by
  unfold choose
  dsimp only
  split_ifs
  · rw [h.actions]
    exact LawfulGenerator.below_lt _ hn
  · exact (h.generator _).sized.greedy_lt hn o
  · exact h.greedy_lt hn o

/-! ## Random words -/

namespace Since

variable [LawfulGenerator G] {k : G}

theorem row (h : t.Since n k) (o : O) : (t.row o).2.Since n k := by
  have hsized := (h.sized.row (rowRule_length G n t.learning) o).2.sized
  refine ⟨hsized, ?_⟩
  unfold QTable.row
  split
  · exact h.generator
  · exact (h.skip (ActionValues.snd_draw _ _)).generator

/-- **A choice is made after finitely many words.** -/
theorem choose (h : t.Since n k) (hn : 0 < n) (o : O) (explore : Bool) :
    (t.choose o explore).2.Since n k := by
  have hunit : Since n k { t with generator := (Generator.unit (R := R) t.generator).2 } :=
    h.skip (m := 1) (LawfulGenerator.snd_unit _)
  unfold QTable.choose
  dsimp only
  split_ifs
  · obtain ⟨m, hm⟩ := LawfulGenerator.exists_snd_below
      (Generator.unit (R := R) t.generator).2 (h.sized.actions ▸ hn)
    exact hunit.skip hm
  · exact hunit.row o
  · exact h.row o

theorem outlook (h : t.Since n k) (o : O) (last : Bool) : (t.outlook o last).2.Since n k := by
  unfold QTable.outlook
  split_ifs
  · exact h
  · exact h.row o

theorem update (h : t.Since n k) (o : O) (action : Nat) (reward : R) (next : O) (last : Bool) :
    (t.update o action reward next last).Since n k :=
  ⟨(Filled.update h.sized (rowRule_length G n _) o action trivial next last).sized,
    ((h.outlook next last).row o).generator⟩

end Since

end QTable

end GoalAutomata
