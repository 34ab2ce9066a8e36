/-
  Action values stay bounded.

  An estimate moves from where it is towards a reward and a discounted outlook, and
  stays in any interval that has both.  With rewards of at most `r` and a factor
  `gamma` below one, `r / (1 - gamma)` is a bound that reproduces itself.  A maximum
  starts at the least single precision number, so the bound must not be beyond that.

  * `Learning.Proper.abs_target_le`, `abs_move_le`: one estimate;
  * `rowRule_abs_le`: the rows of a table;
  * `values_stay_bounded`: tables after any episodes.
-/
import Mathlib.Algebra.Order.Field.Rat
import Mathlib.Algebra.Order.Ring.Abs
import Mathlib.Tactic.Linarith
import Mathlib.Tactic.NormNum
import Mathlib.Tactic.Positivity
import Mathlib.Tactic.Ring
import GoalAutomata.Proofs.Environment.Chain
import GoalAutomata.Proofs.QTable.Episodes
import GoalAutomata.Proofs.XorShift

namespace GoalAutomata

/-! ## Draws -/

variable {G : Type} [Generator G] [LawfulGenerator G]

theorem ActionValues.abs_le_of_mem_draw {n : Nat} {k : G} {v : Rat}
    (h : v ∈ (draw n k).1) : |v| ≤ 1 / 1000 := by
  induction n generalizing k with
  | zero => cases h
  | succ n ih =>
    rcases List.mem_cons.1 h with rfl | h
    · have ⟨h0, h1⟩ := LawfulGenerator.unit_mem k
      change |(Generator.unit (R := Rat) k).1 * (1 / ((1000 : Nat) : Rat))| ≤ 1 / 1000
      rw [abs_of_nonneg (by positivity)]
      push_cast
      linarith
    · exact ih h

/-! ## Estimates -/

/-- Learning in proper shares, with an outlook that is discounted. -/
structure Learning.Proper (l : Learning Rat) : Prop where
  alpha_nonneg : 0 ≤ l.alpha
  alpha_le_one : l.alpha ≤ 1
  gamma_nonneg : 0 ≤ l.gamma
  gamma_lt_one : l.gamma < 1

namespace Learning.Proper

variable {l : Learning Rat} (h : l.Proper) {bound b reward ahead value : Rat}
include h

/-- **The bound reproduces itself.** -/
theorem abs_target_le (hb : bound / (1 - l.gamma) ≤ b) (hreward : |reward| ≤ bound)
    (hahead : |ahead| ≤ b) : |reward + l.gamma * ahead| ≤ b := by
  have hpos : 0 < 1 - l.gamma := sub_pos.2 h.gamma_lt_one
  have hbound : bound ≤ b * (1 - l.gamma) := (div_le_iff₀ hpos).1 hb
  calc |reward + l.gamma * ahead|
    _ ≤ |reward| + |l.gamma * ahead| := abs_add_le _ _
    _ = |reward| + l.gamma * |ahead| := by rw [abs_mul, abs_of_nonneg h.gamma_nonneg]
    _ ≤ bound + l.gamma * b := add_le_add hreward (mul_le_mul_of_nonneg_left hahead h.gamma_nonneg)
    _ ≤ b := by linarith

/-- An estimate that moves by a share towards a target stays in an interval that has both. -/
theorem abs_move_le (hvalue : |value| ≤ b) {target : Rat} (htarget : |target| ≤ b) :
    |value + l.alpha * (target - value)| ≤ b := by
  have hrest : 0 ≤ 1 - l.alpha := sub_nonneg.2 h.alpha_le_one
  calc |value + l.alpha * (target - value)|
    _ = |(1 - l.alpha) * value + l.alpha * target| := by ring_nf
    _ ≤ |(1 - l.alpha) * value| + |l.alpha * target| := abs_add_le _ _
    _ = (1 - l.alpha) * |value| + l.alpha * |target| := by
      rw [abs_mul, abs_mul, abs_of_nonneg hrest, abs_of_nonneg h.alpha_nonneg]
    _ ≤ (1 - l.alpha) * b + l.alpha * b :=
      add_le_add (mul_le_mul_of_nonneg_left hvalue hrest)
        (mul_le_mul_of_nonneg_left htarget h.alpha_nonneg)
    _ = b := by ring

end Learning.Proper

/-! ## Rows -/

namespace ActionValues

variable {b : Rat} {row : List Rat}

theorem abs_greater_le {x y : Rat} (hx : |x| ≤ b) (hy : |y| ≤ b) : |Amount.greater x y| ≤ b := by
  change |if x < y then y else x| ≤ b
  split_ifs
  · exact hy
  · exact hx

/-- **The greatest value is one of the row**, or as low as one can be. -/
theorem abs_bestValue_le (hleast : b ≤ -Amount.least) (hne : row ≠ [])
    (h : ∀ v ∈ row, |v| ≤ b) : |bestValue row| ≤ b := by
  cases row with
  | nil => exact absurd rfl hne
  | cons v vs =>
    have hv : |v| ≤ b := h v List.mem_cons_self
    have hfirst : |Amount.greater Amount.least v| ≤ b := by
      change |if Amount.least < v then v else Amount.least| ≤ b
      split_ifs with hlt
      · exact hv
      · have heq : v = Amount.least := by
          have hge := (abs_le.1 hv).1
          linarith
        rw [← heq]
        exact hv
    exact List.foldlRecOn (motive := fun x : Rat => |x| ≤ b) vs Amount.greater hfirst
      fun x hx y hy => abs_greater_le hx (h y (List.mem_cons_of_mem v hy))

end ActionValues

theorem forall_mem_modify {α : Type} {p : α → Prop} {f : α → α} {xs : List α} {i : Nat}
    (h : ∀ x ∈ xs, p x) (hf : ∀ x, p x → p (f x)) : ∀ x ∈ xs.modify i f, p x := by
  intro x hx
  obtain ⟨j, hj⟩ := List.mem_iff_getElem?.1 hx
  rw [List.getElem?_modify] at hj
  obtain ⟨y, hy, rfl⟩ := Option.map_eq_some_iff.1 hj
  have hpy := h y (List.mem_of_getElem? hy)
  split_ifs
  · exact hf y hpy
  · exact hpy

/-- **A rule for the rows of a table with an action**: no value is beyond a bound that drawn values
    keep, and that reproduces itself. -/
theorem rowRule_abs_le {n : Nat} (hn : 0 < n) {l : Learning Rat} (hl : l.Proper) {bound b : Rat}
    (hdraw : 1 / 1000 ≤ b) (hb : bound / (1 - l.gamma) ≤ b) (hleast : b ≤ -Amount.least) :
    RowRule G n l (fun reward => |reward| ≤ bound)
      (fun row => row.length = n ∧ ∀ v ∈ row, |v| ≤ b) where
  draw k := ⟨ActionValues.length_draw n k, fun v hv =>
    (ActionValues.abs_le_of_mem_draw hv).trans hdraw⟩
  learn {row reward ahead} action hrow hreward hahead := by
    have hbest : |ahead| ≤ b := by
      rcases hahead with rfl | ⟨row', ⟨hlen, hrow'⟩, rfl⟩
      · change |(0 : Rat)| ≤ b
        rw [abs_zero]
        linarith
      · exact ActionValues.abs_bestValue_le hleast (List.length_pos_iff.1 (hlen ▸ hn)) hrow'
    exact ⟨by rw [List.length_modify, hrow.1], forall_mem_modify hrow.2 fun value hvalue =>
      hl.abs_move_le hvalue (hl.abs_target_le hb hreward hbest)⟩

/-! ## Tables -/

namespace QTable

/-- A table that has started without rows and has gone through any number of episodes, with
    learning or without, in any environments with rewards that are `paid`. -/
inductive Trained {O R G : Type} [Ord O] [Std.TransOrd O] [Amount R] [Generator G] (n : Nat)
    (l : Learning R) (paid : R → Prop) : QTable O R G → Prop
  | new (seed : UInt64) : Trained n l paid (new n l seed)
  | episode {E A : Type} [Environment E O A R] [Numbered A] {t : QTable O R G} (learning : Bool)
    (e : E) (he : Environment.Pays paid e) :
    Trained n l paid t → Trained n l paid (t.episode learning e).state.1

/-- **Every rule for rows holds after training**, whatever the episodes were. -/
theorem Trained.filled {O R G : Type} [Ord O] [Std.TransOrd O] [Amount R] [Generator G] {n : Nat}
    {l : Learning R} {paid : R → Prop} {t : QTable O R G} (h : Trained n l paid t)
    {p : List R → Prop} (hp : RowRule G n l paid p) : t.Filled n l p := by
  induction h with
  | new seed => exact filled_new seed
  | episode learning e he _ ih => exact ih.episode hp he learning

end QTable

/-- **Action values stay bounded.**  A table with at least one action learns with a share `alpha` in
    `[0, 1]` and a factor `gamma` in `[0, 1)`, in episodes of any environments with rewards in
    `[-r, r]`.  Then no value is ever beyond `max (1 / 1000) (r / (1 - gamma))`, if that is a number
    of single precision: neither after the episodes, nor after any number of turns of another. -/
theorem values_stay_bounded {O : Type} [Ord O] [Std.TransOrd O] (n : Nat) (hn : 0 < n)
    (l : Learning Rat) (hl : l.Proper) (r : Rat)
    (hr : max (1 / 1000) (r / (1 - l.gamma)) ≤ -Amount.least) (t : QTable O Rat G)
    (ht : t.Trained n l (fun reward => |reward| ≤ r)) :
    (∀ (o : O) (row : List Rat), t.rows[o]? = some row →
      ∀ v ∈ row, |v| ≤ max (1 / 1000) (r / (1 - l.gamma))) ∧
    ∀ {E A : Type} [Environment E O A Rat] [Numbered A] (e : E),
      Environment.Pays (fun reward => |reward| ≤ r) e →
      ∀ (learning : Bool) (horizon turns : Nat) (now : O) (total : Rat) (o : O) (row : List Rat),
        (QTable.play learning horizon turns t e now total).state.1.rows[o]? = some row →
        ∀ v ∈ row, |v| ≤ max (1 / 1000) (r / (1 - l.gamma)) := by
  have hrule := rowRule_abs_le (G := G) hn hl (le_max_left _ _) (le_max_right _ _) hr
  have hfilled := ht.filled hrule
  refine ⟨fun o row hrow => (hfilled.of_row hrow).2, ?_⟩
  intro E A _ _ e he learning horizon turns now total o row hrow
  exact ((hfilled.play hrule he turns now total).of_row hrow).2

/-- A chain pays at most one, and costs no more. -/
theorem ChainEnvironment.pays_abs_le_one (e : ChainEnvironment Rat) :
    Environment.Pays (fun reward => |reward| ≤ 1) e := by
  intro cs a s h
  cases h
  change |((Environment.after e cs).chain.walk a).1.reward| ≤ 1
  rw [Chain.walk_reward]
  split_ifs <;> norm_num

/-- After an episode of learning on three cells with a factor of nine tenths, no value is beyond
    ten. -/
theorem values_after_an_episode :
    let l : Learning Rat := ⟨1 / 2, 1 / 10, 9 / 10⟩
    let e : ChainEnvironment Rat := ⟨{ cells := 3, position := 0, position_lt := by decide }⟩
    let t : QTable Nat Rat XorShift := ((QTable.new 3 l 7).episode true e).state.1
    0 < 3 ∧ l.Proper ∧ max (1 / 1000) (1 / (1 - l.gamma)) ≤ -Amount.least ∧
      t.Trained 3 l (fun reward => |reward| ≤ 1) ∧
      ∀ (o : Nat) (row : List Rat), t.rows[o]? = some row → ∀ v ∈ row, |v| ≤ 10 := by
  intro l e t
  have hl : l.Proper := by constructor <;> norm_num [l]
  have hten : max (1 / 1000) (1 / (1 - l.gamma)) = 10 := by norm_num [l]
  have hleast : max (1 / 1000) (1 / (1 - l.gamma)) ≤ -Amount.least := by
    rw [hten]
    change (10 : Rat) ≤ -(-((Nat.pow 2 128 - Nat.pow 2 104 : Nat) : Rat))
    norm_num
  have ht : t.Trained 3 l (fun reward => |reward| ≤ 1) := .episode true e e.pays_abs_le_one (.new 7)
  refine ⟨by decide, hl, hleast, ht, ?_⟩
  have hbound := (values_stay_bounded 3 (by decide) l hl 1 hleast t ht).1
  rw [hten] at hbound
  exact hbound

end GoalAutomata
