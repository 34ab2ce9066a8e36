/-
  Potentials are ordered by distance to acceptance.

  The potential of a level is the way covered since the level of the initial state,
  as a share of the whole way, or of one edge where there is no way to cover
  (`Potential.atLevel_eq`).  The share never vanishes, so the nearer of two levels
  always has the greater potential (`Potential.atLevel_lt_atLevel`).  All else is
  read off this order: the initial state has no potential, the failures are at the
  top of the levels, and the accepting states at their bottom.

  `Checked` are exact amounts in which a division by zero has no value.  Computed in
  these, all potentials have one (`Potential.values_ofLevels_checked`).
-/
import Mathlib.Algebra.Order.Field.Basic
import Mathlib.Algebra.Order.Field.Rat
import GoalAutomata.Proofs.Complete
import GoalAutomata.Proofs.Levels

namespace GoalAutomata

/-! ## The potential of a level -/

namespace Potential

variable {l₀ l m : Nat} {reward : Rat}

/-- The way covered, as a share of the whole way or of one edge, times the reward. -/
theorem atLevel_eq (l₀ l : Nat) (reward : Rat) :
    atLevel l₀ l reward = ((l₀ : Rat) - l) / ((max l₀ 1 : Nat) : Rat) * reward := by
  change (if l₀ = 0 then (l₀ : Rat) - l else ((l₀ : Rat) - l) / (l₀ : Rat)) * reward = _
  split_ifs with h
  · rw [h, Nat.max_eq_right (Nat.zero_le 1), Nat.cast_one, div_one]
  · rw [Nat.max_eq_left (Nat.pos_of_ne_zero h)]

theorem share_pos (l₀ : Nat) : (0 : Rat) < ((max l₀ 1 : Nat) : Rat) :=
  Nat.cast_pos.2 (Nat.lt_of_lt_of_le Nat.one_pos (Nat.le_max_right l₀ 1))

/-- **The nearer of two levels has the greater potential.** -/
theorem atLevel_lt_atLevel (h : 0 < reward) :
    atLevel l₀ l reward < atLevel l₀ m reward ↔ m < l := by
  rw [atLevel_eq, atLevel_eq, mul_lt_mul_iff_left₀ h, div_lt_div_iff_of_pos_right (share_pos l₀),
    sub_lt_sub_iff_left, Nat.cast_lt]

theorem atLevel_le_atLevel (h : 0 ≤ reward) (hml : m ≤ l) :
    atLevel l₀ l reward ≤ atLevel l₀ m reward := by
  rw [atLevel_eq, atLevel_eq]
  refine mul_le_mul_of_nonneg_right ?_ h
  exact div_le_div_of_nonneg_right (sub_le_sub_left (Nat.cast_le.2 hml) _) (share_pos l₀).le

/-- From a way to cover, the whole of it is worth the reward. -/
theorem atLevel_zero (h : 0 < l₀) : atLevel l₀ 0 reward = reward := by
  have hne : (l₀ : Rat) ≠ 0 := Nat.cast_ne_zero.2 h.ne'
  rw [atLevel_eq, Nat.max_eq_left h, Nat.cast_zero, sub_zero, div_self hne, one_mul]

/-- **No level is worth more than the reward.** -/
theorem atLevel_le_reward (h : 0 ≤ reward) : atLevel l₀ l reward ≤ reward := by
  refine (atLevel_le_atLevel h (Nat.zero_le l)).trans ?_
  rcases Nat.eq_zero_or_pos l₀ with rfl | hpos
  · rwa [atLevel_self]
  · rw [atLevel_zero hpos]

end Potential

/-! ## The potentials of an automaton -/

section Automaton

variable {R : Type} [Amount R] {A : Automaton} {q : Nat}

theorem Potential.getElem?_ofLevels (h : q ∈ A.allStates ∨ A.Reaches q) (q₀ : Nat) (reward : R) :
    (ofLevels (.ofAutomaton A) q₀ reward).values[q]? =
      some (atLevel ((Levels.ofAutomaton A).level q₀) ((Levels.ofAutomaton A).level q) reward) := by
  rw [ofLevels, Std.ExtTreeMap.getElem?_map, Levels.getElem?_known_level h, Option.map_some]

/-- A state has the potential of its level. -/
theorem Potential.get_ofLevels (h : q ∈ A.allStates ∨ A.Reaches q) (q₀ : Nat) (reward : R) :
    (ofLevels (.ofAutomaton A) q₀ reward).get q =
      atLevel ((Levels.ofAutomaton A).level q₀) ((Levels.ofAutomaton A).level q) reward := by
  rw [get, getElem?_ofLevels h, Option.getD_some]

theorem Potential.get_ofLevels_le_reward (L : Levels) (q₀ : Nat) {reward : Rat} (h : 0 ≤ reward) :
    (ofLevels L q₀ reward).get q ≤ reward := by
  rw [get, ofLevels, Std.ExtTreeMap.getElem?_map]
  cases L.known[q]? with
  | none => exact h
  | some l => exact atLevel_le_reward h

end Automaton

/-! ## Arithmetic that checks its divisors -/

/-- Exact amounts, of which some have no value: a division by zero has none, and neither has what is
    computed from it. -/
structure Checked where
  value? : Option Rat

namespace Checked

/-- What is computed from the values of two amounts. -/
def lift (f : Rat → Rat → Option Rat) (x y : Checked) : Checked :=
  ⟨x.value?.bind fun a => y.value?.bind (f a)⟩

/-- As for amounts that are not numbers, a comparison without a value fails, and the lesser and the
    greater of two amounts are those that have one. -/
instance : Amount Checked where
  zero := ⟨some 0⟩
  one := ⟨some 1⟩
  neg x := ⟨x.value?.map (- ·)⟩
  add := lift fun a b => some (a + b)
  sub := lift fun a b => some (a - b)
  mul := lift fun a b => some (a * b)
  div := lift fun a b => if b = 0 then none else some (a / b)
  ofNat n := ⟨some n⟩
  less x y := (x.value?.bind fun a => y.value?.map fun b => decide (a < b)).getD false
  lesser x y := ⟨x.value?.merge Amount.lesser y.value?⟩
  greater x y := ⟨x.value?.merge Amount.greater y.value?⟩
  least := ⟨some Amount.least⟩

end Checked

namespace Potential

/-- No potential of a level is found by a division by zero. -/
theorem atLevel_checked (l₀ l : Nat) (reward : Rat) :
    atLevel l₀ l (⟨some reward⟩ : Checked) = ⟨some (atLevel l₀ l reward)⟩ := by
  by_cases h : l₀ = 0
  · simp only [atLevel, if_pos h]
    rfl
  · have hne : (l₀ : Rat) ≠ 0 := Nat.cast_ne_zero.2 h
    have hdiv : (Amount.ofNat l₀ - Amount.ofNat l : Checked) / Amount.ofNat l₀ =
        ⟨some (((l₀ : Rat) - l) / l₀)⟩ := congrArg Checked.mk (if_neg hne)
    simp only [atLevel, if_neg h, hdiv]
    rfl

/-- **No potential is found by a division by zero**: checked arithmetic gives the same ones. -/
theorem values_ofLevels_checked (L : Levels) (q₀ : Nat) (reward : Rat) :
    (ofLevels L q₀ (⟨some reward⟩ : Checked)).values =
      (ofLevels L q₀ reward).values.map fun _ x => ⟨some x⟩ := by
  refine Std.ExtTreeMap.ext_getElem? fun {q} => ?_
  simp only [ofLevels, Std.ExtTreeMap.getElem?_map, Option.map_map, atLevel_checked]
  rfl

end Potential

/-- **Potentials are ordered by distance, and failures are never worth anything.**  Take an
    automaton that starts in one of its states, and a reward that is positive.  Every state and the
    sink has a potential, which is greater than that of another exactly if its level is less.  The
    initial state has none.  A failure has none either if the initial state is one, and a negative
    one otherwise.  If there are accepting states but the initial one is not among them, these are
    worth the reward, and nothing is worth more.  Nothing is divided by zero.  So a step along a
    shortest path to acceptance gains, and no step into a failure does. -/
theorem potential_ordered_by_level (A : Automaton) (hinitial : A.initial ∈ A.states)
    (reward : Rat) (hreward : 0 < reward) :
    let L := Levels.ofAutomaton A
    let P := Potential.ofLevels L A.initial reward
    let Φ := P.get
    (∀ q ∈ A.allStates, P.values[q]? = some (Φ q)) ∧
    (∀ q ∈ A.allStates, ∀ r ∈ A.allStates, Φ r < Φ q ↔ L.level q < L.level r) ∧
    Φ A.initial = 0 ∧
    (∀ q ∈ L.failures, Φ q ≤ 0 ∧ (Φ q < 0 ↔ A.initial ∉ L.failures)) ∧
    (A.accepting ≠ ∅ → A.initial ∉ A.accepting →
      (∀ q ∈ A.accepting, Φ q = reward) ∧ ∀ q, Φ q ≤ reward) ∧
    (Potential.ofLevels L A.initial (⟨some reward⟩ : Checked)).values =
      P.values.map (fun _ x => ⟨some x⟩) ∧
    (∀ q r k, A.Edge q r → A.Distance q (k + 1) → A.Distance r k → Φ q < Φ r) ∧
    (∀ q ∈ A.allStates, ∀ r ∈ L.failures, Φ r ≤ Φ q) := by
  intro L P Φ
  have hΦ : ∀ q, q ∈ A.allStates ∨ A.Reaches q →
      Φ q = Potential.atLevel (L.level A.initial) (L.level q) reward := fun q hq =>
    Potential.get_ofLevels hq A.initial reward
  have hzero : Φ A.initial = 0 := Potential.get_ofLevels_self L A.initial reward
  have hstart : A.initial ∈ A.allStates := Automaton.mem_allStates.2 (Or.inl hinitial)
  have hfailure : ∀ q ∈ L.failures, q ∈ A.allStates := fun q hq =>
    Automaton.mem_allStates.2 (Levels.mem_failures_iff.1 hq).1
  have horder : ∀ q r, q ∈ A.allStates ∨ A.Reaches q → r ∈ A.allStates ∨ A.Reaches r →
      (Φ r < Φ q ↔ L.level q < L.level r) := by
    intro q r hq hr
    rw [hΦ q hq, hΦ r hr]
    exact Potential.atLevel_lt_atLevel hreward
  -- a failure is at the top, so nothing is below it
  have hlost : ∀ q ∈ A.allStates, ∀ r ∈ L.failures, Φ r ≤ Φ q := by
    intro q hq r hr
    have hlevel : L.level q ≤ L.level r := by
      rw [Levels.level_of_mem_failures hr]
      exact Levels.level_le_top
    exact not_lt.1 (mt (horder r q (Or.inl (hfailure r hr)) (Or.inl hq)).1 hlevel.not_gt)
  refine ⟨fun q hq => ?_, fun q hq r hr => horder q r (Or.inl hq) (Or.inl hr), hzero,
    fun q hq => ⟨?_, ?_⟩, fun hacc hnot => ⟨fun q hq => ?_, fun q => ?_⟩,
    Potential.values_ofLevels_checked L A.initial reward, fun q r k _ hq hr => ?_, hlost⟩
  · rw [hΦ q (Or.inl hq)]
    exact Potential.getElem?_ofLevels (Or.inl hq) A.initial reward
  · rw [← hzero]
    exact hlost A.initial hstart q hq
  · rw [← hzero, horder A.initial q (Or.inl hstart) (Or.inl (hfailure q hq)),
      Levels.level_of_mem_failures hq, Levels.level_lt_top_iff, Levels.mem_failures_iff]
    simp [hinitial]
  · have hreach := Automaton.reaches_of_mem_accepting hq
    have hbottom : L.level q = 0 := Levels.level_of_distance (IsDistance.zero_iff.2 hq)
    rw [hΦ q (Or.inr hreach), hbottom]
    exact Potential.atLevel_zero (Levels.level_pos hnot hacc)
  · exact Potential.get_ofLevels_le_reward L A.initial hreward.le
  · rw [horder r q (Or.inr (Automaton.reaches_iff.2 ⟨k, hr⟩))
      (Or.inr (Automaton.reaches_iff.2 ⟨k + 1, hq⟩)), Levels.level_of_distance hq,
      Levels.level_of_distance hr]
    exact Nat.lt_succ_self k

/-- Half of the reward is earned after one of two steps and all of it after both, and the sink costs
    something. -/
theorem potential_of_two_steps :
    let P := Potential.ofLevels (.ofAutomaton Dfa.twoSteps.toAutomaton) 0 (3 : Rat)
    P.get 1 = 3 / 2 ∧ P.get 2 = 3 ∧ P.get 3 < 0 := by
  obtain ⟨-, -, -, hfailure, hreward, -⟩ := potential_ordered_by_level Dfa.twoSteps.toAutomaton
    (States.mem_below.2 (by decide)) 3 (by norm_num)
  exact ⟨by decide +kernel, (hreward (by decide) (by decide)).1 2 (by decide),
    (hfailure 3 (by decide +kernel)).2.2 (by decide +kernel)⟩

end GoalAutomata
