/-
  Episodes on a chain.

  The cell that an action leads to and the reward for it have closed forms
  (`Chain.target`, `Chain.bumps`).  A walker that is midway (`Chain.Midway`) has not
  come to the last cell and has steps left.  What an action does then is told by a step
  lemma for each part: the cell, the reward, and whether the episode is over.

  Rewards are added up in arithmetic that may round (`Rounding`), as long as it keeps
  the order and the numbers zero, one and minus one.

  * `ChainEnvironment.endsWithin`: an episode has at most ten steps for each cell;
  * `chain_episodes`: the law of every walk, and what it brings.
-/
import Mathlib.Algebra.Order.Field.Rat
import Mathlib.Data.List.Induction
import Mathlib.Data.Set.List
import Mathlib.Tactic.Linarith
import GoalAutomata.Environment.Chain
import GoalAutomata.Proofs.Environment.Episodes

namespace GoalAutomata

/-! ## One step -/

namespace Chain

section Walk

variable {R : Type} [Amount R] (c : Chain) (a : ChainAction)

/-- Whether an action bumps into an end. -/
def bumps : ChainAction → Bool
  | .left => c.position = 0
  | .stay => false
  | .right => c.position = c.lastCell

/-- The cell that an action leads to. -/
def target : ChainAction → Nat
  | .left => c.position - 1
  | .stay => c.position
  | .right => min (c.position + 1) c.lastCell

theorem hold_natCast (p : Nat) :
    c.hold (R := R) p = if c.lastCell < p then (c.lastCell, -1) else (p, 0) := by
  rw [hold, if_neg (Int.not_lt.2 (Int.natCast_nonneg p)), Int.toNat_natCast]

/-- **A walker is held by an end that he bumps into**, and moves on otherwise. -/
theorem hold_offset : c.hold (R := R) (c.position + a.offset) =
    (c.target a, if c.bumps a then -1 else 0) := by
  have hpos : c.position ≤ c.lastCell := Nat.le_sub_one_of_lt c.position_lt
  cases a with
  | left =>
    simp only [target, bumps, ChainAction.offset, decide_eq_true_eq]
    cases hp : c.position with
    | zero => rfl
    | succ p =>
      have hoff : ((p + 1 : Nat) : Int) + -1 = (p : Nat) := by omega
      rw [hoff, hold_natCast, if_neg (by omega), if_neg (Nat.succ_ne_zero p)]
      rfl
  | stay =>
    rw [ChainAction.offset, Int.add_zero, hold_natCast, if_neg (Nat.not_lt.2 hpos)]
    rfl
  | right =>
    have hoff : (c.position : Int) + 1 = (c.position + 1 : Nat) := rfl
    simp only [target, bumps, ChainAction.offset, decide_eq_true_eq]
    rw [hoff, hold_natCast]
    split_ifs <;> simp only [Prod.mk.injEq, and_true] <;> omega

@[simp] theorem walk_observation : (c.walk (R := R) a).1.observation = c.target a :=
  congrArg Prod.fst (c.hold_offset a)

@[simp] theorem walk_position : (c.walk (R := R) a).2.position = c.target a :=
  congrArg Prod.fst (c.hold_offset (R := R) a)

theorem walk_reward : (c.walk (R := R) a).1.reward =
    if c.target a = c.lastCell then 1 else if c.bumps a then -1 else 0 := by
  simp only [walk, hold_offset]
  split_ifs <;> rfl

theorem walk_done : (c.walk (R := R) a).1.done =
    (decide (c.target a = c.lastCell) || decide (c.maxSteps ≤ c.counter + 1)) := by
  simp only [walk, hold_offset]
  split_ifs with h <;> simp [h]

theorem target_lt : c.target a < c.cells := by
  rw [← c.walk_position (R := Rat) a]
  exact (c.walk (R := Rat) a).2.position_lt

end Walk

/-- A walker on `n` cells after `k` steps of an episode that goes on. -/
structure Midway (n k : Nat) (c : Chain) : Prop where
  cells : c.cells = n
  counter : c.counter = k
  position_lt : c.position + 1 < n
  position_le : c.position ≤ k
  counter_lt : k < 10 * n

variable {n k : Nat} {c : Chain}

theorem midway_restart (hn : 2 ≤ n) (hc : c.cells = n) : c.restart.Midway n 0 where
  cells := hc
  counter := rfl
  position_lt := hn
  position_le := le_rfl
  counter_lt := by omega

namespace Midway

variable (h : c.Midway n k) (a : ChainAction)
include h

theorem lastCell_eq : c.lastCell = n - 1 := congrArg (· - 1) h.cells

/-- The action moves the walker, who is held at the first cell. -/
theorem target_eq : (c.target a : Int) = max 0 (c.position + a.offset) := by
  have hp := h.position_lt
  have hlast := h.lastCell_eq
  cases a <;> simp only [target, ChainAction.offset] <;> omega

theorem target_le : c.target a ≤ n - 1 ∧ c.target a ≤ k + 1 := by
  have hlt := c.target_lt a
  have hp := h.position_le
  have hcells := h.cells
  refine ⟨by omega, ?_⟩
  cases a <;> simp only [target] <;> omega

theorem bumps_iff : c.bumps a = true ↔ a = .left ∧ c.position = 0 := by
  have hp := h.position_lt
  have hlast := h.lastCell_eq
  cases a with
  | left => simp [bumps]
  | stay => simp [bumps]
  | right =>
    simp only [bumps, decide_eq_true_eq, reduceCtorEq, false_and, iff_false]
    omega

theorem reward_eq {R : Type} [Amount R] : (c.walk (R := R) a).1.reward =
    if c.target a = n - 1 then 1 else if a = .left ∧ c.position = 0 then -1 else 0 := by
  rw [walk_reward, h.lastCell_eq]
  simp only [h.bumps_iff a]

theorem done_iff {R : Type} [Amount R] :
    (c.walk (R := R) a).1.done = true ↔ c.target a = n - 1 ∨ k + 1 = 10 * n := by
  have hk := h.counter_lt
  simp only [walk_done, maxSteps, h.lastCell_eq, h.cells, h.counter, Bool.or_eq_true,
    decide_eq_true_eq]
  omega

/-- **A step that does not end the episode leaves the walker midway.** -/
theorem walk {R : Type} [Amount R] (hdone : (c.walk (R := R) a).1.done = false) :
    (c.walk (R := R) a).2.Midway n (k + 1) := by
  have hnot : ¬(c.target a = n - 1 ∨ k + 1 = 10 * n) := by
    rw [← h.done_iff a (R := R), hdone]
    exact Bool.false_ne_true
  have ⟨hle, hk⟩ := h.target_le a
  have hp := h.position_lt
  have hlt := h.counter_lt
  exact {
    cells := h.cells
    counter := congrArg (· + 1) h.counter
    position_lt := by
      rw [walk_position]
      omega
    position_le := by rwa [walk_position]
    counter_lt := by omega }

end Midway

end Chain

/-! ## Sums that are rounded -/

/-- Rounding that keeps the order and the numbers zero, one and minus one. -/
structure Rounding (round : Rat → Rat) : Prop where
  mono : Monotone round
  zero : round 0 = 0
  one : round 1 = 1
  neg_one : round (-1) = -1

/-- A list of numbers added from the left to zero, with every sum rounded. -/
def roundedSum (round : Rat → Rat) (xs : List Rat) : Rat := xs.foldl (fun x y => round (x + y)) 0

section RoundedSum

variable {round : Rat → Rat} {xs : List Rat} {x b : Rat}

theorem rounding_id : Rounding id := ⟨monotone_id, rfl, rfl, rfl⟩

@[simp] theorem roundedSum_concat :
    roundedSum round (xs ++ [x]) = round (roundedSum round xs + x) := by
  rw [roundedSum, List.foldl_append]
  rfl

theorem Rounding.sum_nonpos (h : Rounding round) (hxs : ∀ x ∈ xs, x ≤ 0) :
    roundedSum round xs ≤ 0 := by
  induction xs using List.reverseRecOn with
  | nil => exact le_rfl
  | append_singleton xs x ih =>
    have hsum := ih fun y hy => hxs y (List.mem_append_left _ hy)
    have hx : x ≤ 0 := hxs x (by simp)
    rw [roundedSum_concat, ← h.zero]
    exact h.mono (by linarith)

/-- What has once been lost is not made good by sums that only fall. -/
theorem Rounding.sum_le_neg_one (h : Rounding round) (hxs : ∀ x ∈ xs, x ≤ 0)
    (hlost : ∃ x ∈ xs, x ≤ -1) : roundedSum round xs ≤ -1 := by
  induction xs using List.reverseRecOn with
  | nil => simp at hlost
  | append_singleton xs x ih =>
    have hxs' : ∀ y ∈ xs, y ≤ 0 := fun y hy => hxs y (List.mem_append_left _ hy)
    have hx : x ≤ 0 := hxs x (by simp)
    rw [roundedSum_concat, ← h.neg_one]
    refine h.mono ?_
    obtain ⟨y, hy, hle⟩ := hlost
    rcases List.mem_append.1 hy with hy | hy
    · have hsum := ih hxs' ⟨y, hy, hle⟩
      linarith
    · have hsum := h.sum_nonpos hxs'
      rw [List.mem_singleton.1 hy] at hle
      linarith

theorem Rounding.sum_eq_zero (h : Rounding round) (hxs : ∀ x ∈ xs, x = 0) :
    roundedSum round xs = 0 := by
  induction xs using List.reverseRecOn with
  | nil => rfl
  | append_singleton xs x ih =>
    rw [roundedSum_concat, ih fun y hy => hxs y (List.mem_append_left _ hy), hxs x (by simp),
      add_zero, h.zero]

/-- **A last one is gained in full only if nothing has been lost.** -/
theorem Rounding.sum_concat_one (h : Rounding round) (hxs : ∀ x ∈ xs, x = 0 ∨ x = -1) :
    roundedSum round (xs ++ [1]) ≤ 1 ∧
      (roundedSum round (xs ++ [1]) = 1 ↔ ∀ x ∈ xs, x = 0) := by
  have hle : ∀ x ∈ xs, x ≤ 0 := fun x hx => by rcases hxs x hx with rfl | rfl <;> norm_num
  rw [roundedSum_concat]
  by_cases hzero : ∀ x ∈ xs, x = 0
  · rw [h.sum_eq_zero hzero, zero_add, h.one]
    exact ⟨le_rfl, iff_of_true rfl hzero⟩
  · have hlost : ∃ x ∈ xs, x ≤ -1 := by
      push Not at hzero
      obtain ⟨x, hx, hne⟩ := hzero
      exact ⟨x, hx, ((hxs x hx).resolve_left hne).le⟩
    have hsum := h.sum_le_neg_one hle hlost
    have hround : round (roundedSum round xs + 1) ≤ 0 := by
      rw [← h.zero]
      exact h.mono (by linarith)
    exact ⟨hround.trans zero_le_one, iff_of_false (by linarith) hzero⟩

end RoundedSum

/-! ## Episodes -/

namespace ChainEnvironment

open Environment

variable {R : Type} {e : ChainEnvironment R} {n i : Nat} {acts : List ChainAction}

theorem exists_new (hn : 2 ≤ n) : ∃ e : ChainEnvironment R, new n = .ok e :=
  ⟨_, congrArg (mk <$> ·) (dif_neg (Nat.not_lt.2 hn))⟩

theorem cells_of_new (h : new n = .ok e) : e.chain.cells = n := by
  unfold new Chain.new at h
  split_ifs at h with hlt
  · cases h
  · exact congrArg (fun f : ChainEnvironment R => f.chain.cells) (Except.ok.inj h).symm

variable [Amount R]

/-- The cell of the walker after the first `i` actions. -/
def cellAfter (e : ChainEnvironment R) (acts : List ChainAction) (i : Nat) : Nat :=
  (after e ((acts.take i).map .step)).chain.position

theorem cellAfter_succ {a : ChainAction} (ha : acts[i]? = some a) :
    e.cellAfter acts (i + 1) = (after e ((acts.take i).map .step)).chain.target a := by
  rw [cellAfter, List.take_add_one, ha, List.map_append, after_append]
  exact Chain.walk_position (R := R) _ a

theorem cells_after (e : ChainEnvironment R) (cs : List (Act ChainAction)) :
    (after e cs).chain.cells = e.chain.cells := by
  refine after_induction (P := fun f : ChainEnvironment R => f.chain.cells = e.chain.cells) rfl
    (fun f c hf => ?_) cs
  cases c <;> exact hf

/-- A reset takes the walker to the start of an episode. -/
theorem midway_reset (hn : 2 ≤ n) (he : e.chain.cells = n) (past : List (Act ChainAction)) :
    (reset (after e past)).state.chain.Midway n 0 :=
  Chain.midway_restart hn ((cells_after e past).trans he)

/-- **The steps of a walk**, from the start of an episode on. -/
theorem exists_of_getElem?_rollout (he : e.chain.Midway n 0) {x : Except Error (Step Nat R)}
    (hx : (rollout e acts)[i]? = some x) : ∃ a s, acts[i]? = some a ∧ x = .ok s ∧
      s.observation = e.cellAfter acts (i + 1) ∧
      (e.cellAfter acts (i + 1) : Int) = max 0 (e.cellAfter acts i + a.offset) ∧
      e.cellAfter acts (i + 1) ≤ n - 1 ∧ e.cellAfter acts (i + 1) ≤ i + 1 ∧
      s.reward = (if e.cellAfter acts (i + 1) = n - 1 then 1
        else if a = .left ∧ e.cellAfter acts i = 0 then -1 else 0) ∧
      (s.done = true ↔ e.cellAfter acts (i + 1) = n - 1 ∨ i + 1 = 10 * n) := by
  obtain ⟨a, ha, hmid, hres⟩ := Environment.exists_of_getElem?_rollout
    (P := fun k (f : ChainEnvironment R) => f.chain.Midway n k) he
    (fun k f a hf hover => hf.walk a hover) hx
  rw [Nat.zero_add] at hmid
  refine ⟨a, _, ha, hres.symm, ?_⟩
  rw [cellAfter_succ ha]
  exact ⟨Chain.walk_observation _ a, hmid.target_eq a, (hmid.target_le a).1, (hmid.target_le a).2,
    hmid.reward_eq a, hmid.done_iff a⟩

/-- The steps that are left end the episode. -/
theorem endsIn {m : Nat} (hm : 0 < m) (h : e.chain.counter + m = e.chain.maxSteps) :
    EndsIn m e := by
  induction m generalizing e with
  | zero => exact absurd hm (lt_irrefl 0)
  | succ m ih =>
    intro a hover
    have hlt : ¬e.chain.maxSteps ≤ e.chain.counter + 1 :=
      fun hle => by simp [isOver, step, Chain.walk_done, hle] at hover
    refine ih (by omega) ?_
    change e.chain.counter + 1 + m = e.chain.maxSteps
    omega

/-- **An episode has at most ten steps for each cell.** -/
theorem endsWithin (e : ChainEnvironment R) : EndsWithin (10 * e.chain.cells) e := by
  intro past o ho
  have hcells := cells_after e past
  have hpos := (after e past).chain.position_lt
  refine endsIn (by omega) ?_
  change 0 + 10 * e.chain.cells = (after e past).chain.cells * 10
  omega

/-- The horizon of a chain leaves room for that. -/
theorem timely (e : ChainEnvironment R) : Timely (10 * e.chain.cells) e where
  endsWithin := e.endsWithin
  le_horizon cs := by
    change 10 * e.chain.cells ≤ (after e cs).chain.cells * 10
    rw [e.cells_after, Nat.mul_comm]

/-- No step of a walk fails. -/
theorem exists_steps (he : e.chain.Midway n 0) (acts : List ChainAction) :
    ∃ ss : List (Step Nat R), rollout e acts = ss.map .ok := by
  have hok : ∀ x ∈ rollout e acts, ∃ s, Except.ok s = x := by
    intro x hx
    obtain ⟨i, hi, rfl⟩ := List.mem_iff_getElem.1 hx
    obtain ⟨_, s, -, hs, -⟩ := exists_of_getElem?_rollout he (List.getElem?_eq_getElem hi)
    exact ⟨s, hs.symm⟩
  have hrange : rollout e acts ∈ Set.range (List.map (Except.ok (ε := Error))) := by
    rw [Set.range_list_map]
    exact hok
  obtain ⟨ss, hss⟩ := hrange
  exact ⟨ss, hss.symm⟩

/-! ## What a walk brings -/

/-- The action with number `i` bumps into the first cell. -/
def Bumps (e : ChainEnvironment R) (acts : List ChainAction) (i : Nat) : Prop :=
  acts[i]? = some .left ∧ e.cellAfter acts i = 0

instance : Decidable (e.Bumps acts i) := inferInstanceAs (Decidable (_ ∧ _))

section Return

variable {e : ChainEnvironment Rat} {acts : List ChainAction} {init : List (Step Nat Rat)}
  {s : Step Nat Rat} (he : e.chain.Midway n 0)
  (hss : rollout e acts = (init ++ [s]).map .ok)
include he hss

/-- A step before the last one costs what a bump costs, and brings nothing. -/
theorem reward_of_getElem? {x : Step Nat Rat} (hx : init[i]? = some x) :
    x.reward = if e.Bumps acts i then -1 else 0 := by
  have hi : i < init.length := (List.getElem?_eq_some_iff.1 hx).1
  have hentry : (rollout e acts)[i]? = some (.ok x) := by
    rw [hss, List.getElem?_map, List.getElem?_append_left hi, hx]
    rfl
  have hover := isOver_of_getElem?_rollout hentry (by rw [hss]; simp; omega)
  obtain ⟨a, y, ha, heq, -, -, -, -, hreward, hdone⟩ := exists_of_getElem?_rollout he hentry
  cases heq
  -- the last cell would end the episode
  have hnot : ¬(e.cellAfter acts (i + 1) = n - 1) := fun h => by
    have htrue : x.done = true := hdone.2 (Or.inl h)
    rw [isOver, htrue] at hover
    cases hover
  rw [hreward, if_neg hnot]
  simp [Bumps, ha]

theorem reward_eq_zero_or (x : Rat) (hx : x ∈ init.map (·.reward)) : x = 0 ∨ x = -1 := by
  obtain ⟨y, hy, rfl⟩ := List.mem_map.1 hx
  obtain ⟨i, hi⟩ := List.mem_iff_getElem?.1 hy
  rw [reward_of_getElem? he hss hi]
  split_ifs
  · exact Or.inr rfl
  · exact Or.inl rfl

/-- **Nothing is lost before the last step** if there is no bump. -/
theorem rewards_eq_zero_iff :
    (∀ x ∈ init.map (·.reward), x = 0) ↔ ∀ i < init.length, ¬e.Bumps acts i := by
  constructor
  · intro hzero i hi hbump
    have hx := reward_of_getElem? he hss (List.getElem?_eq_getElem hi)
    rw [if_pos hbump, hzero _ (List.mem_map_of_mem (List.getElem_mem hi))] at hx
    norm_num at hx
  · intro h x hx
    obtain ⟨y, hy, rfl⟩ := List.mem_map.1 hx
    obtain ⟨i, hi⟩ := List.mem_iff_getElem?.1 hy
    rw [reward_of_getElem? he hss hi, if_neg (h i (List.getElem?_eq_some_iff.1 hi).1)]

/-- The last step pays one if it comes to the last cell, which is no bump, and nothing else. -/
theorem reward_last :
    (e.cellAfter acts (init.length + 1) = n - 1 → s.reward = 1 ∧ ¬e.Bumps acts init.length) ∧
      (e.cellAfter acts (init.length + 1) ≠ n - 1 → s.reward ≤ 0) := by
  have hentry : (rollout e acts)[init.length]? = some (.ok s) := by
    rw [hss]
    simp
  obtain ⟨a, y, ha, heq, -, hmove, -, -, hreward, -⟩ := exists_of_getElem?_rollout he hentry
  cases heq
  have hn := he.position_lt
  refine ⟨fun hend => ⟨hreward.trans (if_pos hend), fun hbump => ?_⟩, fun hend => ?_⟩
  · -- a bump leaves the walker on the first cell
    obtain rfl : a = .left := Option.some_inj.1 (ha.symm.trans hbump.1)
    rw [hbump.2, ChainAction.offset] at hmove
    omega
  · rw [hreward, if_neg hend]
    split_ifs <;> norm_num

end Return

/-- **The return of a walk** is one only if it has come to the last cell and has never bumped. -/
theorem roundedSum_rewards {e : ChainEnvironment Rat} (he : e.chain.Midway n 0)
    {round : Rat → Rat} (hround : Rounding round) {ss : List (Step Nat Rat)}
    (hss : rollout e acts = ss.map .ok) :
    roundedSum round (ss.map (·.reward)) ≤ 1 ∧
      (roundedSum round (ss.map (·.reward)) = 1 ↔
        e.cellAfter acts ss.length = n - 1 ∧ ∀ i < ss.length, ¬e.Bumps acts i) := by
  rcases List.eq_nil_or_concat ss with rfl | ⟨init, s, rfl⟩
  · have hcell : e.cellAfter acts 0 ≠ n - 1 := by
      have hn := he.position_lt
      change e.chain.position ≠ n - 1
      omega
    exact ⟨zero_le_one, iff_of_false (by simp [roundedSum]) fun h => hcell h.1⟩
  rw [List.concat_eq_append] at hss ⊢
  have hsigns := reward_eq_zero_or he hss
  obtain ⟨hpaid, hunpaid⟩ := reward_last he hss
  have hlength : (init ++ [s]).length = init.length + 1 := by simp
  rw [List.map_append, List.map_singleton, hlength]
  by_cases hend : e.cellAfter acts (init.length + 1) = n - 1
  · obtain ⟨hone, hlast⟩ := hpaid hend
    obtain ⟨hle, hiff⟩ := hround.sum_concat_one hsigns
    rw [hone]
    refine ⟨hle, ?_⟩
    rw [hiff, rewards_eq_zero_iff he hss, Nat.forall_lt_succ_right]
    exact ⟨fun h => ⟨hend, h, hlast⟩, fun h => h.2.1⟩
  · have hle : roundedSum round (init.map (·.reward) ++ [s.reward]) ≤ 0 := by
      refine hround.sum_nonpos fun x hx => ?_
      rcases List.mem_append.1 hx with hx | hx
      · rcases hsigns x hx with rfl | rfl <;> norm_num
      · rw [List.mem_singleton.1 hx]
        exact hunpaid hend
    exact ⟨hle.trans zero_le_one, iff_of_false (by linarith) fun h => hend h.1⟩

end ChainEnvironment

/-- **Episodes on a chain.**  A chain of `n` cells exists if `n` is at least two.  Take any actions
    after a reset, whatever was done before it, and their steps as long as the episode goes on.
    None fails.  Each moves the walker by its action, holds him at the first cell, and leaves him on
    a cell.  It pays one if it comes to the last cell, costs one if it goes left from the first, and
    brings nothing otherwise.  It ends the episode if it comes to the last cell or is the one with
    number `10 * n`.  So an episode has at most that many steps, it ends if there are that many
    actions, and if it has ended it has at least `n - 1`.  Its return, exact or with rounded sums, is
    at most one, and one only if the last cell has been reached without a bump. -/
theorem chain_episodes (n : Nat) (hn : 2 ≤ n) :
    (∀ {R : Type} [Amount R], ∃ e : ChainEnvironment R, ChainEnvironment.new n = .ok e ∧
      ∀ (past : List (Act ChainAction)) (acts : List ChainAction),
        let start := (Environment.reset (Environment.after e past)).state
        let cell : Nat → Nat := start.cellAfter acts
        (Environment.reset (Environment.after e past)).result = .ok 0 ∧ cell 0 = 0 ∧
        ∃ ss : List (Step Nat R), Environment.rollout start acts = ss.map .ok ∧
          (∀ i s, ss[i]? = some s → ∃ a, acts[i]? = some a ∧ s.observation = cell (i + 1) ∧
            (cell (i + 1) : Int) = max 0 ((cell i : Int) + a.offset) ∧ cell (i + 1) ≤ n - 1 ∧
            s.reward = (if cell (i + 1) = n - 1 then 1
              else if a = .left ∧ cell i = 0 then -1 else 0) ∧
            (s.done = true ↔ cell (i + 1) = n - 1 ∨ i + 1 = 10 * n)) ∧
          ss.length ≤ 10 * n ∧ (10 * n ≤ acts.length → ∃ s ∈ ss, s.done = true) ∧
          ((∃ s ∈ ss, s.done = true) → n - 1 ≤ ss.length)) ∧
    Rounding id ∧
    ∀ (e : ChainEnvironment Rat) (past : List (Act ChainAction)) (acts : List ChainAction)
      (ss : List (Step Nat Rat)) (round : Rat → Rat), ChainEnvironment.new n = .ok e →
      let start := (Environment.reset (Environment.after e past)).state
      let cell : Nat → Nat := start.cellAfter acts
      Environment.rollout start acts = ss.map .ok → Rounding round →
        roundedSum round (ss.map (·.reward)) ≤ 1 ∧
        (roundedSum round (ss.map (·.reward)) = 1 ↔ cell ss.length = n - 1 ∧
          ∀ i < ss.length, ¬(acts[i]? = some .left ∧ cell i = 0)) := by
  refine ⟨fun {R} _ => ?_, rounding_id, fun e past acts ss round he hss hround =>
    ChainEnvironment.roundedSum_rewards
      (ChainEnvironment.midway_reset hn (ChainEnvironment.cells_of_new he) past) hround hss⟩
  obtain ⟨e, he⟩ := ChainEnvironment.exists_new (R := R) hn
  have hcells := ChainEnvironment.cells_of_new he
  refine ⟨e, he, fun past acts => ⟨rfl, rfl, ?_⟩⟩
  have hstart := ChainEnvironment.midway_reset hn hcells past
  have hends := e.endsWithin past 0 rfl
  rw [hcells] at hends
  generalize (Environment.reset (Environment.after e past)).state = start at hstart hends ⊢
  obtain ⟨ss, hss⟩ := ChainEnvironment.exists_steps hstart acts
  have hlaw : ∀ i s, ss[i]? = some s → (Environment.rollout start acts)[i]? = some (Except.ok s) :=
    fun i s hs => by rw [hss, List.getElem?_map, hs]; rfl
  obtain ⟨hlength, hover⟩ := hends.length_rollout_le acts
  rw [hss, List.length_map] at hlength
  refine ⟨ss, hss, fun i s hs => ?_, hlength, fun hacts => ?_, ?_⟩
  · obtain ⟨a, _, ha, heq, hobs, hmove, hle, -, hreward, hdone⟩ :=
      ChainEnvironment.exists_of_getElem?_rollout hstart (hlaw i s hs)
    cases heq
    exact ⟨a, ha, hobs, hmove, hle, hreward, hdone⟩
  · obtain ⟨x, hx, hxo⟩ := hover hacts
    rw [hss] at hx
    obtain ⟨s, hs, rfl⟩ := List.mem_map.1 hx
    exact ⟨s, hs, hxo⟩
  · rintro ⟨s, hs, hsdone⟩
    obtain ⟨i, hi⟩ := List.mem_iff_getElem?.1 hs
    have hlt := (List.getElem?_eq_some_iff.1 hi).1
    obtain ⟨a, _, -, heq, -, -, -, hle, -, hdone⟩ :=
      ChainEnvironment.exists_of_getElem?_rollout hstart (hlaw i s hi)
    cases heq
    -- a walker is never further than he has made steps
    rcases hdone.1 hsdone with h | h <;> omega

/-- Two actions on a chain of three cells: the walker comes to the last, and nothing is lost. -/
theorem walk_of_two_steps :
    2 ≤ 3 ∧ ∃ (e : ChainEnvironment Rat) (ss : List (Step Nat Rat)),
      ChainEnvironment.new 3 = .ok e ∧
      Environment.rollout (Environment.reset e).state [ChainAction.right, .right, .left] =
        ss.map .ok ∧
      ss.length = 2 ∧ roundedSum id (ss.map (·.reward)) = 1 := by
  obtain ⟨hwalks, hid, hreturn⟩ := chain_episodes 3 (by decide)
  obtain ⟨e, he, hwalk⟩ := hwalks (R := Rat)
  cases he
  obtain ⟨-, -, ss, hss, -⟩ := hwalk [] [.right, .right, .left]
  have hlength : ss.length = 2 := by
    rw [← List.length_map (f := Except.ok (ε := Error)), ← hss]
    rfl
  refine ⟨by decide, _, ss, rfl, hss, hlength, ?_⟩
  refine (hreturn _ [] _ ss id rfl hss hid).2.2 ⟨by rw [hlength]; rfl, fun i hi hbump => ?_⟩
  -- the first action to the left is the third
  rw [hlength] at hi
  obtain rfl | rfl : i = 0 ∨ i = 1 := by omega
  all_goals cases hbump.1

end GoalAutomata
