/-
  Episodes of environments.

  An episode goes on until a step fails or is done (`Environment.isOver`), and what
  some actions bring of it is a `rollout`.  `Environment.EndsIn` says of an
  environment in its course that its episode ends within so many steps, whatever the
  actions, and `EndsWithin` that this is so after every reset.  An environment whose
  horizon leaves room for that is `Timely`.

  What is kept by every step that does not end the episode holds along a rollout
  (`Environment.exists_of_getElem?_rollout`).
-/
import GoalAutomata.Proofs.Environment

namespace GoalAutomata

namespace Environment

variable {E O A R : Type} [Environment E O A R] {e : E} {as : List A} {a : A} {n m i : Nat}
  {x : Except Error (Step O R)}

/-- An episode is over after a failure, and after a step that is done. -/
def isOver : Except Error (Step O R) → Bool
  | .error _ => true
  | .ok s => s.done

theorem exists_of_not_isOver (h : isOver x = false) : ∃ s, x = .ok s ∧ s.done = false := by
  cases x with
  | error e => cases h
  | ok s => exact ⟨s, rfl, h⟩

/-- What some actions bring, one after another, until the episode is over. -/
def rollout (e : E) : List A → List (Except Error (Step O R))
  | [] => []
  | a :: as => (step e a).result ::
      if isOver (step e a).result then [] else rollout (step e a).state as

theorem rollout_of_isOver (h : isOver (step e a).result = true) :
    rollout e (a :: as) = [(step e a).result] := by
  rw [rollout, if_pos h]

theorem rollout_of_not_isOver (h : isOver (step e a).result = false) :
    rollout e (a :: as) = (step e a).result :: rollout (step e a).state as := by
  rw [rollout, if_neg (Bool.eq_false_iff.1 h)]

/-- Only the last step of a rollout ends the episode. -/
theorem isOver_of_getElem?_rollout (h : (rollout e as)[i]? = some x)
    (hi : i + 1 < (rollout e as).length) : isOver x = false := by
  induction as generalizing e i with
  | nil => cases h
  | cons a as ih =>
    by_cases ha : isOver (step e a).result = true
    · rw [rollout_of_isOver ha] at hi
      exact absurd hi (by simp)
    · rw [Bool.not_eq_true] at ha
      rw [rollout_of_not_isOver ha] at h hi
      cases i with
      | zero =>
        cases h
        exact ha
      | succ i => exact ih h (Nat.lt_of_succ_lt_succ hi)

/-- **Along a rollout** holds whatever holds at first and is kept by every step that does not end
    the episode, and each entry is the answer to its action. -/
theorem exists_of_getElem?_rollout {P : Nat → E → Prop} (h : P i e)
    (hstep : ∀ i (f : E) a, P i f → isOver (step f a).result = false → P (i + 1) (step f a).state)
    {j : Nat} (hx : (rollout e as)[j]? = some x) :
    ∃ a, as[j]? = some a ∧ P (i + j) (after e ((as.take j).map .step)) ∧
      (step (after e ((as.take j).map .step)) a).result = x := by
  induction as generalizing e i j with
  | nil => cases hx
  | cons a as ih =>
    cases j with
    | zero =>
      cases hx
      exact ⟨a, rfl, h, rfl⟩
    | succ j =>
      by_cases ha : isOver (step e a).result = true
      · rw [rollout_of_isOver ha] at hx
        cases hx
      · rw [Bool.not_eq_true] at ha
        rw [rollout_of_not_isOver ha] at hx
        obtain ⟨b, hb, hP, hres⟩ := ih (hstep i e a h ha) hx
        rw [Nat.add_assoc, Nat.add_comm 1] at hP
        exact ⟨b, hb, hP, hres⟩

/-! ## Episodes that end -/

/-- The episode ends within `n` steps, whatever the actions. -/
def EndsIn : Nat → E → Prop
  | 0, _ => False
  | n + 1, e => ∀ a, isOver (step e a).result = false → EndsIn n (step e a).state

/-- **No rollout is longer, and one of that many actions is over.** -/
theorem EndsIn.length_rollout_le (h : EndsIn n e) (as : List A) :
    (rollout e as).length ≤ n ∧ (n ≤ as.length → ∃ x ∈ rollout e as, isOver x = true) := by
  induction n generalizing e as with
  | zero => exact absurd h id
  | succ n ih =>
    cases as with
    | nil => exact ⟨Nat.zero_le _, fun hle => absurd hle (Nat.not_succ_le_zero n)⟩
    | cons a as =>
      by_cases ha : isOver (step e a).result = true
      · rw [rollout_of_isOver ha]
        exact ⟨Nat.le_add_left 1 n, fun _ => ⟨_, List.mem_singleton_self _, ha⟩⟩
      · rw [Bool.not_eq_true] at ha
        obtain ⟨hle, hover⟩ := ih (h a ha) as
        rw [rollout_of_not_isOver ha]
        refine ⟨Nat.succ_le_succ hle, fun hlen => ?_⟩
        obtain ⟨x, hx, hxo⟩ := hover (Nat.le_of_succ_le_succ hlen)
        exact ⟨x, List.mem_cons_of_mem _ hx, hxo⟩

/-- After every reset that succeeds, whatever the calls before it, the episode ends within `n`
    steps. -/
def EndsWithin (n : Nat) (e : E) : Prop :=
  ∀ (past : List (Act A)) (o : O), (reset (after e past)).result = .ok o →
    EndsIn n (reset (after e past)).state

theorem EndsWithin.after (h : EndsWithin n e) (cs : List (Act A)) :
    EndsWithin n (Environment.after e cs) := by
  intro past o ho
  rw [← after_append] at ho ⊢
  exact h _ o ho

/-- Every episode ends within `n` steps, and the horizon leaves room for so many. -/
structure Timely (n : Nat) (e : E) : Prop where
  endsWithin : EndsWithin n e
  le_horizon : ∀ cs : List (Act A), n ≤ horizon (Environment.after e cs)

theorem Timely.after (h : Timely n e) (cs : List (Act A)) : Timely n (Environment.after e cs) where
  endsWithin := h.endsWithin.after cs
  le_horizon ds := by
    rw [← after_append]
    exact h.le_horizon _

end Environment

end GoalAutomata
