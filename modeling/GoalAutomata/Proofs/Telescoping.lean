/-
  Gains in potential telescope.

  A simulator pays gains if every successful step pays what the potential of the
  state gains, discounted, and the last step of an episode pays the bonus of
  acceptance instead of a further potential.  The discounted sum of what an
  episode pays is then the bonus, or the potential at which it was broken off,
  less the potential at which it started.  All amounts are exact.

  * `PaysGains`: what one call has to do;
  * `PaysGains.discounted_stages`: what follows for an episode.
-/
import Mathlib.Algebra.Order.Field.Rat
import Mathlib.Tactic.Ring
import GoalAutomata.Potential
import GoalAutomata.Proofs.Runs

namespace GoalAutomata

/-! ## Discounted sums -/

/-- The sum of some rewards, that of time `t` weighted by the discount to the power `t`. -/
def discounted (g : Rat) (xs : List Rat) : Rat := (xs.mapIdx fun t x => g ^ t * x).sum

@[simp] theorem discounted_nil (g : Rat) : discounted g [] = 0 := rfl

theorem sum_mapIdx_mul_left (g : Rat) (f : Nat → Rat → Rat) (xs : List Rat) :
    (xs.mapIdx fun t x => g * f t x).sum = g * (xs.mapIdx f).sum := by
  induction xs generalizing f with
  | nil => simp
  | cons x xs ih => simp only [List.mapIdx_cons, List.sum_cons, ih, mul_add]

@[simp] theorem discounted_cons (g x : Rat) (xs : List Rat) :
    discounted g (x :: xs) = x + g * discounted g xs := by
  have hpow : (fun (t : Nat) (y : Rat) => g ^ (t + 1) * y) = fun t y => g * (g ^ t * y) := by
    funext t y
    ring
  simp only [discounted, List.mapIdx_cons, List.sum_cons, pow_zero, one_mul, hpow,
    sum_mapIdx_mul_left]

/-- Without discount it is the plain sum. -/
theorem discounted_one (xs : List Rat) : discounted 1 xs = xs.sum := by
  induction xs with
  | nil => rfl
  | cons x xs ih => rw [discounted_cons, ih, List.sum_cons, one_mul]

/-! ## Exact amounts -/

theorem Amount.sum_rat (xs : List Rat) : Amount.sum xs = xs.sum := List.sum_eq_foldl.symm

theorem shapedReward_rat (source destination bonus g : Rat) :
    shapedReward source destination bonus g = g * destination - source + bonus := rfl

theorem Potential.eval_rat (P : Potential Rat) (q : Nat) (last : Bool) :
    P.eval q last = if last then 0 else P.get q := rfl

/-- The state whose level is the reference has no potential. -/
theorem Potential.atLevel_self (l : Nat) (reward : Rat) : atLevel l l reward = 0 := by
  have hsub : (Amount.ofNat l - Amount.ofNat l : Rat) = 0 := sub_self (l : Rat)
  have hdiv : (0 / Amount.ofNat l : Rat) = 0 := zero_div (l : Rat)
  have hmul : (0 * reward : Rat) = 0 := zero_mul reward
  simp only [atLevel, hsub, hdiv, ite_self]
  exact hmul

theorem Potential.get_ofLevels_self (L : Levels) (q : Nat) (reward : Rat) :
    (ofLevels L q reward).get q = 0 := by
  simp only [get, ofLevels, Std.ExtTreeMap.getElem?_map]
  cases hl : L.known[q]? with
  | none => rfl
  | some l =>
    have hlevel : L.level q = l := by simp [Levels.level, hl]
    simp [hlevel, atLevel_self]

/-! ## Paying by gains -/

section Gains

variable {S : Type} [Simulator S Rat] {good : S → Prop} {φ : S → Rat} {g bonus : Rat}

/-- From every good simulator a failed step changes nothing, and a successful one leaves a good
    simulator and pays the gain in the potential `φ`; the last step of an episode pays as if it
    ended in the potential zero, and the bonus if it ends in acceptance. -/
structure PaysGains (good : S → Prop) (φ : S → Rat) (g bonus : Rat) : Prop where
  refused : ∀ (s : S) I last e, (Simulator.step s I last).result = .error e →
    (Simulator.step s I last).state = s
  kept : ∀ (s : S) I last p, good s → (Simulator.step s I last).result = .ok p →
    good (Simulator.step s I last).state
  paid : ∀ (s : S) I last q x, good s → (Simulator.step s I last).result = .ok (q, x) →
    x = g * (if last then 0 else φ (Simulator.step s I last).state) - φ s +
      (if last then if Simulator.isTrue (Simulator.step s I last).state then bonus else 0 else 0)

/-- What the last stage of an episode with `n` stages before it brings, seen from the start: the
    bonus if it is the end and accepting, and the potential reached if the episode goes on. -/
def Stage.outcome (φ : S → Rat) (g bonus : Rat) (n : Nat) (e : Stage S Rat) : Rat :=
  if e.last then (if Simulator.isTrue e.simulator then g ^ n * bonus else 0)
  else g ^ (n + 1) * φ e.simulator

theorem Stage.outcome_succ (φ : S → Rat) (g bonus : Rat) (n : Nat) (e : Stage S Rat) :
    e.outcome φ g bonus (n + 1) = g * e.outcome φ g bonus n := by
  unfold Stage.outcome
  split_ifs <;> ring

/-- **Gains telescope**: the discounted sum of an episode is what its last stage brings, less the
    potential from which it started. -/
theorem PaysGains.discounted_stages (h : PaysGains good φ g bonus) {s : S} (hs : good s)
    {w : List (Fluents × Bool)} {es : List (Stage S Rat)} {e : Stage S Rat}
    (hw : Simulator.stages s w = es ++ [e]) (hes : ∀ d ∈ es, d.last = false) :
    discounted g ((es ++ [e]).map (·.reward)) = e.outcome φ g bonus es.length - φ s := by
  induction w generalizing s es with
  | nil => simp [Simulator.stages] at hw
  | cons m w ih =>
    obtain ⟨I, last⟩ := m
    cases hr : (Simulator.step s I last).result with
    | error err =>
      rw [Simulator.stages_of_error hr, h.refused s I last err hr] at hw
      exact ih hs hw hes
    | ok p =>
      obtain ⟨q, x⟩ := p
      have hx := h.paid s I last q x hs hr
      rw [Simulator.stages_of_ok hr] at hw
      cases es with
      | nil =>
        obtain ⟨rfl, -⟩ := List.cons_eq_cons.1 hw
        cases last with
        | false => simp [Stage.outcome, hx]
        | true =>
          simp [Stage.outcome, hx]
          ring
      | cons d es =>
        obtain ⟨rfl, hrest⟩ := List.cons_eq_cons.1 hw
        obtain rfl : last = false := hes _ List.mem_cons_self
        have hsum := ih (h.kept s I false _ hs hr) hrest
          fun d hd => hes d (List.mem_cons_of_mem _ hd)
        simp only [Bool.false_eq_true, if_false, add_zero] at hx
        rw [List.cons_append, List.map_cons, discounted_cons, hsum, hx, List.length_cons,
          Stage.outcome_succ]
        ring

end Gains

end GoalAutomata
