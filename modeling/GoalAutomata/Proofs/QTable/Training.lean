/-
  Training ends.

  Training and evaluation are episodes in a row, and each of them has at most `n` steps
  if the episodes of the environment end within so many.

  * `QTable.watch_andThen`: one episode and what follows it, seen by a watch;
  * `training_on_a_chain_ends`: tables on a chain with any layers of goals around it.
-/
import GoalAutomata.Proofs.Monitored.Episodes
import GoalAutomata.Proofs.QTable.Unbounded
import GoalAutomata.Proofs.XorShift

namespace GoalAutomata

open Environment

/-! ## Training under watch -/

namespace QTable

variable {E O A R G : Type} [Environment E O A R] [Numbered A] [Ord O] [Std.TransOrd O] [Amount R]
  [Generator G] [LawfulGenerator G] {n k : Nat} {t : QTable O R G} {w : Watched E A}

/-- One episode under watch, and what follows it. -/
theorem watch_andThen {α : Type} (h : w.InTime n) (hk : 0 < k) (ht : t.Sized k) (learning : Bool)
    {c : Nat} {next : R → QTable O R G × Watched E A → Outcome R (QTable O R G × Watched E A) α}
    {next' : R → QTable O R G × E → Outcome R (QTable O R G × E) α}
    (hnext : ∀ total, let p := (t.episode learning w).state
      (next total p).state.2.steps ≤ p.2.steps + n * c ∧
        (next total p).within unwatch = next' total (unwatch p)) :
    ((t.episode learning w).andThen next).state.2.steps ≤ w.steps + n * (c + 1) ∧
      ((t.episode learning w).andThen next).within unwatch =
        (t.episode learning w.environment).andThen next' := by
  have hsteps := (watch_episode h hk ht learning).2
  constructor
  · rw [Nat.mul_succ]
    refine Outcome.state_andThen_induction
      (P := fun p : QTable O R G × Watched E A => p.2.steps ≤ w.steps + (n * c + n)) (by omega)
      fun total _ => ?_
    have hrest := (hnext total).1
    omega
  · rw [← unwatch_episode h]
    exact Outcome.within_andThen fun total _ => (hnext total).2

/-- **Training under watch** takes at most `n` steps an episode, and is no other training. -/
theorem watch_trainFrom (h : w.InTime n) (hk : 0 < k) (ht : t.Sized k) (period c i : Nat)
    (past : List R) : (trainFrom period c i past t w).state.2.steps ≤ w.steps + n * c ∧
      (trainFrom period c i past t w).within unwatch =
        trainFrom period c i past t w.environment := by
  induction c generalizing i past t w with
  | zero => exact ⟨Nat.le_add_right _ _, rfl⟩
  | succ c ih =>
    refine watch_andThen h hk ht true fun total => ?_
    have ⟨hsteps, heq⟩ :=
      ih (watch_episode h hk ht true).1 (ht.episode true w) (i + 1) (total :: past)
    exact ⟨hsteps, congrArg (Outcome.after · (.episodeFinished i total ::
      report period (i + 1) (total :: past) (t.episode true w).state.1)) heq⟩

/-- **So does any number of episodes without learning.** -/
theorem watch_evaluate (h : w.InTime n) (hk : 0 < k) (ht : t.Sized k) (c : Nat) :
    (evaluate c t w).state.2.steps ≤ w.steps + n * c ∧
      (evaluate c t w).within unwatch = evaluate c t w.environment := by
  induction c generalizing t w with
  | zero => exact ⟨Nat.le_add_right _ _, rfl⟩
  | succ c ih =>
    refine watch_andThen h hk ht false fun total => ?_
    have ⟨hsteps, heq⟩ := ih (watch_episode h hk ht false).1 (ht.episode false w)
    exact ⟨hsteps, congrArg (Outcome.map (total :: ·)) heq⟩

end QTable

/-- **Training on a chain ends.**  Take a chain of `n` cells with any layers of goals around it, and
    a table that has a value for each of the three actions in every row, whatever these values are;
    all that can be reached are such tables.  An episode, with learning or without, is a reset and,
    unless it fails, at most `10 * n` steps, as a watch on the environment tells.  Their actions
    have codes below three, the last one ends the episode, and the answer is the sum of the rewards
    in their order, or the failure of the reset or of the last step.  So `k` episodes of training or
    of evaluation take at most `10 * n * k` steps, and with any lawful generator they take finitely
    many random words.  The bound of the watch may be any that leaves time for that, and without a
    watch everything is the same; without any bound at all an episode has this outcome and no
    other. -/
theorem training_on_a_chain_ends {R E O G : Type} [Amount R] [Ord O] [Std.TransOrd O]
    [Generator G] [LawfulGenerator G] [Environment E O ChainAction R] (n : Nat) (e : E)
    (he : OverChain n e) (t : QTable O R G) (ht : t.Sized 3) (bound : Nat)
    (hbound : 10 * n ≤ bound) :
    (∀ t' : QTable O R G, t'.Reachable 3 → t'.Sized 3) ∧
    let w : Watched E ChainAction := ⟨e, bound, []⟩
    (∀ learning, ∃ codes : List Nat,
      (t.episode learning w).state.2.calls =
        .reset :: codes.map (fun c => .step (ChainAction.ofCode c)) ∧
      (∀ x, (reset e).result = .error x →
        codes = [] ∧ (t.episode learning w).result = .error x) ∧
      (∀ o, (reset e).result = .ok o → Playthrough 3 (10 * n) (reset e).state codes ∧
        Returns 0 (rollout (reset e).state (codes.map ChainAction.ofCode))
          (t.episode learning w).result) ∧
      (∃ m, (t.episode learning w).state.1.generator = Generator.skip m t.generator) ∧
      (t.episode learning w).within QTable.unwatch = t.episode learning e ∧
      ∀ r, QTable.PlaysEpisode learning t e r ↔ r = t.episode learning e) ∧
    (∀ k, (t.train k w).state.2.steps ≤ 10 * n * k ∧
      (∃ m, (t.train k w).state.1.generator = Generator.skip m t.generator) ∧
      (t.train k w).within QTable.unwatch = t.train k e) ∧
    ∀ k, (t.evaluate k w).state.2.steps ≤ 10 * n * k ∧
      (∃ m, (t.evaluate k w).state.1.generator = Generator.skip m t.generator) ∧
      (t.evaluate k w).within QTable.unwatch = t.evaluate k e := by
  have h : Watched.InTime (10 * n) (⟨e, bound, []⟩ : Watched E ChainAction) := ⟨he.timely, hbound⟩
  have hnone : (⟨e, bound, []⟩ : Watched E ChainAction).steps = 0 := rfl
  have hsince : t.Since 3 t.generator := ⟨ht, 0, rfl⟩
  refine ⟨fun t' ht' => ht'.sized, fun learning => ?_, fun k => ?_, fun k => ?_⟩
  · obtain ⟨codes, -, hafter, herror, hok⟩ := t.exists_episode (by decide) ht h.timely learning
    refine ⟨codes, ?_, herror, fun o ho => ?_,
      (hsince.episode (by decide) learning _).generator, QTable.unwatch_episode h learning,
      fun r => QTable.playsEpisode_iff he.timely⟩
    · rw [hafter, Watched.after_eq]
      rfl
    · obtain ⟨hplay, hreturns⟩ := hok o ho
      rw [Watched.rollout_eq] at hreturns
      exact ⟨hplay.unwatch, hreturns⟩
  · have ⟨hsteps, heq⟩ := QTable.watch_trainFrom h (by decide) ht (max (k / 10) 1) k 0 []
    rw [hnone, Nat.zero_add] at hsteps
    exact ⟨hsteps, (hsince.trainFrom (by decide) _ k 0 [] _).generator, heq⟩
  · have ⟨hsteps, heq⟩ := QTable.watch_evaluate h (by decide) ht k
    rw [hnone, Nat.zero_add] at hsteps
    exact ⟨hsteps, (hsince.evaluate (by decide) k _).generator, heq⟩

/-- Two episodes of training on three cells, with a layer of two goals, take at most sixty steps. -/
theorem two_episodes_of_training :
    let g : Goal (CompleteSimulator Rat) (StatelessGate ListedTest) :=
      .ofAutomaton Dfa.twoSteps.toAutomaton 3 .sparse
    let m : Monitored (ChainEnvironment Rat) (CompleteSimulator Rat) (StatelessGate ListedTest)
        CellSensor Nat (Nat × List Nat) := {
      environment := ⟨{ cells := 3, position := 0, position_lt := by decide }⟩
      goals := [g, g]
      sensor := { tellsReading := true }
      combine := Prod.mk }
    let t : QTable (Nat × List Nat) Rat XorShift := .new 3 ⟨1 / 2, 1 / 10, 9 / 10⟩ 7
    OverChain 3 m ∧ t.Sized 3 ∧ 30 ≤ 30 ∧
      (t.train 2 (⟨m, 30, []⟩ : Watched _ ChainAction)).state.2.steps ≤ 60 := by
  intro g m t
  have hm : OverChain 3 m := .layer m (.chain _ rfl)
  have ht : t.Sized 3 := (QTable.Reachable.new _ _).sized
  exact ⟨hm, ht, le_rfl,
    ((training_on_a_chain_ends 3 m hm t ht 30 le_rfl).2.2.1 2).1⟩

end GoalAutomata
