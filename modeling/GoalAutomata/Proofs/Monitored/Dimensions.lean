/-
  Observations stay within the declared dimensions.

  A goal on a chain is over a table or over an unfolding (`Target`), and its simulator
  follows that whatever it is called (`Target.Follows`).  Its number of states never
  changes: that of a table is fixed, and for an unfolding room is declared from the
  start.  A table may report its sink, an unfolding has no room for one and never does
  (`Target.Admits`).

  * `Monitored.exists_reply`: a reply tells the states in which the goals are;
  * `observations_fit_dimensions`: what this means for runs.
-/
import Mathlib.Algebra.Order.Field.Rat
import GoalAutomata.Proofs.Dfa.Verdicts
import GoalAutomata.Proofs.Environment.Chain
import GoalAutomata.Proofs.Goal.Returns
import GoalAutomata.Proofs.Mixed
import GoalAutomata.Proofs.Monitored.Calls

namespace GoalAutomata

/-! ## Targets -/

/-- What a goal is over, with what it pays. -/
inductive Target {ι : Type} (C : ι → Type) (R : Type) where
  | table (d : Dfa) (reward : R) (shaping : Shaping R)
  | unfolding (i : ι) (O : Unfolding (C i)) (reward : R) (config : Exploration R)

namespace Target

variable {ι R K : Type} {C : ι → Type}

/-- The number of states, without the sink: room for an unfolding is at least for one. -/
def width : Target C R → Nat
  | table d _ _ => d.size
  | unfolding _ _ _ config => max 1 config.maxStates

/-- The number of states with the sink. -/
def dimension (t : Target C R) : Nat := t.width + 1

/-- The states that may be reported: the sink of a table, but not that of an unfolding. -/
def Admits : Target C R → Nat → Prop
  | t@(table _ _ _), q => q ≤ t.width
  | t@(unfolding _ _ _ _), q => q < t.width

theorem Admits.lt_dimension {t : Target C R} {q : Nat} (h : t.Admits q) : q < t.dimension := by
  cases t with
  | table d reward shaping => exact Nat.lt_succ_of_le h
  | unfolding i O reward config => exact Nat.lt_succ_of_lt h

/-- What drives a goal over a target. -/
abbrev Driver (C : ι → Type) (R : Type) : Type :=
  CompleteSimulator R ⊕ Σ i, ExploringSimulator (C i) R

variable [Amount R]

/-- An unstarted simulator. -/
def simulator : Target C R → Driver C R
  | table d reward shaping => .inl (.new d.toAutomaton reward shaping)
  | unfolding i O reward config => .inr ⟨i, .new O reward config⟩

variable [∀ i, DecidableEq (C i)]

/-- The simulator is one of the target, at some time of a run. -/
inductive Follows : Target C R → Driver C R → Prop
  | table {d : Dfa} {reward : R} {shaping : Shaping R} {S : CompleteSimulator R}
      (h : S.Drives d reward) : Follows (table d reward shaping) (.inl S)
  | unfolding {i : ι} {O : Unfolding (C i)} {reward : R} {config : Exploration R}
      {S : ExploringSimulator (C i) R} (h : S.Explores O reward config) :
      Follows (unfolding i O reward config) (.inr ⟨i, S⟩)

variable {t : Target C R} {s : Driver C R}

theorem follows_simulator (t : Target C R) (name : String) :
    t.Follows (Simulator.rename name t.simulator) := by
  cases t with
  | table d reward shaping => exact .table ⟨rfl, nofun⟩
  | unfolding i O reward config =>
    have h := ExploringSimulator.explores_new O reward config
    exact .unfolding { h with }

namespace Follows

theorem reset (h : t.Follows s) : t.Follows (Simulator.reset s).1 := by
  cases h with
  | table h => exact .table h.reset
  | unfolding h => exact .unfolding h.reset

theorem step (h : t.Follows s) (I : Fluents) (last : Bool) :
    t.Follows (Simulator.step s I last).state := by
  cases h with
  | table h => exact .table (h.step I last)
  | unfolding h => exact .unfolding (h.step I last)

theorem width (h : t.Follows s) : Simulator.width s = t.width := by
  cases h with
  | @table d reward shaping S h =>
    change S.machine.automaton.sink = d.size
    rw [h.machine]
    rfl
  | @unfolding i O reward config S h => exact h.capacity.trans (max_comm _ _)

/-- **Only admitted states are reported.** -/
theorem admits (h : t.Follows s) {q : Nat} (hq : Simulator.state? s = some q) : t.Admits q := by
  cases h with
  | table h => exact h.bounded q hq
  | @unfolding i O reward config S h =>
    -- a position is known, and there is room for all that is known
    obtain ⟨⟨q, c⟩, hp, rfl⟩ := Option.map_eq_some_iff.1 hq
    calc q
      _ < S.graph.size := (List.getElem?_eq_some_iff.1 (h.position q c hp)).1
      _ ≤ S.graph.capacity := h.faithful.size_le
      _ = max 1 config.maxStates := h.capacity.trans (max_comm _ _)

theorem after [Gate K R] {g : Goal (Driver C R) K} (h : t.Follows g.simulator) (cs : List Call) :
    t.Follows (Simulator.after g cs).simulator := by
  refine Simulator.after_induction (P := fun g : Goal (Driver C R) K => t.Follows g.simulator) h
    (fun _ hg => hg.reset) (fun g I last hg => ?_) cs
  change t.Follows (g.step I last).state.simulator
  rcases g.simulator_cases I last with hs | ⟨-, hs⟩
  · rwa [hs]
  · rw [hs]
    exact hg.step I last

end Follows

end Target

/-! ## Goals -/

section Goals

variable {S K O T A E X R : Type} [Amount R] [Simulator S R] [Gate K R]

/-- What every goal keeps however it is called, the goals keep when they are called apart. -/
theorem forall₂_alone {α : Type} {P : α → Goal S K → Prop}
    (hP : ∀ a g cs, P a g → P a (Simulator.after g cs)) {as : List α} {gs : List (Goal S K)}
    (h : List.Forall₂ P as gs) (f : Nat → List Call) : List.Forall₂ P as (alone gs f) := by
  induction h generalizing f with
  | nil => exact .nil
  | cons hag _ ih =>
    rw [alone_cons]
    exact .cons (hP _ _ (f 0) hag) (ih _)

/-- The observation of a reply. -/
def Reply.observation : Reply O R → O
  | started o => o
  | stepped s => s.observation

/-- Goals are at the states that a tick of all of them answers. -/
theorem map_state?_alone (hS : Simulator.Truthful S) {gs : List (Goal S K)} {last : Bool}
    {read : List Fluents} {ps : List (Nat × R)}
    (h : gs.mapIdx (fun i g => Simulator.answers g (tickCalls last read i)) =
      ps.map fun p => [.stepped (.ok p)]) :
    (alone gs (tickCalls last read)).map Simulator.state? = (ps.map (·.1)).map some := by
  induction gs generalizing read ps with
  | nil =>
    obtain rfl : ps = [] := List.map_eq_nil_iff.1 h.symm
    rfl
  | cons g gs ih =>
    obtain ⟨I, Is, p, qs, rfl, rfl, hp, hrest⟩ := exists_of_answered_cons h
    have hhead : Simulator.state? (g.step I last).state = some p.1 :=
      Goal.truthful hS K g I last p.1 p.2 hp
    simp only [alone_cons, tickCalls_zero, tickCalls_succ, List.map_cons, ih hrest]
    exact congrArg (· :: _) hhead

/-- **A reply joins what the environment replies with the states in which the goals are then.** -/
theorem Monitored.exists_reply [Environment E O A R] [Sensor X O A] (hS : Simulator.Truthful S)
    {m : Monitored E S K X O T} {c : Act A} {y : Reply T R}
    (h : (Environment.call m c).result = .ok y) :
    ∃ y' qs, (Environment.call m.environment c).result = .ok y' ∧
      y.observation = m.combine y'.observation qs ∧
      (Environment.call m c).state.goals.map Simulator.state? = qs.map some := by
  cases c with
  | reset =>
    obtain ⟨t, ht, rfl⟩ := Outcome.exists_of_map_ok h
    obtain ⟨o, Is, x, ho, -, hstate, ⟨qs, hy, hqs⟩, -⟩ := reset_ok ht
    cases hy
    refine ⟨.started o, qs, congrArg (Reply.started <$> ·) ho, rfl, ?_⟩
    change m.reset.state.goals.map Simulator.state? = _
    rw [hstate, hqs]
  | step a =>
    obtain ⟨t, ht, rfl⟩ := Outcome.exists_of_map_ok h
    obtain ⟨s, Is, x, hs, -, hstate, ps, hy, hps⟩ := step_ok ht
    cases hy
    refine ⟨.stepped s, ps.map (·.1), congrArg (Reply.stepped <$> ·) hs, rfl, ?_⟩
    change (m.step a).state.goals.map Simulator.state? = _
    rw [hstate]
    exact map_state?_alone hS hps

end Goals

namespace ChainEnvironment

variable {R : Type} [Amount R]

/-- The walker is always on a cell. -/
theorem observation_lt {e : ChainEnvironment R} {c : Act ChainAction} {y : Reply Nat R}
    (h : (Environment.call e c).result = .ok y) : y.observation < e.chain.cells := by
  cases c with
  | reset =>
    cases h
    exact Nat.zero_lt_of_lt e.chain.position_lt
  | step a =>
    cases h
    exact e.chain.hold_lt _

end ChainEnvironment

/-! ## Goals over targets -/

section Targets

variable {ι K X R : Type} {C : ι → Type} [∀ i, DecidableEq (C i)] [Amount R]
  {ts : List (Goal (Target C R) K)} {gs : List (Goal (Target.Driver C R) K)}

/-- A chain with goals over the given targets. -/
def Target.monitored (e : ChainEnvironment R) (ts : List (Goal (Target C R) K)) (x : X)
    (observeReset : Bool) :
    Monitored (ChainEnvironment R) (Driver C R) K X Nat (Nat × List Nat) where
  environment := e
  goals := ts.map fun t => (t.embed Target.simulator id).rename t.name
  sensor := x
  combine := Prod.mk
  observeReset := observeReset

/-- Every goal follows its target. -/
def Target.FollowsAll (ts : List (Goal (Target C R) K)) (gs : List (Goal (Driver C R) K)) : Prop :=
  List.Forall₂ (fun t g => t.simulator.Follows g.simulator) ts gs

namespace Target.FollowsAll

theorem monitored (e : ChainEnvironment R) (ts : List (Goal (Target C R) K)) (x : X)
    (observeReset : Bool) : FollowsAll ts (Target.monitored e ts x observeReset).goals :=
  List.forall₂_map_right_iff.2 (List.forall₂_same.2 fun t _ => t.simulator.follows_simulator t.name)

theorem alone [Gate K R] (h : FollowsAll ts gs) (f : Nat → List Call) :
    FollowsAll ts (alone gs f) :=
  forall₂_alone (fun _ _ cs hg => hg.after cs) h f

theorem dims (h : FollowsAll ts gs) :
    gs.flatMap (·.space.dims) = ts.map (·.simulator.dimension) := by
  induction h with
  | nil => rfl
  | cons htg _ ih =>
    rw [List.flatMap_cons, List.map_cons, ih, Goal.space, htg.width]
    rfl

theorem admits [Gate K R] (h : FollowsAll ts gs) {qs : List Nat}
    (hqs : gs.map Simulator.state? = qs.map some) :
    List.Forall₂ (fun t q => q < t.simulator.dimension ∧ t.simulator.Admits q) ts qs := by
  induction h generalizing qs with
  | nil =>
    obtain rfl : qs = [] := List.map_eq_nil_iff.1 hqs.symm
    exact .nil
  | cons htg _ ih =>
    obtain ⟨q, qs, rfl, hq, hrest⟩ := List.map_eq_cons_iff.1 hqs.symm
    have hadmits := htg.admits hq.symm
    exact .cons ⟨hadmits.lt_dimension, hadmits⟩ (ih hrest.symm)

end Target.FollowsAll

/-- **Observations always fit the declared dimensions.**  Let a walker on a chain have goals over
    tables and unfoldings, behind any gates and with any sensor.  The space that is declared has
    the cells, and for each goal its states with the sink; for an unfolding these are as many as
    there is room for from the start, at least one.  No call changes it, whether or not it fails.
    After any calls, one that succeeds answers a cell and for each goal a state below its dimension,
    which is never the sink of an unfolding. -/
theorem observations_fit_dimensions [Gate K R] [Sensor X Nat ChainAction] (e : ChainEnvironment R)
    (ts : List (Goal (Target C R) K)) (x : X) (observeReset : Bool) (cs : List (Act ChainAction)) :
    let m := Target.monitored e ts x observeReset
    let m' := Environment.after m cs
    Environment.observations m = .multi (e.chain.cells :: ts.map (·.simulator.dimension)) ∧
    Environment.observations m' = Environment.observations m ∧
    ∀ c y, (Environment.call m' c).result = .ok y → ∃ o qs, y.observation = (o, qs) ∧
      o < e.chain.cells ∧
      List.Forall₂ (fun t q => q < t.simulator.dimension ∧ t.simulator.Admits q) ts qs := by
  intro m m'
  have hstart := Target.FollowsAll.monitored e ts x observeReset
  obtain ⟨z, f, hafter, -⟩ := Monitored.exists_after m cs
  have hcells : m'.environment.chain.cells = e.chain.cells :=
    (congrArg (·.environment.chain.cells) hafter).trans (e.cells_after cs)
  have hgoals : Target.FollowsAll ts m'.goals := by
    have hm' : m'.goals = GoalAutomata.alone m.goals f := congrArg (·.goals) hafter
    rw [hm']
    exact hstart.alone f
  have hspace : Environment.observations m =
      .multi (e.chain.cells :: ts.map (·.simulator.dimension)) :=
    congrArg (fun ds => Space.multi (e.chain.cells :: ds)) hstart.dims
  refine ⟨hspace, ?_, fun c y hy => ?_⟩
  · rw [hspace, ← hgoals.dims, ← hcells]
    rfl
  · obtain ⟨y', qs, hy', hobs, hqs⟩ := Monitored.exists_reply (.mixed C R) hy
    obtain ⟨x', f', hcall, -⟩ := Monitored.exists_state_call m' c
    have hgoals' : Target.FollowsAll ts (Environment.call m' c).state.goals := by
      rw [hcall]
      exact hgoals.alone f'
    have hcombine : m'.combine = Prod.mk := congrArg (·.combine) hafter
    rw [hcombine] at hobs
    exact ⟨_, qs, hobs, hcells ▸ ChainEnvironment.observation_lt hy', hgoals'.admits hqs⟩

end Targets

/-- A table beside an unfolding with room for two states, which the second step would leave: it
    fails, and the reset after it answers states that are admitted. -/
theorem full_unfolding_fits :
    let ts : List (Goal (Target (fun _ : Unit => Nat) Rat) (StatelessGate ListedTest)) := [
      { simulator := .table .twoSteps 3 .sparse, gate := .always },
      { simulator := .unfolding () (.counting 5) 3 { Exploration.standard with maxStates := 2 }
        gate := .always }]
    let m := Target.monitored ⟨{ cells := 3, position := 0, position_lt := by decide }⟩ ts
      (fun (_ : Nat) (_ : Option ChainAction) => (∅ : Fluents)) false
    let m' := Environment.after m [.reset, .step .right, .step .right]
    (Environment.call m' (.step .right)).result = .error (.graphFull 2) ∧
    ∃ o qs, (Environment.call m' .reset).result = .ok (.started (o, qs)) ∧ o < 3 ∧
      List.Forall₂ (fun t q => q < t.simulator.dimension ∧ t.simulator.Admits q) ts qs := by
  intro ts m m'
  have hreset : (Environment.call m' .reset).result = .ok (.started (0, [0, 0])) := rfl
  obtain ⟨o, qs, hobs, ho, hqs⟩ := (observations_fit_dimensions _ ts _ false
    [.reset, .step .right, .step .right]).2.2 .reset _ hreset
  cases hobs
  exact ⟨rfl, 0, [0, 0], hreset, ho, hqs⟩

end GoalAutomata
