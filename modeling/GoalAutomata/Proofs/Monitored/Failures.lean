/-
  What a failed call of a monitored environment leaves behind.

  The goals take their ticks in order, each on a reading of its own, up to the first
  that fails: because the sensor fails, or because the goal does.  Which one that is
  and why is `Monitored.FailsAt`.  It tells how often the sensor has been read, which
  goals have ticked, and what the call answers.

  A reset sends all goals to their start before the first of them ticks.  So the one
  that fails is there as well: a step that fails does not move the simulator, even
  where its gate has gone on (`Simulator.Restarts`).

  * `Monitored.tickAll_eq_error_iff`, `FailsAt.state_tickAll`: a tick of all goals;
  * `Monitored.step_eq_error_iff`, `reset_eq_error_iff`: which calls fail;
  * `failed_calls_halt_at_one_goal`: what is left of them, and of a later reset.
-/
import Mathlib.Algebra.Order.Field.Rat
import GoalAutomata.Proofs.Monitored.Dimensions

namespace GoalAutomata

variable {E S K X O T A R : Type}

/-! ## Simulators -/

/-- A reset leads to the initial state, which stays what it is, and a step that fails stays where it
    started. -/
structure Simulator.Restarts (S : Type) {R : Type} [Simulator S R] : Prop where
  state?_reset (s : S) : state? (reset s).1 = some (automaton s).initial
  initial_call (s : S) (c : Call) : (automaton (call s c).1).initial = (automaton s).initial
  state?_refused (s : S) (I : Fluents) (last : Bool) (e : Error) :
    (step s I last).result = .error e → state? (step s I last).state = state? s

namespace Simulator.Restarts

variable {U ι : Type} [Simulator S R] [Simulator U R]

theorem sum (hS : Restarts S) (hU : Restarts U) : Restarts (S ⊕ U) where
  state?_reset
    | .inl s => hS.state?_reset s
    | .inr u => hU.state?_reset u
  initial_call
    | .inl s, .reset => hS.initial_call s .reset
    | .inl s, .step I last => hS.initial_call s (.step I last)
    | .inr u, .reset => hU.initial_call u .reset
    | .inr u, .step I last => hU.initial_call u (.step I last)
  state?_refused
    | .inl s => hS.state?_refused s
    | .inr u => hU.state?_refused u

theorem sigma {V : ι → Type} [∀ i, Simulator (V i) R] (h : ∀ i, Restarts (V i)) :
    Restarts (Σ i, V i) where
  state?_reset s := (h s.1).state?_reset s.2
  initial_call
    | s, .reset => (h s.1).initial_call s.2 .reset
    | s, .step I last => (h s.1).initial_call s.2 (.step I last)
  state?_refused s := (h s.1).state?_refused s.2

theorem initial_after (h : Restarts S) (s : S) (cs : List Call) :
    (automaton (after s cs)).initial = (automaton s).initial := by
  induction cs generalizing s with
  | nil => rfl
  | cons c cs ih => rw [after_cons, ih, h.initial_call]

theorem complete (R : Type) [Amount R] : Restarts (CompleteSimulator R) where
  state?_reset _ := rfl
  initial_call
    | _, .reset => rfl
    | S, .step I last => by
      change (S.step I last).state.machine.automaton.initial = S.machine.automaton.initial
      rcases S.state_cases I last with hs | ⟨_, hs⟩
      all_goals rw [hs]
  state?_refused _ _ _ _ h := congrArg CompleteSimulator.state? (CompleteSimulator.state_of_error h)

/-- A known graph starts at its first state, however it has grown. -/
theorem exploring (C R : Type) [Amount R] [DecidableEq C] :
    Restarts (ExploringSimulator C R) where
  state?_reset _ := rfl
  initial_call _ _ := rfl
  state?_refused _ _ _ _ h := congrArg Simulator.state? (ExploringSimulator.state_of_error h)

/-- A goal stays where it is also if its gate has gone on. -/
theorem goal [Amount R] [Gate K R] (h : Restarts S) : Restarts (Goal S K) where
  state?_reset g := h.state?_reset g.simulator
  initial_call
    | g, .reset => h.initial_call g.simulator .reset
    | g, .step I last => by
      change (automaton (g.step I last).state.simulator).initial = (automaton g.simulator).initial
      rcases g.simulator_cases I last with hs | ⟨-, hs⟩
      · rw [hs]
      · rw [hs]
        exact h.initial_call g.simulator (.step I last)
  state?_refused g I last e he := by
    change state? (g.step I last).state.simulator = state? g.simulator
    rcases g.simulator_cases I last with hs | ⟨hr, hs⟩
    · rw [hs]
    · rw [hs]
      exact h.state?_refused g.simulator I last e (hr.symm.trans he)

end Simulator.Restarts

/-! ## Readings -/

namespace Sensor

variable [Sensor X O A] {o : O} {a? : Option A} {x y : X} {n i : Nat} {Is : List Fluents}
  {I : Fluents}

/-- In a row without failures the readings are those that are listed. -/
theorem reading_of_readings? (h : readings? o a? n x = some (Is, y)) (hI : Is[i]? = some I) :
    reading o a? x i = .ok I := by
  induction n generalizing x Is i with
  | zero =>
    cases h
    cases hI
  | succ n ih =>
    unfold readings? at h
    split at h
    · cases h
    · next J z hread =>
      obtain ⟨⟨Js, y'⟩, hrest, heq⟩ := Option.map_eq_some_iff.1 h
      cases heq
      cases i with
      | zero =>
        cases hI
        exact congrArg Prod.fst hread
      | succ i =>
        have hlater : reading o a? x (i + 1) = reading o a? (read x o a?).2 i := rfl
        rw [hlater, hread]
        exact ih hrest hI

end Sensor

namespace Monitored

variable [Amount R] [Simulator S R] [Gate K R] [Sensor X O A]

/-! ## Ticks -/

section Tick

variable (o : O) (a? : Option A) (last : Bool) (x : X)

/-- Goals of which the first `n` have had their readings. -/
def ticked (gs : List (Goal S K)) (n : Nat) : List (Goal S K) :=
  gs.mapIdx fun j g => if j < n then onReading last g (Sensor.reading o a? x j) else g

/-- A tick of all goals fails with `e` at the goal with number `i`: those before it get their
    readings and tick, and it gets none, or gets one and fails to tick. -/
structure FailsAt (gs : List (Goal S K)) (e : Error) (i : Nat) : Prop where
  before : ∀ j < i, ∃ g I p, gs[j]? = some g ∧ Sensor.reading o a? x j = .ok I ∧
    (g.step I last).result = .ok p
  here : ∃ g, gs[i]? = some g ∧
    ((∃ cause, Sensor.reading o a? x i = .error cause ∧ e = .sensorFailed cause) ∨
      ∃ I, Sensor.reading o a? x i = .ok I ∧ (g.step I last).result = .error e)

variable {o a? last x} {g h : Goal S K} {gs : List (Goal S K)} {e : Error} {i j : Nat}

theorem ticked_cons {n : Nat} : ticked o a? last x (g :: gs) (n + 1) =
    onReading last g (Sensor.reading o a? x 0) ::
      ticked o a? last (Sensor.read x o a?).2 gs n := by
  simp only [ticked, List.mapIdx_cons, Nat.add_lt_add_iff_right, Nat.zero_lt_succ, if_true]
  rfl

@[simp] theorem ticked_zero : ticked o a? last x gs 0 = gs := by
  simp [ticked, List.mapIdx_eq_iff]

theorem getElem?_ticked {n : Nat} : (ticked o a? last x gs n)[j]? = gs[j]?.map fun g =>
    if j < n then onReading last g (Sensor.reading o a? x j) else g :=
  List.getElem?_mapIdx

/-- **A tick fails where the sensor does, and where the goal does.** -/
theorem tick_eq_error_iff : (tick o a? last x g).result = .error e ↔
    (∃ cause, Sensor.reading o a? x 0 = .error cause ∧ e = .sensorFailed cause) ∨
      ∃ I, Sensor.reading o a? x 0 = .ok I ∧ (g.step I last).result = .error e := by
  have hzero : Sensor.reading o a? x 0 = (Sensor.read x o a?).1 := rfl
  unfold tick
  split
  · next cause y hread => simp [hzero, hread, Outcome.failed, eq_comm]
  · next I y hread =>
    rw [hzero, hread, Outcome.result_within]
    cases hr : (g.step I last).result with
    | error e' => simp [(Outcome.andThen_of_error hr).1, hr]
    | ok p => simp [(Outcome.andThen_of_ok hr).1, hr, Outcome.done]

theorem exists_tick_ok_iff : (∃ p, (tick o a? last x g).result = .ok p) ↔
    ∃ I p, Sensor.reading o a? x 0 = .ok I ∧ (g.step I last).result = .ok p := by
  constructor
  · rintro ⟨p, hp⟩
    obtain ⟨I, y, hread, hstep, -⟩ := tick_ok hp
    exact ⟨I, p, congrArg Prod.fst hread, hstep⟩
  · rintro ⟨I, p, hread, hstep⟩
    cases ht : (tick o a? last x g).result with
    | ok q => exact ⟨q, rfl⟩
    | error e =>
      rcases tick_eq_error_iff.1 ht with ⟨cause, hno, -⟩ | ⟨J, hJ, hno⟩
      · cases hno.symm.trans hread
      · cases hJ.symm.trans hread
        cases hno.symm.trans hstep

/-! ## Ticks of all goals -/

theorem not_failsAt_nil : ¬ FailsAt o a? last x ([] : List (Goal S K)) e i := fun h => by
  obtain ⟨g, hg, -⟩ := h.here
  cases hg

/-- The first goal fails. -/
theorem failsAt_zero_iff : FailsAt o a? last x (g :: gs) e 0 ↔
    (tick o a? last x g).result = .error e := by
  rw [tick_eq_error_iff]
  constructor
  · rintro ⟨-, h, hh, hfail⟩
    cases hh
    exact hfail
  · exact fun hfail => ⟨fun _ hj => absurd hj (Nat.not_lt_zero _), g, rfl, hfail⟩

/-- Another goal fails: the first one ticks, and the others start from the sensor that it leaves. -/
theorem failsAt_succ_iff : FailsAt o a? last x (g :: gs) e (i + 1) ↔
    (∃ p, (tick o a? last x g).result = .ok p) ∧
      FailsAt o a? last (Sensor.read x o a?).2 gs e i := by
  rw [exists_tick_ok_iff]
  constructor
  · rintro ⟨hbefore, hhere⟩
    obtain ⟨h, I, p, hh, hread, hstep⟩ := hbefore 0 (Nat.succ_pos i)
    cases hh
    exact ⟨⟨I, p, hread, hstep⟩, fun j hj => hbefore (j + 1) (Nat.succ_lt_succ hj), hhere⟩
  · rintro ⟨⟨I, p, hread, hstep⟩, hbefore, hhere⟩
    refine ⟨fun j hj => ?_, hhere⟩
    cases j with
    | zero => exact ⟨g, I, p, rfl, hread, hstep⟩
    | succ j => exact hbefore j (Nat.lt_of_succ_lt_succ hj)

/-- **A tick of all goals fails at one of them.** -/
theorem tickAll_eq_error_iff :
    (tickAll o a? last x gs).result = .error e ↔ ∃ i, FailsAt o a? last x gs e i := by
  induction gs generalizing x with
  | nil => exact iff_of_false nofun fun ⟨_, h⟩ => not_failsAt_nil h
  | cons g gs ih =>
    rw [← Nat.or_exists_add_one]
    simp only [failsAt_zero_iff, failsAt_succ_iff]
    cases ht : (tick o a? last x g).result with
    | error e' => simp [(tickAll_cons_of_error ht).1]
    | ok p =>
      rw [(tickAll_cons_of_ok ht).1]
      cases hrest : (tickAll o a? last (Sensor.read x o a?).2 gs).result with
      | error e' => simp [← ih, hrest]
      | ok ps => simp [← ih, hrest]

/-- **What a tick of all goals leaves if it fails at one**: it has been read for this one and those
    before it, and those after it are as they were. -/
theorem FailsAt.state_tickAll (h : FailsAt o a? last x gs e i) : (tickAll o a? last x gs).state =
    (Sensor.afterReadings o a? (i + 1) x, ticked o a? last x gs (i + 1)) := by
  induction gs generalizing x i with
  | nil => exact absurd h not_failsAt_nil
  | cons g gs ih =>
    rw [ticked_cons]
    cases i with
    | zero =>
      rw [(tickAll_cons_of_error (failsAt_zero_iff.1 h)).2, state_tick, ticked_zero]
      rfl
    | succ i =>
      obtain ⟨⟨p, hp⟩, hrest⟩ := failsAt_succ_iff.1 h
      rw [(tickAll_cons_of_ok hp).2, ih hrest, state_tick]
      rfl

/-- From the one that fails on, the goals are where they were. -/
theorem FailsAt.state?_ticked (hS : Simulator.Restarts S) (h : FailsAt o a? last x gs e i)
    (hij : i ≤ j) (hg : gs[j]? = some g) : ∃ g', (ticked o a? last x gs (i + 1))[j]? = some g' ∧
      Simulator.state? g' = Simulator.state? g := by
  rw [getElem?_ticked, hg, Option.map_some]
  refine ⟨_, rfl, ?_⟩
  split_ifs with hlt
  · obtain rfl : i = j := Nat.le_antisymm hij (Nat.lt_succ_iff.1 hlt)
    obtain ⟨g', hg', ⟨cause, hread, -⟩ | ⟨I, hread, hfail⟩⟩ := h.here
    · rw [hread]
      rfl
    · cases hg'.symm.trans hg
      rw [hread]
      exact hS.goal.state?_refused g I last e hfail
  · rfl

end Tick

/-! ## Calls -/

section Calls

variable {m : Monitored E S K X O T} {o : O} {a : A} {e : Error} {i : Nat}

theorem observe_eq_error_iff {a? : Option A} {last : Bool} :
    (m.observe o a? last).result = .error e ↔
      ∃ i, FailsAt o a? last m.sensor m.goals e i :=
  tickAll_eq_error_iff

theorem FailsAt.state_observe {a? : Option A} {last : Bool}
    (h : FailsAt o a? last m.sensor m.goals e i) : (m.observe o a? last).state = { m with
      sensor := Sensor.afterReadings o a? (i + 1) m.sensor
      goals := ticked o a? last m.sensor m.goals (i + 1) } :=
  congrArg (fun s => { m with sensor := s.1, goals := s.2 }) h.state_tickAll

/-- States are joined once every goal has one. -/
theorem exists_join {qs : List Nat} (h : m.goals.map Simulator.state? = qs.map some) (o : O) :
    ∃ t, (m.join o).result = .ok t := by
  have hstates : m.states? = some qs := mapM_eq_some_iff.2 h
  exact ⟨m.combine o qs, by rw [join, hstates]; rfl⟩

/-- **What is left of a reset fails only at a goal**, and only if it is observed. -/
theorem settle_eq_error_iff (hS : Simulator.Truthful S) {qs : List Nat}
    (h : m.goals.map Simulator.state? = qs.map some) :
    (m.settle (A := A) o).result = .error e ↔ m.observeReset = true ∧
      ∃ i, FailsAt o (none : Option A) false m.sensor m.goals e i := by
  unfold settle
  split_ifs with hobs
  · rw [← observe_eq_error_iff]
    cases hres : (m.observe o (none : Option A) false).result with
    | error e' => simp [(Outcome.andThen_of_error hres).1, hobs]
    | ok ps =>
      obtain ⟨Is, y, -, hstate, hanswers⟩ := observe_ok hres
      obtain ⟨t, ht⟩ := exists_join
        (m := { m with sensor := y, goals := alone m.goals (tickCalls false Is) })
        (map_state?_alone hS hanswers) o
      rw [(Outcome.andThen_of_ok hres).1, hstate, ht]
      exact iff_of_false nofun fun h => nomatch h.2
  · obtain ⟨t, ht⟩ := exists_join h o
    rw [ht]
    exact iff_of_false nofun fun h => hobs h.1

theorem map_state?_start (hR : Simulator.Restarts S) :
    m.start.goals.map Simulator.state? =
      (m.goals.map fun g => (Simulator.automaton g).initial).map some := by
  simp only [start, List.map_map]
  exact List.map_congr_left fun g _ => hR.goal.state?_reset g

/-- At a goal that fails, nothing is left of a reset to be done. -/
theorem FailsAt.state_settle (h : FailsAt o (none : Option A) false m.sensor m.goals e i)
    (hobs : m.observeReset = true) : (m.settle (A := A) o).state = { m with
      sensor := Sensor.afterReadings o (none : Option A) (i + 1) m.sensor
      goals := ticked o (none : Option A) false m.sensor m.goals (i + 1) } := by
  rw [settle, if_pos hobs, Outcome.state_andThen_of_keeps _ fun _ m => state_join m o,
    h.state_observe]

variable [Environment E O A R]

/-- **A step fails at the environment or at a goal.** -/
theorem step_eq_error_iff : (m.step a).result = .error e ↔
    (Environment.step m.environment a).result = .error e ∨
      ∃ s i, (Environment.step m.environment a).result = .ok s ∧
        FailsAt s.observation (some a) s.done m.sensor m.goals e i := by
  cases hs : (Environment.step m.environment a).result with
  | error e' => simp [(step_of_error hs).1]
  | ok s =>
    have hobserve : ((m.turn (.step a)).observe s.observation (some a) s.done).result = .error e ↔
        ∃ i, FailsAt s.observation (some a) s.done m.sensor m.goals e i := observe_eq_error_iff
    rw [(step_of_ok hs).1]
    cases hres : ((m.turn (.step a)).observe s.observation (some a) s.done).result with
    | error e' =>
      rw [hres] at hobserve
      simpa using hobserve
    | ok ps =>
      rw [hres] at hobserve
      simpa using hobserve

/-- **A reset fails at the environment, or at a goal that observes it.** -/
theorem reset_eq_error_iff (hS : Simulator.Truthful S) (hR : Simulator.Restarts S) :
    m.reset.result = .error e ↔ (Environment.reset m.environment).result = .error e ∨
      ∃ o i, (Environment.reset m.environment).result = .ok o ∧ m.observeReset = true ∧
        FailsAt o (none : Option A) false m.sensor (m.goals.map (·.reset.1)) e i := by
  cases ho : (Environment.reset m.environment).result with
  | error e' => simp [(reset_of_error ho).1]
  | ok o =>
    rw [(reset_of_ok ho).1, settle_eq_error_iff hS (map_state?_start hR)]
    simp [turn, start]

/-- **A goal after a reset that succeeds** has had its reading there if the reset is observed. -/
theorem exists_goal_of_reset_ok (hR : Simulator.Restarts S) {t : T} (ht : m.reset.result = .ok t)
    {j : Nat} {g : Goal S K} (hg : m.goals[j]? = some g) : ∃ o,
    (Environment.reset m.environment).result = .ok o ∧
      Simulator.state? g.reset.1 = some (Simulator.automaton g).initial ∧
      if m.observeReset then
        ∃ I p, Sensor.reading o (none : Option A) m.sensor j = .ok I ∧
          (g.reset.1.step I false).result = .ok p ∧
          m.reset.state.goals[j]? = some (g.reset.1.step I false).state
      else m.reset.state.goals[j]? = some g.reset.1 := by
  obtain ⟨o, Is, y, ho, hread, hstate, -, hticks⟩ := reset_ok ht
  have hgoal : m.reset.state.goals[j]? =
      some (Simulator.after g.reset.1 (tickCalls false Is j)) := by
    rw [hstate]
    exact getElem?_alone.trans (by rw [hg]; rfl)
  refine ⟨o, ho, hR.goal.state?_reset g, ?_⟩
  rw [hgoal]
  split_ifs with hobs
  · rw [if_pos hobs] at hread
    obtain ⟨I, p, hI, hp⟩ := hticks hobs j g hg
    refine ⟨I, p, Sensor.reading_of_readings? hread hI, hp, ?_⟩
    rw [tickCalls, hI]
    rfl
  · rw [if_neg hobs] at hread
    cases hread
    rfl

/-- The goals of a run stay over the automata that they are over, as far as these start. -/
theorem exists_goal_after (hR : Simulator.Restarts S) (m : Monitored E S K X O T)
    (past : List (Act A)) {j : Nat} {g : Goal S K} (hg : m.goals[j]? = some g) :
    ∃ h, (Environment.after m past).goals[j]? = some h ∧
      (Simulator.automaton h).initial = (Simulator.automaton g).initial := by
  obtain ⟨y, f, hafter, -⟩ := exists_after m past
  refine ⟨Simulator.after g (f j), ?_, hR.goal.initial_after g (f j)⟩
  rw [hafter]
  exact getElem?_alone.trans (by rw [hg, Option.map_some])

end Calls

end Monitored

/-- Simulators of whole automata and of unfoldings, in any amounts. -/
theorem Simulator.Restarts.mixed {ι : Type} (C : ι → Type) (R : Type) [Amount R]
    [∀ i, DecidableEq (C i)] :
    Restarts (CompleteSimulator R ⊕ Σ i, ExploringSimulator (C i) R) :=
  (complete R).sum (.sigma fun i => exploring (C i) R)

/-- **What a failed call leaves behind.**  Let goals of whole automata and of unfoldings, behind any
    gates, run beside any environment, with any sensor, in whatever states all of these are.

    A step fails if the environment does, and then nothing has changed but the environment: no goal
    has ticked, and the sensor has not been read.  Otherwise it fails at a goal, for which the
    sensor fails, or which fails to tick, and answers the failure of these (`FailsAt`).  The
    environment has made the step then, the sensor has been read once for each goal up to this one,
    the goals before it have made this tick, and those after it are as they were; so is this one if
    it was the sensor that failed.

    A reset fails if the environment does, again with nothing else changed, or if it is observed at
    a goal.  In that case every goal has been reset first, those before have ticked on their
    readings, and from the one that fails on every goal is at its initial state.

    Whatever calls there have been, failed or not: a reset that succeeds brings every goal back to
    its initial state, with a tick on its reading if the reset is observed. -/
theorem failed_calls_halt_at_one_goal {ι : Type} {C : ι → Type} [Amount R]
    [∀ i, DecidableEq (C i)] [Environment E O A R] [Gate K R] [Sensor X O A]
    (m : Monitored E (CompleteSimulator R ⊕ Σ i, ExploringSimulator (C i) R) K X O T) :
    (∀ (a : A) e, (m.step a).result = .error e ↔
      (Environment.step m.environment a).result = .error e ∨
        ∃ s i, (Environment.step m.environment a).result = .ok s ∧
          Monitored.FailsAt s.observation (some a) s.done m.sensor m.goals e i) ∧
    (∀ (a : A) e, (Environment.step m.environment a).result = .error e →
      (m.step a).state = { m with environment := (Environment.step m.environment a).state }) ∧
    (∀ (a : A) s e i, (Environment.step m.environment a).result = .ok s →
      Monitored.FailsAt s.observation (some a) s.done m.sensor m.goals e i →
      (m.step a).state = { m with
        environment := (Environment.step m.environment a).state
        sensor := Sensor.afterReadings s.observation (some a) (i + 1) m.sensor
        goals := Monitored.ticked s.observation (some a) s.done m.sensor m.goals (i + 1) }) ∧
    (∀ e, m.reset.result = .error e ↔ (Environment.reset m.environment).result = .error e ∨
      ∃ o i, (Environment.reset m.environment).result = .ok o ∧ m.observeReset = true ∧
        Monitored.FailsAt o (none : Option A) false m.sensor (m.goals.map (·.reset.1)) e i) ∧
    (∀ e, (Environment.reset m.environment).result = .error e →
      m.reset.state = { m with environment := (Environment.reset m.environment).state }) ∧
    (∀ o e i, (Environment.reset m.environment).result = .ok o → m.observeReset = true →
      Monitored.FailsAt o (none : Option A) false m.sensor (m.goals.map (·.reset.1)) e i →
      m.reset.state = { m with
        environment := (Environment.reset m.environment).state
        sensor := Sensor.afterReadings o (none : Option A) (i + 1) m.sensor
        goals := Monitored.ticked o (none : Option A) false m.sensor (m.goals.map (·.reset.1))
          (i + 1) } ∧
      ∀ j g, i ≤ j → m.goals[j]? = some g → ∃ g', m.reset.state.goals[j]? = some g' ∧
        g'.state? = some (Simulator.automaton g).initial) ∧
    ∀ (past : List (Act A)) t, (Environment.reset (Environment.after m past)).result = .ok t →
      ∀ j g, m.goals[j]? = some g → ∃ h o, (Environment.after m past).goals[j]? = some h ∧
        (Environment.reset (Environment.after m past).environment).result = .ok o ∧
        h.reset.1.state? = some (Simulator.automaton g).initial ∧
        if m.observeReset then
          ∃ I p, Sensor.reading o (none : Option A) (Environment.after m past).sensor j = .ok I ∧
            (h.reset.1.step I false).result = .ok p ∧
            (Environment.after m (past ++ [.reset])).goals[j]? =
              some (h.reset.1.step I false).state
        else (Environment.after m (past ++ [.reset])).goals[j]? = some h.reset.1 := by
  have hS := Simulator.Truthful.mixed C R
  have hR := Simulator.Restarts.mixed C R
  refine ⟨fun a e => Monitored.step_eq_error_iff, fun a e he => (Monitored.step_of_error he).2,
    fun a s e i hs hfail => ?_, fun e => Monitored.reset_eq_error_iff hS hR,
    fun e he => (Monitored.reset_of_error he).2, fun o e i ho hobs hfail => ?_,
    fun past t ht j g hg => ?_⟩
  · rw [(Monitored.step_of_ok hs).2]
    exact Monitored.FailsAt.state_observe (m := m.turn (.step a)) hfail
  · have hstate := (Monitored.reset_of_ok ho).2.trans
      (Monitored.FailsAt.state_settle (m := (m.turn .reset).start) hfail hobs)
    refine ⟨hstate, fun j g hij hg => ?_⟩
    have hstart : (m.goals.map (·.reset.1))[j]? = some g.reset.1 := by
      rw [List.getElem?_map, hg, Option.map_some]
    obtain ⟨g', hg', hstay⟩ := hfail.state?_ticked hR hij hstart
    rw [hstate]
    exact ⟨g', hg', hstay.trans (hR.goal.state?_reset g)⟩
  · obtain ⟨h, hh, hinitial⟩ := Monitored.exists_goal_after hR m past hg
    obtain ⟨o, ho, hstart, hticked⟩ := Monitored.exists_goal_of_reset_ok hR ht hh
    have hobs : (Environment.after m past).observeReset = m.observeReset := by
      obtain ⟨y, f, hafter, -⟩ := Monitored.exists_after m past
      rw [hafter]
    rw [hobs] at hticked
    rw [Environment.after_concat_reset]
    exact ⟨h, o, hh, ho, hstart.trans (congrArg some hinitial), hticked⟩

/-- A goal that discovers two steps to acceptance, with room for two states, and one that knows
    them, before the sensor fails at its second reading.  The step fails at the first goal, for
    want of room; a reset instead at the second one, which gets no reading.  It does at the reset
    after that, and ticks from its initial state. -/
theorem failed_walks_of_two_goals :
    let C : Unit → Type := fun _ => Nat
    let m : Monitored (ChainEnvironment Rat) (MixedSimulator C) (StatelessGate ListedTest)
        CellSensor Nat (Nat × List Nat) := {
      environment := ⟨{ cells := 3, position := 0, position_lt := by decide }⟩
      goals := [
        { simulator := .inr ⟨(), Simulator.after (.new (Dfa.twoSteps.toAutomaton.unfold ∅) 3
              { Exploration.standard with shaping := .sparse, maxStates := 2 })
            [.reset, .step ∅ false]⟩
          gate := .always },
        { simulator := .inl (Simulator.after (.new Dfa.twoSteps.toAutomaton 3 .sparse)
            [.reset, .step ∅ false, .step ∅ false])
          gate := .always }]
      sensor := { failAt := [2] }
      combine := Prod.mk
      observeReset := true }
    m.goals.map (·.state?) = [some 1, some 2] ∧
    ((m.step .right).result = .error (.graphFull 2) ∧
      (m.step .right).state.environment.chain.position = 1 ∧
      (m.step .right).state.sensor.readings = 1 ∧
      (m.step .right).state.goals.map (·.state?) = [some 1, some 2]) ∧
    m.reset.result = .error (.sensorFailed "sensor failure at call 2") ∧
      m.reset.state.sensor.readings = 2 ∧
      m.reset.state.goals.map (·.state?) = [some 1, some 0] ∧
    ∃ (g : Goal (MixedSimulator C) (StatelessGate ListedTest)) (I : Fluents), g.state? = some 0 ∧
      (Environment.after m [.reset, .reset]).goals[1]? = some (g.step I false).state := by
  intro C m
  obtain ⟨hstepFails, -, hsteps, hresetFails, -, hresets, hlater⟩ := failed_calls_halt_at_one_goal m
  have hstep : Monitored.FailsAt 1 (some ChainAction.right) false m.sensor m.goals
      (.graphFull 2) 0 :=
    ⟨fun _ hj => absurd hj (Nat.not_lt_zero _), _, rfl, Or.inr ⟨_, rfl, by decide +kernel⟩⟩
  have hreset : Monitored.FailsAt 0 (none : Option ChainAction) false m.sensor
      (m.goals.map (·.reset.1)) (.sensorFailed "sensor failure at call 2") 1 := {
    before := fun j hj => by
      obtain rfl := Nat.lt_one_iff.1 hj
      exact ⟨_, _, (1, 0), rfl, rfl, by decide +kernel⟩
    here := ⟨_, rfl, Or.inl ⟨"sensor failure at call 2", by decide +kernel, rfl⟩⟩ }
  have hstopped := hsteps .right ⟨1, 0, false, ∅⟩ _ 0 rfl hstep
  obtain ⟨hleft, -⟩ := hresets 0 _ 1 rfl rfl hreset
  have hagain : (Environment.reset (Environment.after m [.reset])).result = .ok (0, [1, 1]) := by
    decide +kernel
  obtain ⟨h, _, -, -, hstart, I, _, -, -, hticked⟩ := hlater [.reset] _ hagain 1 _ rfl
  refine ⟨rfl, ⟨(hstepFails .right _).2 (Or.inr ⟨_, 0, rfl, hstep⟩), ?_, ?_, ?_⟩,
    (hresetFails _).2 (Or.inr ⟨0, 1, rfl, rfl, hreset⟩), ?_, ?_, h.reset.1, I, hstart, hticked⟩
  · rw [hstopped]; rfl
  · rw [hstopped]; rfl
  · rw [hstopped]; decide +kernel
  · rw [hleft]; rfl
  · rw [hleft]; decide +kernel

end GoalAutomata
