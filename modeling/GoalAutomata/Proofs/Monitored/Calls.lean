/-
  What a call of a monitored environment does, whether or not it fails.

  A failure halfway keeps what was done before it.  Still every call reaches the
  environment just once, and first; the sensor is only read, and every goal only gets
  calls of its own (`Monitored.exists_state_call`), and so it is for runs
  (`Monitored.exists_after`).  A step or a reset that gets past the environment is
  decided by the goals and the sensor alone (`Monitored.step_of_ok`, `reset_of_ok`).
  One tick reads just once, whatever comes of it (`Monitored.state_tick`).
-/
import GoalAutomata.Proofs.Monitored
import Mathlib.Logic.Function.Iterate
import Mathlib.Logic.Relation

namespace GoalAutomata

variable {E S K X O T A R : Type}

/-! ## Readings -/

namespace Sensor

variable [Sensor X O A]

/-- The sensor after `n` readings in a row, failed ones included. -/
def afterReadings (o : O) (a? : Option A) (n : Nat) (x : X) : X := (fun y => (read y o a?).2)^[n] x

/-- What comes of the reading with number `n`, counted from zero. -/
def reading (o : O) (a? : Option A) (x : X) (n : Nat) : Except String Fluents :=
  (read (afterReadings o a? n x) o a?).1

end Sensor

/-- Some readings lead from one state of a sensor to another. -/
def Sensor.Leads (O A : Type) [Sensor X O A] : X → X → Prop :=
  Relation.ReflTransGen fun x y => ∃ (o : O) (a? : Option A), (Sensor.read x o a?).2 = y

/-- A function of its arguments stays itself. -/
theorem Sensor.Leads.eq {f f' : O → Option A → Except String Fluents} (h : Leads O A f f') :
    f' = f := by
  induction h with
  | refl => rfl
  | tail _ hread ih =>
    obtain ⟨_, _, rfl⟩ := hread
    exact ih

namespace Monitored

theorem state_join [Simulator S R] (m : Monitored E S K X O T) (o : O) :
    (m.join o).state = m := by
  unfold join
  split <;> rfl

variable [Amount R] [Simulator S R] [Gate K R] [Sensor X O A]

/-! ## Ticks -/

section Tick

/-- A goal after what has come of a reading: a tick, or nothing if there are no fluents. -/
def onReading (last : Bool) (g : Goal S K) : Except String Fluents → Goal S K
  | .ok I => (g.step I last).state
  | .error _ => g

theorem exists_onReading (last : Bool) (g : Goal S K) (r : Except String Fluents) :
    ∃ cs : List Call, onReading last g r = Simulator.after g cs := by
  cases r with
  | error cause => exact ⟨[], rfl⟩
  | ok I => exact ⟨[.step I last], rfl⟩

variable {o : O} {a? : Option A} {last : Bool} {x : X} {g : Goal S K} {gs : List (Goal S K)}

/-- A tick reads once, whatever comes of it. -/
theorem state_tick : (tick o a? last x g).state =
    ((Sensor.read x o a?).2, onReading last g (Sensor.reading o a? x 0)) := by
  change _ = ((Sensor.read x o a?).2, onReading last g (Sensor.read x o a?).1)
  unfold tick
  split
  · next cause y hread => rw [hread]; rfl
  · next I y hread =>
    rw [hread]
    exact congrArg (y, ·) (Outcome.state_andThen_of_keeps _ fun _ _ => rfl)

theorem tickAll_cons_of_error {e : Error} (h : (tick o a? last x g).result = .error e) :
    (tickAll o a? last x (g :: gs)).result = .error e ∧
      (tickAll o a? last x (g :: gs)).state =
        ((tick o a? last x g).state.1, (tick o a? last x g).state.2 :: gs) := by
  simp [tickAll, h, Outcome.failed]

theorem tickAll_cons_of_ok {p : Nat × R} (h : (tick o a? last x g).result = .ok p) :
    (tickAll o a? last x (g :: gs)).result =
        (p :: ·) <$> (tickAll o a? last (Sensor.read x o a?).2 gs).result ∧
      (tickAll o a? last x (g :: gs)).state =
        ((tickAll o a? last (Sensor.read x o a?).2 gs).state.1, (tick o a? last x g).state.2 ::
          (tickAll o a? last (Sensor.read x o a?).2 gs).state.2) := by
  simp only [tickAll, h, state_tick]
  exact ⟨rfl, rfl⟩

variable (o a? last x)

theorem exists_state_tickAll (gs : List (Goal S K)) : ∃ (y : X) (f : Nat → List Call),
    (tickAll o a? last x gs).state = (y, alone gs f) ∧ Sensor.Leads O A x y := by
  induction gs generalizing x with
  | nil => exact ⟨x, fun _ => [], rfl, .refl⟩
  | cons g gs ih =>
    obtain ⟨cs, htick⟩ := exists_onReading last g (Sensor.reading o a? x 0)
    have hread : Sensor.Leads O A x (Sensor.read x o a?).2 := .single ⟨o, a?, rfl⟩
    cases ht : (tick o a? last x g).result with
    | error e =>
      refine ⟨_, fun | 0 => cs | _ + 1 => [], ?_, hread⟩
      rw [(tickAll_cons_of_error ht).2, state_tick, htick, alone_cons, alone_nil]
    | ok p =>
      obtain ⟨y, f, hstate, hleads⟩ := ih (Sensor.read x o a?).2
      refine ⟨y, fun | 0 => cs | i + 1 => f i, ?_, hread.trans hleads⟩
      rw [(tickAll_cons_of_ok ht).2, hstate, state_tick, htick, alone_cons]

theorem exists_state_observe (m : Monitored E S K X O T) : ∃ (y : X) (f : Nat → List Call),
    (m.observe o a? last).state = { m with sensor := y, goals := alone m.goals f } ∧
      Sensor.Leads O A m.sensor y := by
  obtain ⟨y, f, hstate, hleads⟩ := exists_state_tickAll o a? last m.sensor m.goals
  exact ⟨y, f, congrArg (fun s => { m with sensor := s.1, goals := s.2 }) hstate, hleads⟩

theorem exists_state_settle (m : Monitored E S K X O T) : ∃ (y : X) (f : Nat → List Call),
    (m.settle (A := A) o).state = { m with sensor := y, goals := alone m.goals f } ∧
      Sensor.Leads O A m.sensor y := by
  unfold settle
  split_ifs
  · rw [Outcome.state_andThen_of_keeps _ fun _ m => state_join m o]
    exact exists_state_observe o (none : Option A) false m
  · exact ⟨m.sensor, fun _ => [], by rw [state_join, alone_nil], .refl⟩

end Tick

/-! ## Calls -/

section Call

variable [Environment E O A R] {m : Monitored E S K X O T} {e : Error} {o : O} {a : A}
  {s : Step O R}

/-- The monitored environment once the environment has been called. -/
def turn (m : Monitored E S K X O T) (c : Act A) : Monitored E S K X O T :=
  { m with environment := (Environment.call m.environment c).state }

/-- The monitored environment with every goal back at the start. -/
def start (m : Monitored E S K X O T) : Monitored E S K X O T :=
  { m with goals := m.goals.map (·.reset.1) }

theorem reset_of_error (h : (Environment.reset m.environment).result = .error e) :
    m.reset.result = .error e ∧ m.reset.state = m.turn .reset :=
  Outcome.andThen_of_error h

/-- **Past the environment a reset is settled by the goals and the sensor.** -/
theorem reset_of_ok (h : (Environment.reset m.environment).result = .ok o) :
    m.reset.result = ((m.turn .reset).start.settle (A := A) o).result ∧
      m.reset.state = ((m.turn .reset).start.settle (A := A) o).state :=
  Outcome.andThen_of_ok h

theorem step_of_error (h : (Environment.step m.environment a).result = .error e) :
    (m.step a).result = .error e ∧ (m.step a).state = m.turn (.step a) :=
  Outcome.andThen_of_error h

/-- **Past the environment a step is a tick of every goal.** -/
theorem step_of_ok (h : (Environment.step m.environment a).result = .ok s) :
    (m.step a).result = (fun ticks : List (Nat × R) => {
        observation := m.combine s.observation (ticks.map (·.1))
        reward := s.reward + Amount.sum (ticks.map (·.2))
        done := s.done
        info := s.info }) <$> ((m.turn (.step a)).observe s.observation (some a) s.done).result ∧
      (m.step a).state = ((m.turn (.step a)).observe s.observation (some a) s.done).state :=
  Outcome.andThen_of_ok h

/-- **A call reaches the environment once**, reads the sensor, and gives each goal calls of its
    own, whether or not it fails. -/
theorem exists_state_call (m : Monitored E S K X O T) (c : Act A) :
    ∃ (y : X) (f : Nat → List Call), (Environment.call m c).state = { m with
        environment := (Environment.call m.environment c).state
        sensor := y
        goals := alone m.goals f } ∧ Sensor.Leads O A m.sensor y := by
  cases c with
  | reset =>
    change ∃ y f, m.reset.state = _ ∧ _
    cases h : (Environment.reset m.environment).result with
    | error e => exact ⟨m.sensor, fun _ => [], by rw [(reset_of_error h).2, alone_nil]; rfl, .refl⟩
    | ok o =>
      obtain ⟨y, f, hstate, hleads⟩ := exists_state_settle (A := A) o (m.turn .reset).start
      refine ⟨y, fun i => [.reset] ++ f i, ?_, hleads⟩
      rw [(reset_of_ok h).2, hstate, ← alone_alone, ← map_reset_eq_alone]
      rfl
  | step a =>
    change ∃ y f, (m.step a).state = _ ∧ _
    cases h : (Environment.step m.environment a).result with
    | error e => exact ⟨m.sensor, fun _ => [], by rw [(step_of_error h).2, alone_nil]; rfl, .refl⟩
    | ok s =>
      obtain ⟨y, f, hstate, hleads⟩ :=
        exists_state_observe s.observation (some a) s.done (m.turn (.step a))
      exact ⟨y, f, by rw [(step_of_ok h).2, hstate]; rfl, hleads⟩

/-- **So does every run.** -/
theorem exists_after (m : Monitored E S K X O T) (cs : List (Act A)) :
    ∃ (y : X) (f : Nat → List Call), Environment.after m cs = { m with
        environment := Environment.after m.environment cs
        sensor := y
        goals := alone m.goals f } ∧ Sensor.Leads O A m.sensor y := by
  induction cs generalizing m with
  | nil => exact ⟨m.sensor, fun _ => [], by simp, .refl⟩
  | cons c cs ih =>
    obtain ⟨x, f, hcall, hx⟩ := exists_state_call m c
    obtain ⟨y, h, hrest, hy⟩ := ih (Environment.call m c).state
    rw [hcall] at hrest hy
    refine ⟨y, fun i => f i ++ h i, ?_, hx.trans hy⟩
    rw [Environment.after_cons, hcall, hrest, alone_alone]
    rfl

end Call

end Monitored

end GoalAutomata
