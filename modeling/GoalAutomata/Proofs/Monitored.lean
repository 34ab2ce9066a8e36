/-
  Goals beside an environment do not meet.

  In a run without failures the environment and the sensor do what they do without
  goals, but for the number of readings: a beat is what one call brings from them
  (`Beat.of?`).  A goal takes from every beat a reset, its own reading, or both
  (`Beat.calls`), and does what it does alone.  A reply is made of the beat and of
  what the goals answer (`Beat.Answered`).

  * `Monitored.tickAll_ok`: a tick of all goals is one of each, on its own reading;
  * `Monitored.call_ok`: what a call that succeeds has done;
  * `goals_are_independent`: what this means for runs.
-/
import GoalAutomata.Monitored
import GoalAutomata.Proofs.Complete
import GoalAutomata.Proofs.Environment
import GoalAutomata.Proofs.Goal
import GoalAutomata.Sensor.Cell

namespace GoalAutomata

variable {E S K X O T A R : Type}

/-- The fluents of `n` readings in a row and the sensor after them, if none fails. -/
def Sensor.readings? [Sensor X O A] (o : O) (a? : Option A) : Nat → X → Option (List Fluents × X)
  | 0, x => some ([], x)
  | n + 1, x =>
    match Sensor.read x o a? with
    | (.error _, _) => none
    | (.ok I, y) => (readings? o a? n y).map fun p => (I :: p.1, p.2)

theorem Sensor.length_readings? [Sensor X O A] {o : O} {a? : Option A} {n : Nat} {x y : X}
    {Is : List Fluents} (h : readings? o a? n x = some (Is, y)) : Is.length = n := by
  induction n generalizing x Is with
  | zero =>
    cases h
    rfl
  | succ n ih =>
    unfold readings? at h
    split at h
    · cases h
    · obtain ⟨⟨Js, z⟩, hrest, heq⟩ := Option.map_eq_some_iff.1 h
      cases heq
      rw [List.length_cons, ih hrest]

/-! ## Beats -/

/-- What one call brings from the environment and the sensor: what the environment answers, and the
    fluents that were read, one reading for each goal. -/
inductive Beat (O R : Type) where
  | reset (observation : O) (read : List Fluents)
  | step (step : Step O R) (read : List Fluents)

/-- The tick of the goal with number `i` on its reading, if there is one. -/
def tickCalls (last : Bool) (read : List Fluents) (i : Nat) : List Call :=
  (read[i]?.map (.step · last)).toList

@[simp] theorem tickCalls_zero {last : Bool} {I : Fluents} {read : List Fluents} :
    tickCalls last (I :: read) 0 = [.step I last] := rfl

@[simp] theorem tickCalls_succ {last : Bool} {I : Fluents} {read : List Fluents} {i : Nat} :
    tickCalls last (I :: read) (i + 1) = tickCalls last read i := rfl

namespace Beat

/-- What the goal with number `i` takes from a beat. -/
def calls (b : Beat O R) (i : Nat) : List Call :=
  match b with
  | reset _ read => .reset :: tickCalls false read i
  | step s read => tickCalls s.done read i

/-- The resets and ticks of the goal with number `i` in a run with the given beats. -/
def stream (bs : List (Beat O R)) (i : Nat) : List Call := bs.flatMap fun b => b.calls i

theorem stream_take_succ {b : Beat O R} {bs : List (Beat O R)} {k i : Nat}
    (h : bs[k]? = some b) : stream (bs.take (k + 1)) i = stream (bs.take k) i ++ b.calls i := by
  rw [List.take_add_one, h]
  simp [stream]

variable [Environment E O A R] [Sensor X O A]

/-- What a call brings from an environment and a sensor beside which `n` goals run, and what it
    makes of both, if nothing fails.  A step reads once for each goal, and so does a reset that is
    observed. -/
def of? (n : Nat) (observeReset : Bool) (e : E) (x : X) : Act A → Option (Beat O R × E × X)
  | .reset =>
    match (Environment.reset e).result with
    | .error _ => none
    | .ok o => (Sensor.readings? o (none : Option A) (if observeReset then n else 0) x).map
        fun p => (reset o p.1, (Environment.reset e).state, p.2)
  | .step a =>
    match (Environment.step e a).result with
    | .error _ => none
    | .ok s => (Sensor.readings? s.observation (some a) n x).map
        fun p => (step s p.1, (Environment.step e a).state, p.2)

/-- What the calls of a run bring. -/
def all? (n : Nat) (observeReset : Bool) : E → X → List (Act A) → Option (List (Beat O R) × E × X)
  | e, x, [] => some ([], e, x)
  | e, x, c :: cs =>
    match of? n observeReset e x c with
    | none => none
    | some (b, e', x') => (all? n observeReset e' x' cs).map fun p => (b :: p.1, p.2)

/-- There is a reading for each of `n` goals, unless a reset is not observed. -/
def Reads (n : Nat) (observeReset : Bool) : Beat O R → Prop
  | reset _ read => read.length = if observeReset then n else 0
  | step _ read => read.length = n

theorem reads_of_of? {n : Nat} {observeReset : Bool} {e e' : E} {x x' : X} {c : Act A}
    {b : Beat O R} (h : of? n observeReset e x c = some (b, e', x')) : b.Reads n observeReset := by
  cases c with
  | reset =>
    cases ho : (Environment.reset e).result with
    | error _ => simp [of?, ho] at h
    | ok o =>
      simp only [of?, ho, Option.map_eq_some_iff] at h
      obtain ⟨⟨Is, y⟩, hread, heq⟩ := h
      cases heq
      exact Sensor.length_readings? hread
  | step a =>
    cases hs : (Environment.step e a).result with
    | error _ => simp [of?, hs] at h
    | ok s =>
      simp only [of?, hs, Option.map_eq_some_iff] at h
      obtain ⟨⟨Is, y⟩, hread, heq⟩ := h
      cases heq
      exact Sensor.length_readings? hread

end Beat

/-! ## Goals alone -/

section Alone

variable [Simulator S R] [Gate K R] [Amount R]

/-- Goals of which each is driven by its own calls. -/
def alone (gs : List (Goal S K)) (calls : Nat → List Call) : List (Goal S K) :=
  gs.mapIdx fun i g => Simulator.after g (calls i)

variable {gs : List (Goal S K)} {f h : Nat → List Call}

@[simp] theorem length_alone : (alone gs f).length = gs.length := List.length_mapIdx

theorem getElem?_alone {i : Nat} :
    (alone gs f)[i]? = gs[i]?.map fun g => Simulator.after g (f i) :=
  List.getElem?_mapIdx

theorem alone_cons {g : Goal S K} :
    alone (g :: gs) f = Simulator.after g (f 0) :: alone gs fun i => f (i + 1) := List.mapIdx_cons

theorem alone_alone : alone (alone gs f) h = alone gs fun i => f i ++ h i := by
  simp only [alone, List.mapIdx_mapIdx, Function.comp_def, Simulator.after_append]

@[simp] theorem alone_nil : alone gs (fun _ => []) = gs := by
  simp [alone, List.mapIdx_eq_iff]

@[simp] theorem alone_tickCalls_nil {last : Bool} : alone gs (tickCalls last []) = gs := alone_nil

@[simp] theorem alone_stream_nil : alone gs (Beat.stream ([] : List (Beat O R))) = gs := alone_nil

/-- A goal whose tick has been answered had a reading. -/
theorem exists_of_answers_tickCalls {g : Goal S K} {last : Bool} {read : List Fluents} {i : Nat}
    {p : Nat × R} (h : Simulator.answers g (tickCalls last read i) = [.stepped (.ok p)]) :
    ∃ I, read[i]? = some I ∧ (g.step I last).result = .ok p := by
  cases hI : read[i]? with
  | none => simp [tickCalls, hI, Simulator.answers] at h
  | some I =>
    refine ⟨I, rfl, ?_⟩
    change (Simulator.step g I last).result = .ok p
    simpa [tickCalls, hI, Simulator.answers, Simulator.call] using h

/-- If a tick of every goal has been answered, then every goal had a reading and took it. -/
theorem exists_of_answered {last : Bool} {read : List Fluents} {ps : List (Nat × R)}
    (h : gs.mapIdx (fun i g => Simulator.answers g (tickCalls last read i)) =
      ps.map fun p => [.stepped (.ok p)]) {i : Nat} {g : Goal S K} (hg : gs[i]? = some g) :
    ∃ I p, read[i]? = some I ∧ ps[i]? = some p ∧ (g.step I last).result = .ok p := by
  have hi := congrArg (·[i]?) h
  simp only [List.getElem?_map, List.getElem?_mapIdx, hg, Option.map_some] at hi
  obtain ⟨p, hp, hanswers⟩ := Option.map_eq_some_iff.1 hi.symm
  obtain ⟨I, hI, hstep⟩ := exists_of_answers_tickCalls hanswers.symm
  exact ⟨I, p, hI, hp, hstep⟩

theorem exists_of_answered_cons {g : Goal S K} {last : Bool} {read : List Fluents}
    {ps : List (Nat × R)}
    (h : (g :: gs).mapIdx (fun i g => Simulator.answers g (tickCalls last read i)) =
      ps.map fun p => [.stepped (.ok p)]) :
    ∃ I Is p qs, read = I :: Is ∧ ps = p :: qs ∧ (g.step I last).result = .ok p ∧
      gs.mapIdx (fun i g => Simulator.answers g (tickCalls last Is i)) =
        qs.map fun p => [.stepped (.ok p)] := by
  cases ps with
  | nil => simp at h
  | cons p qs =>
    rw [List.mapIdx_cons, List.map_cons] at h
    obtain ⟨hhead, hrest⟩ := List.cons_eq_cons.1 h
    obtain ⟨I, hI, hp⟩ := exists_of_answers_tickCalls hhead
    cases read with
    | nil => cases hI
    | cons J Is =>
      cases hI
      exact ⟨I, Is, p, qs, rfl, rfl, hp, hrest⟩

/-- A goal after a reset that is observed. -/
theorem after_calls_reset {g : Goal S K} {o : O} {read : List Fluents} {i : Nat} {I : Fluents}
    (hI : read[i]? = some I) : Simulator.after g ((Beat.reset (R := R) o read).calls i) =
      (g.reset.1.step I false).state := by
  simp only [Beat.calls, tickCalls, hI]
  rfl

theorem map_reset_eq_alone : gs.map (·.reset.1) = alone gs fun _ => [.reset] := by
  refine List.ext_getElem (by simp) fun i _ _ => ?_
  simp only [alone, List.getElem_map, List.getElem_mapIdx]
  rfl

/-- What a call answers whose beat is `b`, when the goals before it are `gs`: after a reset the
    states are those of the goals, and a step answers their states and the sum of what they pay. -/
def Beat.Answered (combine : O → List Nat → T) (gs : List (Goal S K)) (y : Reply T R) :
    Beat O R → Prop
  | .reset o read => ∃ qs, y = .started (combine o qs) ∧
      (alone gs (Beat.reset (R := R) o read).calls).map Simulator.state? = qs.map some
  | .step s read => ∃ ps : List (Nat × R), y = .stepped {
        observation := combine s.observation (ps.map (·.1))
        reward := s.reward + Amount.sum (ps.map (·.2))
        done := s.done
        info := s.info } ∧
      gs.mapIdx (fun i g => Simulator.answers g ((Beat.step s read).calls i)) =
        ps.map fun p => [.stepped (.ok p)]

end Alone

/-! ## One call -/

theorem mapM_eq_some_iff {α β : Type} {f : α → Option β} {as : List α} {bs : List β} :
    as.mapM f = some bs ↔ as.map f = bs.map some := by
  induction as generalizing bs with
  | nil => cases bs <;> simp
  | cons a as ih => cases bs <;> simp [List.mapM_cons, Option.bind_eq_some_iff, ← ih]

namespace Monitored

variable [Amount R] [Simulator S R] [Gate K R] [Sensor X O A]

section Tick

variable {o : O} {a? : Option A} {last : Bool} {x : X} {g : Goal S K} {gs : List (Goal S K)}

theorem tick_ok {p : Nat × R} (h : (tick o a? last x g).result = .ok p) :
    ∃ I y, Sensor.read x o a? = (.ok I, y) ∧ (g.step I last).result = .ok p ∧
      (tick o a? last x g).state = (y, (g.step I last).state) := by
  unfold tick at h ⊢
  split at h
  · cases h
  · next I y hread =>
    rw [Outcome.result_within] at h
    obtain ⟨p', hp, hdone, hstate⟩ := Outcome.exists_of_andThen_ok h
    cases hdone
    exact ⟨I, y, hread, hp, congrArg (y, ·) hstate⟩

/-- **A tick of all goals is a tick of each, alone on its own reading.** -/
theorem tickAll_ok {ps : List (Nat × R)} (h : (tickAll o a? last x gs).result = .ok ps) :
    ∃ Is y, Sensor.readings? o a? gs.length x = some (Is, y) ∧
      (tickAll o a? last x gs).state = (y, alone gs (tickCalls last Is)) ∧
      gs.mapIdx (fun i g => Simulator.answers g (tickCalls last Is i)) =
        ps.map fun p => [.stepped (.ok p)] := by
  induction gs generalizing x ps with
  | nil =>
    cases h
    exact ⟨[], x, rfl, rfl, rfl⟩
  | cons g gs ih =>
    cases ht : (tick o a? last x g).result with
    | error e => simp [tickAll, ht, Outcome.failed] at h
    | ok p =>
      obtain ⟨I, y, hread, hp, hstate⟩ := tick_ok ht
      simp only [tickAll, ht, hstate] at h ⊢
      -- the later goals go on from the sensor that the first reading leaves
      obtain ⟨qs, hqs, rfl⟩ := Outcome.exists_of_map_ok h
      obtain ⟨Is, z, hreads, hrest, hanswers⟩ := ih hqs
      refine ⟨I :: Is, z, ?_, ?_, ?_⟩
      · simp [Sensor.readings?, hread, hreads]
      · have hrest : (tickAll o a? last y gs).state = _ := hrest
        simp only [alone_cons, tickCalls_zero, tickCalls_succ]
        change ((tickAll o a? last y gs).state.1, (g.step I last).state ::
          (tickAll o a? last y gs).state.2) = _
        rw [hrest]
        rfl
      · rw [List.mapIdx_cons, List.map_cons]
        simp only [tickCalls_zero, tickCalls_succ, hanswers]
        exact congrArg (· :: _) (congrArg (fun r => [Answer.stepped r]) hp)

theorem observe_ok {m : Monitored E S K X O T} {ps : List (Nat × R)}
    (h : (m.observe o a? last).result = .ok ps) :
    ∃ Is y, Sensor.readings? o a? m.goals.length m.sensor = some (Is, y) ∧
      (m.observe o a? last).state =
        { m with sensor := y, goals := alone m.goals (tickCalls last Is) } ∧
      m.goals.mapIdx (fun i g => Simulator.answers g (tickCalls last Is i)) =
        ps.map fun p => [.stepped (.ok p)] := by
  obtain ⟨Is, y, hread, hstate, hanswers⟩ := tickAll_ok h
  exact ⟨Is, y, hread, congrArg (fun s => { m with sensor := s.1, goals := s.2 }) hstate, hanswers⟩

end Tick

variable {m : Monitored E S K X O T}

theorem join_ok {o : O} {t : T} (h : (m.join o).result = .ok t) :
    (m.join o).state = m ∧ ∃ qs, t = m.combine o qs ∧ m.goals.map Simulator.state? = qs.map some := by
  unfold join at h ⊢
  cases hq : m.states? with
  | none => simp [hq, Outcome.failed] at h
  | some qs =>
    simp only [hq] at h ⊢
    cases h
    exact ⟨rfl, qs, rfl, mapM_eq_some_iff.1 hq⟩

/-- What is left of a reset once the environment and the goals are back at the start: a tick on its
    observation, unless it is not observed. -/
def settle (m : Monitored E S K X O T) (o : O) : Outcome R (Monitored E S K X O T) T :=
  if m.observeReset then (m.observe o (none : Option A) false).andThen fun _ m => m.join o
  else m.join o

theorem settle_ok {o : O} {t : T} (h : (m.settle (A := A) o).result = .ok t) :
    ∃ Is y, Sensor.readings? o (none : Option A) (if m.observeReset then m.goals.length else 0)
        m.sensor = some (Is, y) ∧
      (m.settle (A := A) o).state =
        { m with sensor := y, goals := alone m.goals (tickCalls false Is) } ∧
      (∃ qs, t = m.combine o qs ∧
        (alone m.goals (tickCalls false Is)).map Simulator.state? = qs.map some) ∧
      (m.observeReset = true → ∀ (i : Nat) (g : Goal S K), m.goals[i]? = some g →
        ∃ I p, Is[i]? = some I ∧ (g.step I false).result = .ok p) := by
  unfold settle at h ⊢
  split_ifs at h ⊢ with hobs
  · obtain ⟨ps, hps, hjoin, hstate⟩ := Outcome.exists_of_andThen_ok h
    obtain ⟨Is, y, hread, hticked, hanswers⟩ := observe_ok hps
    obtain ⟨hsame, qs, ht, hqs⟩ := join_ok hjoin
    rw [hticked] at hsame ht hqs
    refine ⟨Is, y, hread, by rw [hstate, hticked, hsame], ⟨qs, ht, hqs⟩, fun _ i g hg => ?_⟩
    obtain ⟨I, p, hI, -, hp⟩ := exists_of_answered hanswers hg
    exact ⟨I, p, hI, hp⟩
  · obtain ⟨hstate, qs, ht, hqs⟩ := join_ok h
    exact ⟨[], m.sensor, rfl, by simpa using hstate, ⟨qs, ht, by simpa using hqs⟩, by simp [hobs]⟩

variable [Environment E O A R]

/-- **A step, as its parts.** -/
theorem step_ok {a : A} {t : Step T R} (h : (m.step a).result = .ok t) :
    ∃ s Is y, (Environment.step m.environment a).result = .ok s ∧
      Sensor.readings? s.observation (some a) m.goals.length m.sensor = some (Is, y) ∧
      (m.step a).state = { m with
        environment := (Environment.step m.environment a).state
        sensor := y
        goals := alone m.goals (Beat.step s Is).calls } ∧
      (Beat.step s Is).Answered m.combine m.goals (.stepped t) := by
  obtain ⟨s, hs, hmap, hstate⟩ := Outcome.exists_of_andThen_ok h
  obtain ⟨ps, hps, rfl⟩ := Outcome.exists_of_map_ok hmap
  obtain ⟨Is, y, hread, hticked, hanswers⟩ := observe_ok hps
  exact ⟨s, Is, y, hs, hread, hstate.trans hticked, ps, rfl, hanswers⟩

/-- **A reset, as its parts.**  If it is observed, then every goal has taken its reading at the
    start. -/
theorem reset_ok {t : T} (h : m.reset.result = .ok t) :
    ∃ o Is y, (Environment.reset m.environment).result = .ok o ∧
      Sensor.readings? o (none : Option A) (if m.observeReset then m.goals.length else 0) m.sensor =
        some (Is, y) ∧
      m.reset.state = { m with
        environment := (Environment.reset m.environment).state
        sensor := y
        goals := alone m.goals (Beat.reset (R := R) o Is).calls } ∧
      (Beat.reset o Is).Answered m.combine m.goals (.started t) ∧
      (m.observeReset = true → ∀ (i : Nat) (g : Goal S K), m.goals[i]? = some g →
        ∃ I p, Is[i]? = some I ∧ (g.reset.1.step I false).result = .ok p) := by
  obtain ⟨o, ho, hrest, hstate⟩ := Outcome.exists_of_andThen_ok h
  obtain ⟨⟨⟩, -, hrest, hstate'⟩ := Outcome.exists_of_andThen_ok hrest
  -- all goals are back at the start before the first of them ticks
  let start : Monitored E S K X O T := { m with
    environment := (Environment.reset m.environment).state
    goals := m.goals.map (·.reset.1) }
  obtain ⟨Is, y, hread, hsettled, ⟨qs, ht, hqs⟩, hticked⟩ := settle_ok (m := start) hrest
  have hgoals : alone start.goals (tickCalls false Is) =
      alone m.goals (Beat.reset (R := R) o Is).calls := by
    change alone (m.goals.map (·.reset.1)) _ = _
    rw [map_reset_eq_alone, alone_alone]
    rfl
  rw [hgoals] at hsettled hqs
  refine ⟨o, Is, y, ho, ?_, ?_, ⟨qs, congrArg Reply.started ht, hqs⟩, fun hobs i g hg => ?_⟩
  · simpa [start] using hread
  · rw [reset, hstate, hstate']
    exact hsettled
  · exact hticked hobs i g.reset.1 (by simp [start, hg])

/-- **A call that succeeds brings a beat**, which every goal takes alone. -/
theorem call_ok {c : Act A} {y : Reply T R} (h : (Environment.call m c).result = .ok y) :
    ∃ b e x, Beat.of? m.goals.length m.observeReset m.environment m.sensor c = some (b, e, x) ∧
      (Environment.call m c).state =
        { m with environment := e, sensor := x, goals := alone m.goals b.calls } ∧
      b.Answered m.combine m.goals y := by
  cases c with
  | reset =>
    obtain ⟨t, ht, rfl⟩ := Outcome.exists_of_map_ok h
    obtain ⟨o, Is, x, ho, hread, hstate, hanswered, -⟩ := reset_ok ht
    exact ⟨_, _, x, by simp [Beat.of?, ho, hread], hstate, hanswered⟩
  | step a =>
    obtain ⟨t, ht, rfl⟩ := Outcome.exists_of_map_ok h
    obtain ⟨s, Is, x, hs, hread, hstate, hanswered⟩ := step_ok ht
    exact ⟨_, _, x, by simp [Beat.of?, hs, hread], hstate, hanswered⟩

/-! ## Runs -/

/-- **A run without failures is a run of every goal alone.** -/
theorem run_ok {cs : List (Act A)} {ys : List (Reply T R)} {m' : Monitored E S K X O T}
    (h : Environment.run? m cs = some (ys, m')) :
    ∃ bs : List (Beat O R),
      Beat.all? m.goals.length m.observeReset m.environment m.sensor cs =
        some (bs, m'.environment, m'.sensor) ∧
      m'.goals = alone m.goals (Beat.stream bs) ∧
      bs.length = cs.length ∧
      ∀ (k : Nat) (b : Beat O R), bs[k]? = some b → b.Reads m.goals.length m.observeReset ∧
        ∃ y, ys[k]? = some y ∧
          b.Answered m.combine (alone m.goals (Beat.stream (bs.take k))) y := by
  induction cs generalizing m ys with
  | nil =>
    cases h
    exact ⟨[], rfl, alone_stream_nil.symm, rfl, by simp⟩
  | cons c cs ih =>
    obtain ⟨y, zs, hy, hrest, rfl⟩ := Environment.exists_of_run?_cons h
    obtain ⟨b, e, x, hb, hstate, hanswered⟩ := call_ok hy
    rw [hstate] at hrest
    obtain ⟨bs, hbs, hgoals, hlen, hreplies⟩ := ih hrest
    simp only [length_alone] at hbs hreplies
    refine ⟨b :: bs, by simp [Beat.all?, hb, hbs], ?_, congrArg (· + 1) hlen, ?_⟩
    · rw [hgoals, alone_alone]
      rfl
    · -- the first beat stands in front of every stream, so the later replies are shifted by one
      intro k b' hb'
      cases k with
      | zero =>
        cases hb'
        refine ⟨Beat.reads_of_of? hb, y, rfl, ?_⟩
        simpa using hanswered
      | succ k =>
        obtain ⟨hreads, y', hy', hanswered'⟩ := hreplies k b' hb'
        rw [alone_alone] at hanswered'
        exact ⟨hreads, y', hy', hanswered'⟩

end Monitored

/-- **Goals are independent, and every tick is accounted for once.**  In a run without failures the
    environment and the sensor do what they do without goals, but that every step is read once for
    each goal, in order, and so is a reset if it is observed.  What these bring determines the rest:
    every goal is driven alone, by a reset for each reset and a tick on its own reading, with the
    flag of the environment, or none when a reset is observed.  A reset answers the states of the
    goals after it.  A step answers the states that the goals answer, its reward is that of the
    environment with the sum of what the goals pay, from zero on in their order, and its other parts
    are those of the environment. -/
theorem goals_are_independent [Amount R] [Simulator S R] [Gate K R] [Sensor X O A]
    [Environment E O A R] (m m' : Monitored E S K X O T) (cs : List (Act A))
    (ys : List (Reply T R)) (h : Environment.run? m cs = some (ys, m')) :
    ∃ bs : List (Beat O R),
      Beat.all? m.goals.length m.observeReset m.environment m.sensor cs =
        some (bs, m'.environment, m'.sensor) ∧
      bs.length = cs.length ∧
      m'.goals = m.goals.mapIdx (fun i g => Simulator.after g (Beat.stream bs i)) ∧
      (∀ (k : Nat) (o : O) (read : List Fluents), bs[k]? = some (.reset o read) →
        read.length = (if m.observeReset then m.goals.length else 0) ∧
        ∃ qs, ys[k]? = some (.started (m.combine o qs)) ∧ qs.length = m.goals.length ∧
          ∀ i g, m.goals[i]? = some g →
            Simulator.state? (Simulator.after g (Beat.stream (bs.take (k + 1)) i)) = qs[i]?) ∧
      ∀ (k : Nat) (s : Step O R) (read : List Fluents), bs[k]? = some (.step s read) →
        read.length = m.goals.length ∧
        ∃ ps : List (Nat × R), ys[k]? = some (.stepped {
            observation := m.combine s.observation (ps.map (·.1))
            reward := s.reward + (ps.map (·.2)).foldl (· + ·) 0
            done := s.done
            info := s.info }) ∧ ps.length = m.goals.length ∧
          ∀ i g, m.goals[i]? = some g → ∃ I p, read[i]? = some I ∧ ps[i]? = some p ∧
            (Goal.step (Simulator.after g (Beat.stream (bs.take k) i)) I s.done).result = .ok p := by
  obtain ⟨bs, hbs, hgoals, hlen, hreplies⟩ := Monitored.run_ok h
  refine ⟨bs, hbs, hlen, hgoals, fun k o read hk => ?_, fun k s read hk => ?_⟩
  · obtain ⟨hreads, y, hy, qs, rfl, hqs⟩ := hreplies k _ hk
    rw [alone_alone] at hqs
    refine ⟨hreads, qs, hy, by simpa using (congrArg List.length hqs).symm, fun i g hg => ?_⟩
    have hi := congrArg (·[i]?) hqs
    simp only [alone, List.getElem?_map, List.getElem?_mapIdx, hg, Option.map_some] at hi
    obtain ⟨q, hq, hstate⟩ := Option.map_eq_some_iff.1 hi.symm
    rw [Beat.stream_take_succ hk, hq, ← hstate]
  · obtain ⟨hreads, y, hy, ps, rfl, hps⟩ := hreplies k _ hk
    refine ⟨hreads, ps, hy, by simpa using (congrArg List.length hps).symm, fun i g hg => ?_⟩
    have hi := congrArg (·[i]?) hps
    simp only [alone, List.getElem?_map, List.getElem?_mapIdx, hg, Option.map_some] at hi
    obtain ⟨p, hp, hanswers⟩ := Option.map_eq_some_iff.1 hi.symm
    obtain ⟨I, hI, hstep⟩ := exists_of_answers_tickCalls hanswers.symm
    exact ⟨I, p, hI, hp, hstep⟩

/-- Two goals of a walker on three cells, whose sensor numbers its readings: after an observed
    reset and a step the second goal is where it comes alone, at its end. -/
theorem two_goals_ticked :
    let g : Goal (CompleteSimulator Rat) (StatelessGate ListedTest) :=
      .ofAutomaton Dfa.twoSteps.toAutomaton 3 .sparse
    let m : Monitored (ChainEnvironment Rat) (CompleteSimulator Rat) (StatelessGate ListedTest)
        CellSensor Nat (Nat × List Nat) := {
      environment := ⟨{ cells := 3, position := 0, position_lt := by decide }⟩
      goals := [g, g]
      sensor := { tellsReading := true }
      combine := Prod.mk
      observeReset := true }
    ∃ ys m' bs, Environment.run? m [.reset, .step .right] = some (ys, m') ∧
      m'.goals[1]? = some (Simulator.after g (Beat.stream (O := Nat) (R := Rat) bs 1)) ∧
      m'.goals[1]?.bind (·.state?) = some 2 := by
  intro g m
  have h : Environment.run? m [.reset, .step .right] = some (_, _) := rfl
  obtain ⟨bs, -, -, hgoals, -⟩ := goals_are_independent m _ _ _ h
  exact ⟨_, _, bs, h, by rw [hgoals]; rfl, rfl⟩

end GoalAutomata
