/-
  Layers of goals.

  A monitored environment is an environment, so goals can be put around goals.  As far
  as nothing fails this makes no difference: a call is decided by what the environment
  answers and by what each list of goals makes of the reading (`ticks?`, `settled?`),
  and of goals side by side these are the answers of the one list and of the other
  (`ticks?_append`, `settled?_append`).  The order is not the same, since the inner
  layer asks its goals for their states before the outer one ticks.

  * `Monitored.success?_reset_layer`, `success?_step_layer`: the calls of one layer;
  * `layers_flatten`: two layers do what one layer does.
-/
import GoalAutomata.Proofs.Monitored
import Mathlib.Data.List.Forall2

namespace GoalAutomata

/-! ## Successes -/

namespace Outcome

variable {R S T α β : Type}

/-- The answer and the state, if an operation has succeeded. -/
def success? (o : Outcome R S α) : Option (α × S) :=
  match o.result with
  | .error _ => none
  | .ok a => some (a, o.state)

variable {a : α} {e : Error} {s : S} {es : List (Event R)} {o : Outcome R S α}

theorem success?_of_ok (h : o.result = .ok a) : o.success? = some (a, o.state) := by
  rw [success?, h]

theorem success?_of_error (h : o.result = .error e) : o.success? = none := by
  rw [success?, h]

@[simp] theorem success?_done : (done a s es).success? = some (a, s) := rfl

@[simp] theorem success?_failed : (failed e s es : Outcome R S α).success? = none := rfl

@[simp] theorem success?_after : (o.after es).success? = o.success? := rfl

@[simp] theorem success?_within (f : S → T) :
    (o.within f).success? = o.success?.map fun p => (p.1, f p.2) := by
  obtain ⟨_ | _, s, es⟩ := o <;> rfl

@[simp] theorem success?_map (f : α → β) :
    (o.map f).success? = o.success?.map fun p => (f p.1, p.2) := by
  obtain ⟨_ | _, s, es⟩ := o <;> rfl

@[simp] theorem success?_andThen (k : α → S → Outcome R S β) :
    (o.andThen k).success? = o.success?.bind fun p => (k p.1 p.2).success? := by
  obtain ⟨_ | _, s, es⟩ := o <;> rfl

end Outcome

/-! ## Exact amounts -/

/-- Amounts that add up without rounding. -/
structure Amount.Exact (R : Type) [Amount R] : Prop where
  add_assoc (x y z : R) : x + y + z = x + (y + z)
  add_zero (x : R) : x + 0 = x

theorem Amount.exact_rat : Exact Rat := ⟨Rat.add_assoc, Rat.add_zero⟩

/-- In two stages or in one, the sum is the same. -/
theorem Amount.Exact.add_sum_append {R : Type} [Amount R] (h : Exact R) (x : R) (ys zs : List R) :
    x + sum (ys ++ zs) = x + sum ys + sum zs := by
  have : Std.Associative fun x y : R => x + y := ⟨h.add_assoc⟩
  calc x + sum (ys ++ zs)
    _ = x + zs.foldl (· + ·) (sum ys) := congrArg (x + ·) List.foldl_append
    _ = zs.foldl (· + ·) (x + sum ys + 0) := by rw [h.add_zero, List.foldl_assoc]
    _ = x + sum ys + sum zs := List.foldl_assoc

variable {E S K X O T A R : Type}

theorem Environment.run?_cons [Environment E O A R] (e : E) (c : Act A) (cs : List (Act A)) :
    run? e (c :: cs) = (call e c).success?.bind fun p =>
      (run? p.2 cs).map fun q => (p.1 :: q.1, q.2) := by
  rw [run?, Outcome.success?]
  cases (call e c).result <;> rfl

/-! ## Goals -/

section Goals

variable [Amount R] [Simulator S R] [Gate K R] (reading : Except String Fluents) (last : Bool)

/-- What every goal answers to a tick on one reading, and the goals after it, if all succeed. -/
def ticks? : List (Goal S K) → Option (List (Nat × R) × List (Goal S K))
  | [] => some ([], [])
  | g :: gs => reading.toOption.bind fun I => (g.step I last).success?.bind fun p =>
      (ticks? gs).map fun q => (p.1 :: q.1, p.2 :: q.2)

theorem ticks?_append (gs hs : List (Goal S K)) :
    ticks? reading last (gs ++ hs) = (ticks? reading last gs).bind fun p =>
      (ticks? reading last hs).map fun q => (p.1 ++ q.1, p.2 ++ q.2) := by
  induction gs with
  | nil => simp [ticks?]
  | cons g gs ih =>
    simp only [List.cons_append, ticks?, ih, Option.map_bind, Option.bind_assoc,
      Option.bind_map, Function.comp_def, Option.map_map]

/-- The states of goals that have been reset, and the goals after the reset, if no goal fails. -/
def settled? (observeReset : Bool) (gs : List (Goal S K)) : Option (List Nat × List (Goal S K)) :=
  (if observeReset then (ticks? (R := R) reading false gs).map (·.2) else some gs).bind fun gs =>
    (gs.mapM Goal.state?).map fun qs => (qs, gs)

/-- The states of the first goals can be asked for before the others tick. -/
theorem settled?_append (observeReset : Bool) (gs hs : List (Goal S K)) :
    settled? reading observeReset (gs ++ hs) = (settled? reading observeReset gs).bind fun p =>
      (settled? reading observeReset hs).map fun q => (p.1 ++ q.1, p.2 ++ q.2) := by
  have hstates (gs hs : List (Goal S K)) : (gs ++ hs).mapM Goal.state? =
      (gs.mapM Goal.state?).bind fun qs => (hs.mapM Goal.state?).map (qs ++ ·) := by
    rw [List.mapM_append]
    cases gs.mapM Goal.state? <;> cases hs.mapM Goal.state? <;> rfl
  unfold settled?
  cases observeReset with
  | false =>
    simp only [Bool.false_eq_true, if_false, Option.bind_some, hstates]
    cases gs.mapM Goal.state? <;> cases hs.mapM Goal.state? <;> rfl
  | true =>
    simp only [if_true, ticks?_append]
    cases ticks? reading false gs with
    | none => rfl
    | some p =>
      cases ticks? reading false hs with
      | none => cases h : p.2.mapM Goal.state? <;> simp [h]
      | some q =>
        simp only [Option.bind_some, Option.map_some, hstates]
        cases p.2.mapM Goal.state? <;> cases q.2.mapM Goal.state? <;> rfl

end Goals

namespace Monitored

/-! ## Layers -/

/-- Environments with goals that a function of the observations informs, and whose states join the
    observations. -/
abbrev Layer (E S K O A : Type) : Type :=
  Monitored E S K (O → Option A → Except String Fluents) O (O × List Nat)

/-- An environment with goals that the function `f` informs. -/
def layer (e : E) (gs : List (Goal S K)) (f : O → Option A → Except String Fluents)
    (observeReset : Bool) : Layer E S K O A :=
  { environment := e, goals := gs, sensor := f, combine := Prod.mk, observeReset }

/-- The goals `hs` around the goals `gs` around an environment: the function `f` reads the inner
    observation, without the states that have been added to it. -/
abbrev stacked (e : E) (gs hs : List (Goal S K)) (f : O → Option A → Except String Fluents)
    (observeReset : Bool) : Layer (Layer E S K O A) S K (O × List Nat) A :=
  layer (layer e gs f observeReset) hs (fun p => f p.1) observeReset

/-- The one environment has all the goals in one layer, the other the last of them in a second. -/
inductive Layered (f : O → Option A → Except String Fluents) (observeReset : Bool) :
    Layer E S K O A → Layer (Layer E S K O A) S K (O × List Nat) A → Prop
  | mk (e : E) (gs hs : List (Goal S K)) : Layered f observeReset
      (layer e (gs ++ hs) f observeReset) (stacked e gs hs f observeReset)

section Verdicts

variable [Simulator S R] {f : O → Option A → Except String Fluents} {observeReset : Bool}
  {m : Layer E S K O A} {m' : Layer (Layer E S K O A) S K (O × List Nat) A}

theorem Layered.allTrue (h : Layered f observeReset m m') :
    m.allTrue = (m'.environment.allTrue && m'.allTrue) := by
  obtain ⟨e, gs, hs⟩ := h
  exact List.all_append

theorem Layered.anyFailed (h : Layered f observeReset m m') :
    m.anyFailed = (m'.environment.anyFailed || m'.anyFailed) := by
  obtain ⟨e, gs, hs⟩ := h
  exact List.any_append

end Verdicts

/-! ## One layer -/

variable [Amount R] [Simulator S R] [Gate K R]

theorem success?_tickAll_cons [Sensor X O A] (x : X) (o : O) (a? : Option A) (last : Bool)
    (g : Goal S K) (gs : List (Goal S K)) :
    (tickAll o a? last x (g :: gs)).success? = (tick o a? last x g).success?.bind fun p =>
      (tickAll o a? last p.2.1 gs).success?.map fun q => (p.1 :: q.1, q.2.1, p.2.2 :: q.2.2) := by
  cases ht : (tick o a? last x g).result with
  | error e => simp [tickAll, ht, Outcome.success?_of_error ht]
  | ok p => simp [tickAll, ht, Outcome.success?_of_ok ht, Option.map_map, Function.comp_def]

section Tick

variable (f : O → Option A → Except String Fluents) (o : O) (a? : Option A) (last : Bool)

theorem success?_tick (g : Goal S K) :
    (tick o a? last f g).success? = (f o a?).toOption.bind fun I =>
      (g.step I last).success?.map fun p => (p.1, f, p.2) := by
  have hread : Sensor.read f o a? = (f o a?, f) := rfl
  unfold tick
  rw [hread]
  cases f o a? with
  | error cause => rfl
  | ok I =>
    simp only [Outcome.success?_within, Outcome.success?_andThen, Outcome.success?_done]
    change _ = (g.step I last).success?.map _
    cases (g.step I last).success? <;> rfl

theorem success?_tickAll (gs : List (Goal S K)) :
    (tickAll o a? last f gs).success? =
      (ticks? (f o a?) last gs).map fun p => (p.1, f, p.2) := by
  induction gs with
  | nil => rfl
  | cons g gs ih =>
    rw [success?_tickAll_cons, success?_tick, ticks?]
    cases (f o a?).toOption with
    | none => rfl
    | some I =>
      cases hg : (g.step I last).success? with
      | none => simp [hg]
      | some p => simp [hg, ih, Option.map_map, Function.comp_def]

end Tick

variable (e : E) (gs hs : List (Goal S K)) (f : O → Option A → Except String Fluents)
  (observeReset : Bool)

theorem success?_observe_layer (o : O) (a? : Option A) (last : Bool) :
    ((layer e gs f observeReset).observe o a? last).success? =
      (ticks? (f o a?) last gs).map fun p => (p.1, layer e p.2 f observeReset) := by
  rw [observe, Outcome.success?_within, layer, success?_tickAll, Option.map_map]
  rfl

theorem success?_settle_layer (o : O) :
    ((layer e gs f observeReset).settle (A := A) o).success? =
      (settled? (f o none) observeReset gs).map fun p => ((o, p.1), layer e p.2 f observeReset) := by
  have hjoin (gs : List (Goal S K)) : ((layer e gs f observeReset).join o).success? =
      (gs.mapM Goal.state?).map fun qs => ((o, qs), layer e gs f observeReset) := by
    unfold join states? layer
    cases gs.mapM Goal.state? <;> rfl
  unfold settle settled?
  cases observeReset with
  | false =>
    simp only [layer, Bool.false_eq_true, if_false, Option.bind_some, Option.map_map]
    exact hjoin gs
  | true =>
    change (((layer e gs f true).observe o (none : Option A) false).andThen
      fun _ m => m.join o).success? = _
    rw [Outcome.success?_andThen, success?_observe_layer]
    cases ticks? (f o none) false gs with
    | none => rfl
    | some p =>
      simp only [Option.map_some, Option.bind_some, if_true, Option.map_map]
      exact hjoin p.2

variable [Environment E O A R]

theorem success?_reset_layer :
    (Environment.reset (layer e gs f observeReset)).success? =
      (Environment.reset e).success?.bind fun p =>
        (settled? (f p.1 none) observeReset (gs.map (·.reset.1))).map fun q =>
          ((p.1, q.1), layer p.2 q.2 f observeReset) := by
  change (((Environment.reset e).within (layer · gs f observeReset)).andThen fun o m =>
    m.restartGoals.andThen fun _ m => m.settle (A := A) o).success? = _
  rw [Outcome.success?_andThen, Outcome.success?_within]
  cases (Environment.reset e).success? with
  | none => rfl
  | some p => exact success?_settle_layer p.2 (gs.map (·.reset.1)) f observeReset p.1

theorem success?_step_layer (a : A) :
    (Environment.step (layer e gs f observeReset) a).success? =
      (Environment.step e a).success?.bind fun p =>
        (ticks? (f p.1.observation (some a)) p.1.done gs).map fun q =>
          ({ observation := (p.1.observation, q.1.map (·.1))
             reward := p.1.reward + Amount.sum (q.1.map (·.2))
             done := p.1.done
             info := p.1.info }, layer p.2 q.2 f observeReset) := by
  change (((Environment.step e a).within (layer · gs f observeReset)).andThen fun s m =>
    (m.observe s.observation (some a) s.done).map _).success? = _
  rw [Outcome.success?_andThen, Outcome.success?_within]
  cases (Environment.step e a).success? with
  | none => rfl
  | some p =>
    simp only [Option.map_some, Option.bind_some, Outcome.success?_map, success?_observe_layer,
      Option.map_map]
    rfl

/-! ## Two layers -/

/-- The states that two layers add, as one list. -/
def flatten (p : (O × List Nat) × List Nat) : O × List Nat := (p.1.1, p.1.2 ++ p.2)

/-- What one layer replies when two layers reply the second. -/
def Flattens : Reply (O × List Nat) R → Reply ((O × List Nat) × List Nat) R → Prop
  | .started p, .started q => p = flatten q
  | .stepped s, .stepped t => s.observation = flatten t.observation ∧ s.done = t.done ∧
      s.info = t.info ∧ (Amount.Exact R → s.reward = t.reward)
  | _, _ => False

variable {f} {observeReset}
  {m : Layer E S K O A} {m' : Layer (Layer E S K O A) S K (O × List Nat) A}

/-- **A call of two layers succeeds exactly when one of one layer does.** -/
theorem Layered.call (h : Layered f observeReset m m') (c : Act A) :
    Option.Rel (fun p q => Flattens p.1 q.1 ∧ Layered f observeReset p.2 q.2)
      (Environment.call m c).success? (Environment.call m' c).success? := by
  obtain ⟨e, gs, hs⟩ := h
  cases c with
  | reset =>
    simp only [Environment.call, Outcome.success?_map, success?_reset_layer, List.map_append,
      settled?_append]
    cases (Environment.reset e).success? with
    | none => exact .none
    | some p =>
      simp only [Option.bind_some]
      cases settled? (f p.1 none) observeReset (gs.map (·.reset.1)) with
      | none => exact .none
      | some q =>
        simp only [Option.bind_some, Option.map_some]
        cases settled? (f p.1 none) observeReset (hs.map (·.reset.1)) with
        | none => exact .none
        | some r => exact .some ⟨rfl, .mk p.2 q.2 r.2⟩
  | step a =>
    simp only [Environment.call, Outcome.success?_map, success?_step_layer, ticks?_append]
    cases (Environment.step e a).success? with
    | none => exact .none
    | some p =>
      simp only [Option.bind_some]
      cases ticks? (f p.1.observation (some a)) p.1.done gs with
      | none => exact .none
      | some q =>
        simp only [Option.bind_some, Option.map_some]
        cases ticks? (f p.1.observation (some a)) p.1.done hs with
        | none => exact .none
        | some r =>
          refine .some ⟨⟨?_, rfl, rfl, fun hR => ?_⟩, .mk p.2 q.2 r.2⟩
          · simp [flatten]
          · simp only [List.map_append]
            exact hR.add_sum_append _ _ _

/-- **So does a run.** -/
theorem Layered.run (h : Layered f observeReset m m') (cs : List (Act A)) :
    Option.Rel (fun p q => List.Forall₂ Flattens p.1 q.1 ∧ Layered f observeReset p.2 q.2)
      (Environment.run? m cs) (Environment.run? m' cs) := by
  induction cs generalizing m m' with
  | nil => exact .some ⟨.nil, h⟩
  | cons c cs ih =>
    rw [Environment.run?_cons, Environment.run?_cons]
    have hcall := h.call c
    generalize (Environment.call m c).success? = w at hcall
    generalize (Environment.call m' c).success? = v at hcall
    cases hcall with
    | none => exact .none
    | @some p q hpq =>
      have hrest := ih hpq.2
      simp only [Option.bind_some]
      generalize Environment.run? p.2 cs = w at hrest
      generalize Environment.run? q.2 cs = v at hrest
      cases hrest with
      | none => exact .none
      | some hrest => exact .some ⟨.cons hpq.1 hrest.1, hrest.2⟩

theorem Layered.observations (h : Layered f observeReset m m') :
    Environment.observations m = Environment.observations m' := by
  obtain ⟨e, gs, hs⟩ := h
  change Space.multi _ = Space.multi _
  simp [layer, space, Environment.observations]

theorem Layered.actions (h : Layered f observeReset m m') :
    Environment.actions m = Environment.actions m' := by
  obtain ⟨e, gs, hs⟩ := h
  rfl

end Monitored

/-- **Two layers of goals do what one layer does.**  Take the goals `gs ++ hs` around an
    environment, or `hs` around `gs` around it, all informed by one function of the observations of
    the environment, which may fail.  A run without failures of the one is a run without failures of
    the other, and then the replies are the same, but that two layers add the states of `gs` and
    those of `hs` one after the other; the rewards are the same in exact amounts.  After it all
    goals of the one layer are reached if those of both are, one of them cannot be reached if that
    is so in one of the two, and the observations and actions are of the same shape. -/
theorem layers_flatten [Amount R] [Simulator S R] [Gate K R] [Environment E O A R] (e : E)
    (gs hs : List (Goal S K)) (f : O → Option A → Except String Fluents) (observeReset : Bool)
    (cs : List (Act A)) :
    (match Environment.run? (Monitored.layer e (gs ++ hs) f observeReset) cs,
        Environment.run? (Monitored.stacked e gs hs f observeReset) cs with
      | none, none => True
      | some (ys, m), some (zs, m') =>
          List.Forall₂ Monitored.Flattens ys zs ∧
          m.allTrue = (m'.environment.allTrue && m'.allTrue) ∧
          m.anyFailed = (m'.environment.anyFailed || m'.anyFailed) ∧
          Environment.observations m = Environment.observations m' ∧
          Environment.actions m = Environment.actions m'
      | _, _ => False) ∧
    Amount.Exact Rat := by
  refine ⟨?_, Amount.exact_rat⟩
  have hlayers : Monitored.Layered f observeReset (Monitored.layer e (gs ++ hs) f observeReset)
      (Monitored.stacked e gs hs f observeReset) := .mk e gs hs
  have hrun := hlayers.run cs
  generalize Environment.run? (Monitored.layer e (gs ++ hs) f observeReset) cs = w at hrun ⊢
  generalize Environment.run? (Monitored.stacked e gs hs f observeReset) cs = v at hrun ⊢
  cases hrun with
  | none => trivial
  | some h => exact ⟨h.1, h.2.allTrue, h.2.anyFailed, h.2.observations, h.2.actions⟩

end GoalAutomata
