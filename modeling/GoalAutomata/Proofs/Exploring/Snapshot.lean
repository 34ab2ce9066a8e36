/-
  The snapshot of the potentials is never stale.

  A simulator finds its potentials anew at every reset, and at a step only if the
  discovery says that the graph has changed.  That is enough: the flag is raised
  exactly when the configurations, the transitions or the classifications change
  (`KnownGraph.changed_iff_of_record`), a bonus is only given to a new state, and a
  new state raises the flag.  So at all times the current snapshot is the one that
  would be found from the graph and the bonuses as they are
  (`ExploringSimulator.IsFresh`).

  `EagerSimulator` finds its snapshot anew at every step.  It never differs
  (`EagerSimulator.step_eq`).
-/
import GoalAutomata.Proofs.Exploring
import GoalAutomata.Proofs.KnownGraph.Observed

namespace GoalAutomata

namespace KnownGraph

variable {C : Type} {G H : KnownGraph C} {q r : Nat} {label : Fluents} {c : C}
  {accepting failed : Bool}

/-! ## What the flag of a discovery says -/

@[simp] theorem rows_classify : (G.classify q accepting failed).1.rows = G.rows := by
  unfold classify; split_ifs <;> rfl

theorem connected_iff : (G.connect q label r).2 = true ↔ (G.connect q label r).1.rows ≠ G.rows := by
  by_cases hl : label ∈ G.row q
  · simp [connect, hl]
  · have hflag : (G.connect q label r).2 = true := by simp [connect, hl]
    have hrow : (G.connect q label r).1.row q = (G.row q).insert label r := by
      rw [row_connect, if_pos ⟨hl, rfl⟩]
    refine iff_of_true hflag fun heq => hl ?_
    have hsame : (G.connect q label r).1.row q = G.row q := by
      rw [row, heq]
      rfl
    rw [← hsame, hrow]
    exact Std.ExtTreeMap.mem_insert_self

theorem insert_ne_iff {s : States} : s.insert q ≠ s ↔ s.contains q = false := by
  rw [← Bool.not_eq_true, Std.ExtTreeSet.contains_iff_mem, not_iff_not]
  constructor
  · intro h
    rw [← h]
    exact Std.ExtTreeSet.mem_insert_self
  · intro h
    refine Std.ExtTreeSet.ext_mem fun p => ?_
    rw [States.mem_insert]
    exact or_iff_left_of_imp fun hp => hp ▸ h

theorem classified_iff : (G.classify q accepting failed).2 = true ↔
    (G.classify q accepting failed).1.accepting ≠ G.accepting ∨
      (G.classify q accepting failed).1.failures ≠ G.failures := by
  unfold classify
  split_ifs
  · simp [insert_ne_iff]
  · simp [insert_ne_iff]
  · simp

theorem connect_eq_self (h : (G.connect q label r).2 = false) : (G.connect q label r).1 = G := by
  by_cases hl : label ∈ G.row q
  · simp [connect, hl]
  · simp [connect, hl] at h

theorem classify_eq_self (h : (G.classify q accepting failed).2 = false) :
    (G.classify q accepting failed).1 = G := by
  have hinsert : ∀ s : States, s.contains q = true → s.insert q = s := fun s hs =>
    by_contra fun hne => by simp [insert_ne_iff.1 hne] at hs
  unfold classify at h ⊢
  split_ifs at h ⊢ with hf ha
  · simp [hinsert G.failures (by simpa using h)]
  · simp [hinsert G.accepting (by simpa using h)]
  · rfl

section Record

variable [DecidableEq C] {R : Type} {d : Discovery}

/-- **The flag is raised exactly where something of the graph changes**, and always for a new
    state. -/
theorem changed_iff_of_record
    (h : (G.record q label c accepting failed : Outcome R _ _) = .done d H) :
    (d.changed = true ↔ H.configurations ≠ G.configurations ∨ H.rows ≠ G.rows ∨
      H.accepting ≠ G.accepting ∨ H.failures ≠ G.failures) ∧
    (d.isNew = true → d.changed = true) := by
  obtain ⟨K, he, rfl, hchanged⟩ := exists_enter_of_record h
  have henter : (d.isNew = true ↔ K.configurations ≠ G.configurations) ∧ K.rows = G.rows ∧
      K.accepting = G.accepting ∧ K.failures = G.failures := by
    rcases cases_of_enter he with ⟨-, hn, rfl⟩ | ⟨-, -, -, hn, rfl⟩
    · simp [hn]
    · simp [hn, add]
  obtain ⟨hnew, hrows, hacc, hfail⟩ := henter
  have hconn : (K.connect q label d.state).2 = true ↔
      (K.connect q label d.state).1.rows ≠ K.rows :=
    connected_iff
  have hclass : ((K.connect q label d.state).1.classify d.state accepting failed).2 = true ↔
      ((K.connect q label d.state).1.classify d.state accepting failed).1.accepting ≠
          (K.connect q label d.state).1.accepting ∨
        ((K.connect q label d.state).1.classify d.state accepting failed).1.failures ≠
          (K.connect q label d.state).1.failures :=
    classified_iff
  simp only [accepting_connect, failures_connect, hacc, hfail] at hclass
  rw [hrows] at hconn
  constructor
  · simp only [hchanged, Bool.or_eq_true, configurations_classify, configurations_connect,
      rows_classify, hnew, hconn, hclass, or_assoc]
  · intro hn
    simp [hchanged, hn]

/-- Without the flag the graph is as it was. -/
theorem eq_of_record_unchanged
    (h : (G.record q label c accepting failed : Outcome R _ _) = .done d H)
    (hd : d.changed = false) : H = G := by
  obtain ⟨K, he, rfl, hchanged⟩ := exists_enter_of_record h
  rw [hd, eq_comm, Bool.or_eq_false_iff, Bool.or_eq_false_iff] at hchanged
  obtain ⟨⟨hnew, hconn⟩, hclass⟩ := hchanged
  rw [classify_eq_self hclass, connect_eq_self hconn]
  rcases cases_of_enter he with ⟨-, -, rfl⟩ | ⟨-, -, -, hn, -⟩
  · rfl
  · cases hn.symm.trans hnew

end Record

end KnownGraph

/-! ## Fresh snapshots -/

namespace ExploringSimulator

variable {C R : Type} [Amount R] {S : ExploringSimulator C R} {O : Unfolding C} {reward : R}
  {config : Exploration R}

/-- The current snapshot is that of the graph and the bonuses as they are. -/
def IsFresh (S : ExploringSimulator C R) : Prop :=
  S.current = S.graph.potentials S.bonuses S.reward

/-- The simulator with a current snapshot found anew. -/
def refreshed (S : ExploringSimulator C R) : ExploringSimulator C R :=
  { S with current := S.graph.potentials S.bonuses S.reward }

theorem IsFresh.refreshed_eq (h : S.IsFresh) : S.refreshed = S := by
  rw [refreshed, ← h]

theorem isFresh_new (O : Unfolding C) (reward : R) (config : Exploration R) :
    (new O reward config).IsFresh := rfl

theorem isFresh_reset (S : ExploringSimulator C R) : S.reset.1.IsFresh := rfl

section Step

variable [DecidableEq C] {I : Fluents} {last : Bool}

/-- **A step leaves a fresh snapshot**, although it only finds a new one where the graph changes. -/
theorem IsFresh.advance {q : Nat} {label : Fluents} {b : C} {G : KnownGraph C} {d : Discovery}
    {accepting failed : Bool} (h : S.IsFresh)
    (hr : (S.graph.record q label b accepting failed : Outcome R _ _) = .done d G) :
    (S.advance b G d).IsFresh := by
  unfold IsFresh ExploringSimulator.advance
  cases hd : d.changed with
  | true => simp
  | false =>
    have hold : G = S.graph := KnownGraph.eq_of_record_unchanged hr hd
    -- a new state would have raised the flag, so no bonus has been given either
    have hnew : d.isNew = false := by
      rw [← Bool.not_eq_true]
      intro hn
      rw [(KnownGraph.changed_iff_of_record hr).2 hn] at hd
      cases hd
    have hsame : S.current = S.graph.potentials S.bonuses S.reward := h
    simp [hnew, hold, hsame]

theorem IsFresh.step (h : S.IsFresh) (I : Fluents) (last : Bool) :
    (S.step I last).state.IsFresh := by
  rcases state_cases S I last with hs | ⟨_, _, _, _, _, -, -, hr, hs⟩
  · rwa [hs]
  · rw [hs]
    exact h.advance hr

theorem isFresh_after (O : Unfolding C) (reward : R) (config : Exploration R) (cs : List Call) :
    (Simulator.after (new O reward config) cs).IsFresh :=
  Simulator.after_induction (isFresh_new O reward config) (fun S _ => isFresh_reset S)
    (fun _ I last h => h.step I last) cs

end Step

end ExploringSimulator

/-! ## A simulator that looks again at every step -/

/-- A simulator that finds its current snapshot anew at every step, changed graph or not. -/
structure EagerSimulator (C R : Type) where
  base : ExploringSimulator C R

namespace EagerSimulator

variable {C R : Type} [Amount R]

/-- An unstarted simulator that knows the initial configuration. -/
def new (O : Unfolding C) (reward : R) (config : Exploration R) : EagerSimulator C R :=
  ⟨.new O reward config⟩

variable [DecidableEq C]

/-- One step of the unfolding, recorded and paid from a snapshot found anew. -/
def step (E : EagerSimulator C R) (I : Fluents) (last : Bool) :
    Outcome R (EagerSimulator C R) (Nat × R) :=
  (Outcome.require E.base.position? .notStarted E).andThen fun (q, c) E =>
  (Outcome.ask (E.base.oracle.successor c I) E (E.base.oracle.remarks c I)).andThen fun c' E =>
  ((E.base.graph.record q (E.base.graph.label I) c' (E.base.oracle.isAccepting c')
      (E.base.oracle.isFailed c')).within (⟨{ E.base with graph := · }⟩)).andThen fun d E =>
  let T := (E.base.advance c' E.base.graph d).refreshed
  .done (d.state, T.pay q d.state last) ⟨T⟩ (T.discoveryRemarks q I d)

instance : Simulator (EagerSimulator C R) R where
  reset E := (⟨E.base.reset.1⟩, E.base.reset.2)
  step := step
  state? E := Simulator.state? E.base
  isTrue E := Simulator.isTrue E.base
  isFailed E := Simulator.isFailed E.base
  width E := Simulator.width E.base
  reward E := Simulator.reward E.base
  automaton E := Simulator.automaton E.base
  rename name E := ⟨Simulator.rename name E.base⟩

variable {S : ExploringSimulator C R}

/-- **Looking again brings nothing new**: the outcome of a step is the same, its events included. -/
theorem step_eq (h : S.IsFresh) (I : Fluents) (last : Bool) :
    Simulator.step (⟨S⟩ : EagerSimulator C R) I last = (Simulator.step S I last).within .mk := by
  change EagerSimulator.step ⟨S⟩ I last = (ExploringSimulator.step S I last).within .mk
  unfold EagerSimulator.step ExploringSimulator.step
  cases S.position? with
  | none => rfl
  | some p =>
    obtain ⟨q, c⟩ := p
    simp only [Outcome.require_some, Outcome.andThen_done]
    cases hb : S.oracle.successor c I with
    | error e => rfl
    | ok b =>
      simp only [Outcome.ask_ok, Outcome.andThen_done]
      rcases KnownGraph.record_cases (R := R) S.graph q (S.graph.label I) b
        (S.oracle.isAccepting b) (S.oracle.isFailed b) with ⟨d, G, hr⟩ | ⟨-, -, hr⟩
      · rw [hr]
        simp only [Outcome.within_done, Outcome.andThen_done]
        have hsame : ({ S with graph := G } : ExploringSimulator C R).advance b G d =
            S.advance b G d := rfl
        rw [hsame, (h.advance hr).refreshed_eq]
        rfl
      · rw [hr]
        rfl

/-- Along a run both simulators stay the same. -/
theorem run_eq (h : S.IsFresh) (cs : List Call) :
    Simulator.answers (⟨S⟩ : EagerSimulator C R) cs = Simulator.answers S cs ∧
      Simulator.after (⟨S⟩ : EagerSimulator C R) cs = ⟨Simulator.after S cs⟩ := by
  induction cs generalizing S with
  | nil => exact ⟨rfl, rfl⟩
  | cons k cs ih =>
    have hcall : Simulator.call (⟨S⟩ : EagerSimulator C R) k =
        (⟨(Simulator.call S k).1⟩, (Simulator.call S k).2) := by
      cases k with
      | reset => rfl
      | step I last =>
        rw [Simulator.call, step_eq h]
        rfl
    have hfresh : (Simulator.call S k).1.IsFresh := by
      cases k with
      | reset => exact ExploringSimulator.isFresh_reset S
      | step I last => exact h.step I last
    obtain ⟨hanswers, hafter⟩ := ih hfresh
    rw [Simulator.answers, Simulator.after_cons, hcall]
    exact ⟨by rw [hanswers, Simulator.answers], hafter⟩

end EagerSimulator

/-- **The cached snapshot is never stale.**  After any calls, failed ones included, the current
    snapshot of a simulator is the one found from its graph and its bonuses.  A successful step
    makes the snapshot that was current the prior one, a failed one changes nothing, and after a
    reset both are the same.  A simulator that finds its snapshot anew at every step gives the same
    answers, reports the same events and is left in the same state.  For recording raises the flag
    of a change exactly where the configurations, the transitions or one of the classifications
    differ afterwards, in any graph, and always for a new state; without the flag the whole graph is
    as it was. -/
theorem snapshots_are_current {C R : Type} [DecidableEq C] [Amount R] :
    (∀ (O : Unfolding C) (reward : R) (config : Exploration R) (cs : List Call),
      let E := ExploringSimulator.new O reward config
      let S := Simulator.after E cs
      S.current = S.graph.potentials S.bonuses reward ∧
      (∀ I last p, (Simulator.step S I last).result = .ok p →
        (Simulator.step S I last).state.prior = S.current) ∧
      (∀ I last e, (Simulator.step S I last).result = .error e →
        (Simulator.step S I last).state = S) ∧
      (Simulator.reset S).1.prior = (Simulator.reset S).1.current ∧
      Simulator.answers (EagerSimulator.new O reward config) cs = Simulator.answers E cs ∧
      Simulator.after (EagerSimulator.new O reward config) cs = ⟨S⟩ ∧
      ∀ I last, Simulator.step (⟨S⟩ : EagerSimulator C R) I last =
        (Simulator.step S I last).within .mk) ∧
    ∀ (G : KnownGraph C) (q : Nat) (label : Fluents) (c : C) (accepting failed : Bool)
      (d : Discovery), (G.record q label c accepting failed : Outcome R _ _).result = .ok d →
      let H := (G.record q label c accepting failed : Outcome R _ _).state
      (d.changed = true ↔ H.configurations ≠ G.configurations ∨ H.rows ≠ G.rows ∨
        H.accepting ≠ G.accepting ∨ H.failures ≠ G.failures) ∧
      (d.changed = false → H = G) ∧ (d.isNew = true → d.changed = true) := by
  refine ⟨?_, fun G q label c accepting failed d h => ?_⟩
  on_goal 2 =>
    have hr := KnownGraph.record_eq_done h
    obtain ⟨hchanged, hnew⟩ := KnownGraph.changed_iff_of_record hr
    exact ⟨hchanged, KnownGraph.eq_of_record_unchanged hr, hnew⟩
  intro O reward config cs E S
  have hfresh : S.IsFresh := ExploringSimulator.isFresh_after O reward config cs
  have hreward : S.reward = reward := (ExploringSimulator.explores_after O reward config cs).reward
  obtain ⟨hanswers, hafter⟩ :=
    EagerSimulator.run_eq (ExploringSimulator.isFresh_new O reward config) cs
  refine ⟨?_, ?_, ?_, rfl, hanswers, hafter, EagerSimulator.step_eq hfresh⟩
  · rw [← hreward]
    exact hfresh
  · intro I last p hp
    obtain ⟨_, _, b, G, d, -, -, -, -, -, hs⟩ := ExploringSimulator.exists_of_ok hp
    exact congrArg ExploringSimulator.prior hs
  · intro I last e he
    exact ExploringSimulator.state_of_error he

end GoalAutomata
