/-
  Discovery refines complete knowledge.

  The same calls are made to a simulator that discovers the unfolding of an
  automaton and to one that knows the automaton.  The states of the former are
  numbered by discovery, but their configurations are the states of the latter
  (`Tracks`), as long as the graph has room.  The sink is a configuration like any
  other.  A step fails only where a state is new and the room is used up.

  * `Tracks.step`: one step keeps two simulators together;
  * `Discovers.step_eq_error_iff`: when a step fails;
  * `exploring_refines_complete`: what this means for runs over a table.
-/
import GoalAutomata.Proofs.Complete
import GoalAutomata.Proofs.Dfa
import GoalAutomata.Proofs.Exploring
import Mathlib.Data.List.Perm.Basic

namespace GoalAutomata

variable {R : Type} {A : Automaton} {alphabet : Fluents} {reward : R}
  {config : Exploration R} {shaping : Shaping R} {S : ExploringSimulator Nat R}
  {T : CompleteSimulator R}

/-! ## Discovering an automaton -/

/-- `S` discovers the automaton `A`, and knows none but its states and its sink. -/
structure Discovers (A : Automaton) (alphabet : Fluents) (reward : R) (config : Exploration R)
    (S : ExploringSimulator Nat R) : Prop where
  explores : S.Explores (A.unfold alphabet) reward config
  bounded : ∀ c ∈ S.graph.configurations, c ∈ A.allStates

namespace Discovers

/-- The oracle is the automaton, which has a successor wherever the simulator is. -/
theorem exists_successor (hA : A.Closed) (h : Discovers A alphabet reward config S) {q c : Nat}
    (hp : S.position? = some (q, c)) (I : Fluents) :
    ∃ r ∈ A.allStates, A.successor c I = .ok r ∧ S.oracle.successor c I = .ok r := by
  have hc := h.bounded c (List.mem_of_getElem? (h.explores.position q c hp))
  obtain ⟨r, hr, hsucc⟩ := hA.successor c hc I
  refine ⟨r, hr, hsucc, ?_⟩
  rw [h.explores.oracle]
  exact hsucc

/-- An accepting state is no failure, so the graph accepts what the automaton does. -/
theorem mem_accepting_iff (hA : A.Closed) (h : Discovers A alphabet reward config S) {q c : Nat}
    (hc : S.graph.configuration? q = some c) :
    q ∈ S.graph.accepting ↔ A.isAccepting c = true := by
  refine (h.explores.faithful.mem_accepting_iff hc).trans (and_iff_left_of_imp fun ha => ?_)
  have hreach := Automaton.reaches_of_mem_accepting ((hA.accepting c).1 ha)
  change (Levels.ofAutomaton A).failures.contains c = false
  rw [← Bool.not_eq_true, Std.ExtTreeSet.contains_iff_mem, Levels.mem_failures_iff]
  exact fun hf => hf.2 hreach

theorem mem_failures_iff (h : Discovers A alphabet reward config S) {q c : Nat}
    (hc : S.graph.configuration? q = some c) :
    q ∈ S.graph.failures ↔ (Levels.ofAutomaton A).isFailure c = true := by
  rw [h.explores.faithful.mem_failures_iff hc,
    Levels.isFailure_eq_contains (h.bounded c (List.mem_of_getElem? hc))]
  rfl

/-- A state that is not known yet leaves the number of known ones short of any bound on all. -/
theorem length_lt (h : Discovers A alphabet reward config S) {n r : Nat}
    (hn : ∀ q ∈ A.allStates, q < n) (hr : r ∈ A.allStates) (hnew : r ∉ S.graph.configurations) :
    S.graph.configurations.length < n := by
  have hnodup : (r :: S.graph.configurations).Nodup :=
    List.nodup_cons.2 ⟨hnew, h.explores.faithful.indexed.nodup⟩
  have hsub : r :: S.graph.configurations ⊆ List.range n := by
    intro q hq
    rcases List.mem_cons.1 hq with rfl | hq
    · exact List.mem_range.2 (hn q hr)
    · exact List.mem_range.2 (hn q (h.bounded q hq))
  have hlen := (List.subperm_of_subset hnodup hsub).length_le
  rw [List.length_cons, List.length_range] at hlen
  omega

variable [Amount R]

theorem reset (h : Discovers A alphabet reward config S) :
    Discovers A alphabet reward config (Simulator.reset S).1 :=
  ⟨h.explores.reset, h.bounded⟩

theorem step (hA : A.Closed) (h : Discovers A alphabet reward config S) (I : Fluents)
    (last : Bool) : Discovers A alphabet reward config (S.step I last).state where
  explores := h.explores.step I last
  bounded := by
    refine h.explores.forall_mem_configurations_step (fun c I b hc hb => ?_) h.bounded I last
    obtain ⟨r, hr, hsucc⟩ := hA.successor c hc I
    cases hsucc.symm.trans hb
    exact hr

theorem after (hA : A.Closed) (h : Discovers A alphabet reward config S) (cs : List Call) :
    Discovers A alphabet reward config (Simulator.after S cs) :=
  Simulator.after_induction h (fun _ h => h.reset) (fun _ I last h => h.step hA I last) cs

/-- **A step fails only where it would need a state too many.** -/
theorem step_eq_error_iff (h : Discovers A alphabet reward config S) {q c r : Nat}
    (hp : S.position? = some (q, c)) {I : Fluents} (hr : S.oracle.successor c I = .ok r)
    (last : Bool) (e : Error) : (S.step I last).result = .error e ↔
      e = .graphFull (max config.maxStates 1) ∧ r ∉ S.graph.configurations ∧
        S.graph.configurations.length = max config.maxStates 1 := by
  have hle := h.explores.faithful.size_le
  rw [h.explores.step_eq_error_iff hp hr, h.explores.capacity]
  rw [h.explores.capacity] at hle
  exact and_congr_right fun _ => and_congr_right fun _ => ⟨hle.antisymm, Eq.ge⟩

end Discovers

variable [Amount R]

theorem discovers_new (hA : A.Closed) (alphabet : Fluents) (reward : R) (config : Exploration R) :
    Discovers A alphabet reward config (.new (A.unfold alphabet) reward config) where
  explores := ExploringSimulator.explores_new _ _ _
  bounded c hc := by
    obtain rfl : c = A.initial := by
      simpa [ExploringSimulator.new, KnownGraph.new, Automaton.unfold] using hc
    exact hA.initial

/-! ## Side by side -/

/-- `S` discovers the automaton `A`, `T` knows it, and both are at the same of its states. -/
structure Tracks (A : Automaton) (alphabet : Fluents) (reward : R) (config : Exploration R)
    (shaping : Shaping R) (S : ExploringSimulator Nat R) (T : CompleteSimulator R) : Prop where
  discovers : Discovers A alphabet reward config S
  machine : T.machine = .new A reward
  shaping : T.shaping = shaping
  state : S.position?.map (·.2) = T.state?

theorem tracks_new (hA : A.Closed) (alphabet : Fluents) (reward : R) (config : Exploration R)
    (shaping : Shaping R) : Tracks A alphabet reward config shaping
      (.new (A.unfold alphabet) reward config) (.new A reward shaping) :=
  ⟨discovers_new hA alphabet reward config, rfl, rfl, rfl⟩

namespace Tracks

/-- **Both simulators agree on the state and on the verdicts.** -/
theorem agrees (hA : A.Closed) (h : Tracks A alphabet reward config shaping S T) :
    (Simulator.state? S).bind S.graph.configuration? = Simulator.state? T ∧
    Simulator.isTrue S = Simulator.isTrue T ∧ Simulator.isFailed S = Simulator.isFailed T := by
  change (S.position?.map (·.1)).bind _ = T.state? ∧
    (S.position?.any fun p => S.graph.accepting.contains p.1) = T.state?.any _ ∧
    (S.position?.any fun p => S.graph.failures.contains p.1) = T.state?.any _
  rw [← h.state, h.machine]
  cases hp : S.position? with
  | none => exact ⟨rfl, rfl, rfl⟩
  | some p =>
    obtain ⟨q, c⟩ := p
    have hc := h.discovers.explores.position q c hp
    refine ⟨hc, ?_, ?_⟩
    · change S.graph.accepting.contains q = A.isAccepting c
      rw [Bool.eq_iff_iff, Std.ExtTreeSet.contains_iff_mem, h.discovers.mem_accepting_iff hA hc]
    · change S.graph.failures.contains q = (Levels.ofAutomaton A).isFailure c
      rw [Bool.eq_iff_iff, Std.ExtTreeSet.contains_iff_mem, h.discovers.mem_failures_iff hc]

/-- With sparse payment both simulators pay the same for reaching the same state. -/
theorem pay_eq (hA : A.Closed) (h : Tracks A alphabet reward config shaping S T)
    (hS : config.shaping.mode = .sparse) (hT : shaping.mode = .sparse) {p q r c : Nat}
    (hc : S.graph.configuration? r = some c) (last : Bool) :
    S.pay p r last = T.pay q c last := by
  rw [ExploringSimulator.pay_sparse (by rw [h.discovers.explores.config, hS]),
    CompleteSimulator.pay_sparse (by rw [h.shaping, hT]), h.machine,
    h.discovers.explores.reward]
  change _ = if A.isAccepting c then reward else 0
  simp only [h.discovers.mem_accepting_iff hA hc]

/-- **One step keeps the simulators together**, unless the graph has no room for it; with sparse
    payment it pays the same. -/
theorem step (hA : A.Closed) (h : Tracks A alphabet reward config shaping S T) (I : Fluents)
    (last : Bool) (hroom : ∀ n, (S.step I last).result ≠ .error (.graphFull n)) :
    Tracks A alphabet reward config shaping (S.step I last).state (T.step I last).state ∧
    (config.shaping.mode = .sparse → shaping.mode = .sparse →
      (Answer.stepped (S.step I last).result).reward? =
        (Answer.stepped (T.step I last).result).reward?) := by
  have hstate := h.state
  rcases ExploringSimulator.step_cases S I last with ⟨hp, hr, hs⟩ | ⟨q, c, e, hp, he, -, -⟩ |
    ⟨_, _, _, -, -, -, -, hr, -⟩ | ⟨q, c, b, G, d, hp, hb, -, hr, hs⟩
  · rw [hp] at hstate
    rcases CompleteSimulator.step_cases T I last with ⟨-, hr', hs'⟩ | ⟨_, _, hq, -, -, -⟩ |
      ⟨_, _, hq, -, -, -⟩
    · rw [hs, hs', hr, hr']
      exact ⟨h, fun _ _ => rfl⟩
    · cases hstate.trans hq
    · cases hstate.trans hq
  · obtain ⟨r, -, -, hsucc⟩ := h.discovers.exists_successor hA hp I
    cases hsucc.symm.trans he
  · exact absurd hr (hroom _)
  · rw [hp] at hstate
    obtain ⟨r, -, hA', hsucc⟩ := h.discovers.exists_successor hA hp I
    cases hsucc.symm.trans hb
    have hT : T.machine.automaton.successor c I = .ok b := by
      rw [h.machine]
      exact hA'
    obtain ⟨hr', hs'⟩ := CompleteSimulator.step_of_successor last hstate.symm hT
    have hD := h.discovers.step hA I last
    rw [hs] at hD
    rw [hs, hs', hr, hr']
    have hnext : Tracks A alphabet reward config shaping (S.advance b G d)
        { T with state? := some b } := ⟨hD, h.machine, h.shaping, rfl⟩
    have hc := hD.explores.position d.state b rfl
    exact ⟨hnext, fun hsparse hsparse' =>
      congrArg some (hnext.pay_eq hA hsparse hsparse' hc last)⟩

theorem call (hA : A.Closed) (h : Tracks A alphabet reward config shaping S T) (k : Call)
    (hroom : ∀ n, (Simulator.call S k).2 ≠ .stepped (.error (.graphFull n))) :
    Tracks A alphabet reward config shaping (Simulator.call S k).1 (Simulator.call T k).1 ∧
    (config.shaping.mode = .sparse → shaping.mode = .sparse →
      (Simulator.call S k).2.reward? = (Simulator.call T k).2.reward?) := by
  cases k with
  | reset =>
    refine ⟨⟨h.discovers.reset, h.machine, h.shaping, ?_⟩, fun _ _ => rfl⟩
    change some S.oracle.initial = some T.machine.automaton.initial
    rw [h.discovers.explores.oracle, h.machine]
    rfl
  | step I last => exact h.step hA I last fun n hn => hroom n (congrArg Answer.stepped hn)

/-- **A run keeps the simulators together** as long as there is room. -/
theorem run (hA : A.Closed) (h : Tracks A alphabet reward config shaping S T) {cs : List Call}
    (hroom : ∀ n, .stepped (.error (.graphFull n)) ∉ Simulator.answers S cs) :
    Tracks A alphabet reward config shaping (Simulator.after S cs) (Simulator.after T cs) ∧
    (config.shaping.mode = .sparse → shaping.mode = .sparse →
      (Simulator.answers S cs).map Answer.reward? =
        (Simulator.answers T cs).map Answer.reward?) := by
  induction cs generalizing S T with
  | nil => exact ⟨h, fun _ _ => rfl⟩
  | cons k cs ih =>
    have hmem : ∀ n, _ ∉ (Simulator.call S k).2 :: Simulator.answers (Simulator.call S k).1 cs :=
      hroom
    obtain ⟨hnext, hpay⟩ := h.call hA k fun n hn => hmem n (hn ▸ List.mem_cons_self)
    obtain ⟨hlast, hrest⟩ := ih hnext fun n hn => hmem n (List.mem_cons_of_mem _ hn)
    refine ⟨hlast, fun hS hT => ?_⟩
    rw [Simulator.answers, Simulator.answers, List.map_cons, List.map_cons, hpay hS hT,
      hrest hS hT]

end Tracks

/-- **Discovery refines complete knowledge.**  Make any calls to a simulator that discovers the
    table `d` and to one that knows it.  As long as no step of the former fails for want of room,
    the configuration of its state is the state of the latter, both give the same verdicts, and
    both pay the same if both pay sparsely.  After a reset a step of the former fails only for
    want of room, and it does exactly where its destination has never been met and the graph knows
    as many states as it may, at least one; so it never fails if there is room for every state and
    the sink.  The known states are all different, and they are the initial one and those that
    have been met. -/
theorem exploring_refines_complete (d : Dfa) (alphabet : Fluents) (reward : R)
    (config : Exploration R) (shaping : Shaping R) (cs : List Call) :
    let E := ExploringSimulator.new (d.toAutomaton.unfold alphabet) reward config
    let M := CompleteSimulator.new d.toAutomaton reward shaping
    let S := Simulator.after E cs
    let T := Simulator.after M cs
    ((∀ n, .stepped (.error (.graphFull n)) ∉ Simulator.answers E cs) →
      ((Simulator.state? S).bind S.graph.configuration? = Simulator.state? T ∧
        Simulator.isTrue S = Simulator.isTrue T ∧
        Simulator.isFailed S = Simulator.isFailed T) ∧
      (config.shaping.mode = .sparse → shaping.mode = .sparse →
        (Simulator.answers E cs).map Answer.reward? =
          (Simulator.answers M cs).map Answer.reward?)) ∧
    (.reset ∈ cs → ∀ I last, ∃ q c r, Simulator.state? S = some q ∧
      S.graph.configuration? q = some c ∧ d.successor c I = .ok r ∧
      (∀ e, (Simulator.step S I last).result = .error e ↔
        e = .graphFull (max config.maxStates 1) ∧ ¬ E.Met cs r ∧
          S.graph.configurations.length = max config.maxStates 1) ∧
      (d.size + 1 ≤ config.maxStates → ∃ a, (Simulator.step S I last).result = .ok a)) ∧
    S.graph.configurations.Nodup ∧
    ∀ c, c ∈ S.graph.configurations ↔ c = d.initial ∨ E.Met cs c := by
  intro E M S T
  have hA := d.closed
  have hS : Discovers d.toAutomaton alphabet reward config S :=
    (discovers_new hA alphabet reward config).after hA cs
  have hconf : ∀ c, c ∈ S.graph.configurations ↔ c = d.initial ∨ E.Met cs c :=
    ExploringSimulator.mem_configurations_after _ _ _ cs
  refine ⟨fun hroom => ?_, fun hreset I last => ?_, hS.explores.faithful.indexed.nodup, hconf⟩
  · obtain ⟨htrack, hpay⟩ := (tracks_new hA alphabet reward config shaping).run hA hroom
    exact ⟨htrack.agrees hA, hpay⟩
  · obtain ⟨⟨q, c⟩, hp⟩ := ExploringSimulator.exists_position?_after (S := E) hreset
    obtain ⟨r, hr, hsucc, hsucc'⟩ := hS.exists_successor hA hp I
    have hinit : E.Met cs d.initial := ExploringSimulator.met_initial _ _ _ hreset
    have hnew : r ∉ S.graph.configurations ↔ ¬ E.Met cs r := by
      rw [hconf, or_iff_right_of_imp]
      rintro rfl
      exact hinit
    have herror := hS.step_eq_error_iff hp hsucc' last
    have hstate : Simulator.state? S = some q := congrArg (Option.map Prod.fst) hp
    refine ⟨q, c, r, hstate, hS.explores.position q c hp, hsucc, fun e => ?_, fun hroom => ?_⟩
    · rw [← hnew]
      exact herror e
    · cases hres : (S.step I last).result with
      | ok a => exact ⟨a, rfl⟩
      | error e =>
        obtain ⟨-, hmem, hfull⟩ := (herror e).1 hres
        have hlt := hS.length_lt (fun q hq => Nat.lt_succ_of_le (Dfa.mem_allStates.1 hq)) hr hmem
        omega

end GoalAutomata
