/-
  Fluents that no guard mentions never matter.

  Interpretations are alike for an alphabet if they have the same fluents of it, and
  runs are alike if they have the same calls with interpretations that are.  A guard
  mentions its atoms only, an automaton its alphabet only, and a completion mentions
  nothing new, for its new guards are made of the old ones.  Runs that are alike are
  hence answered alike.

  * `Dfa.alphabet_complete`: completion keeps the alphabet;
  * `Dfa.walk_congr`, `CompleteSimulator.run_congr`: walks and runs that are alike;
  * `unmentioned_fluents_never_matter`: what this means for guards, tables and
    simulators.
-/
import GoalAutomata.Proofs.Complete
import GoalAutomata.Proofs.Dfa.Totality

namespace GoalAutomata

variable {A I J : Fluents}

/-! ## Interpretations that are alike -/

/-- Two interpretations have the same fluents of the alphabet `A`. -/
def Fluents.Alike (A I J : Fluents) : Prop := I.restrict A = J.restrict A

theorem Fluents.Alike.mem_iff (h : Alike A I J) : ∀ s ∈ A, s ∈ I ↔ s ∈ J := by
  intro s hs
  have hrestrict : s ∈ I.restrict A ↔ s ∈ J.restrict A := by rw [h]
  rwa [mem_restrict, mem_restrict, and_iff_left hs, and_iff_left hs] at hrestrict

/-- Two calls are both resets, or steps with interpretations that are alike and the same flag. -/
inductive Call.Alike (A : Fluents) : Call → Call → Prop
  | reset : Alike A .reset .reset
  | step {I J : Fluents} (last : Bool) (h : Fluents.Alike A I J) :
    Alike A (.step I last) (.step J last)

/-- **A guard sees only its atoms.** -/
theorem Guard.holds_of_alike {g : Guard} (h : Fluents.Alike g.atoms I J) :
    g.holds I = g.holds J :=
  holds_congr fun s hs => h.mem_iff s (mem_atoms.2 hs)

/-! ## Completion -/

namespace Dfa

variable {d : Dfa} {v w : List Fluents}

/-- **Completion keeps the alphabet.** -/
theorem alphabet_complete (d : Dfa) : d.complete.alphabet = d.alphabet := by
  unfold complete
  split_ifs
  · rfl
  · refine Std.ExtTreeSet.ext_mem fun s => ?_
    simp only [mem_alphabet, completedTable, List.mem_append, List.mem_map, List.mem_singleton]
    constructor
    · rintro ⟨row, ⟨old, hold, rfl⟩ | rfl, hs⟩
      · rw [Row.atoms_completed] at hs
        exact ⟨old, hold, hs⟩
      · -- the loop at the old sink has no atoms
        obtain ⟨e, he, hs⟩ := Row.mem_atoms.1 hs
        rw [List.mem_singleton.1 he] at hs
        cases hs
    · rintro ⟨old, hold, hs⟩
      refine ⟨_, Or.inl ⟨old, hold, rfl⟩, ?_⟩
      rwa [Row.atoms_completed]

/-! ## Walks and runs -/

theorem successor_of_alike (h : Fluents.Alike d.alphabet I J) (q : Nat) :
    d.successor q I = d.successor q J :=
  successor_congr h.mem_iff q

/-- **Walks along words that are alike** visit the same states, or fail alike. -/
theorem walk_congr (h : List.Forall₂ (Fluents.Alike d.alphabet) v w) (q : Nat) :
    d.toAutomaton.walk q v = d.toAutomaton.walk q w := by
  induction h generalizing q with
  | nil => rfl
  | @cons I J v w hIJ _ ih =>
    have hsucc : d.toAutomaton.successor q I = d.toAutomaton.successor q J :=
      successor_of_alike hIJ q
    rw [Automaton.walk, Automaton.walk, hsucc]
    cases d.toAutomaton.successor q J with
    | error e => rfl
    | ok r => exact congrArg ((q :: ·) <$> ·) (ih r)

end Dfa

namespace CompleteSimulator

variable {R : Type} [Amount R] {S : CompleteSimulator R} {d : Dfa} {cs ds : List Call} {c c' : Call}

/-- A simulator of an automaton that answers two interpretations alike does so too. -/
theorem step_congr (last : Bool)
    (h : ∀ q, S.machine.automaton.successor q I = S.machine.automaton.successor q J) :
    (S.step I last).state = (S.step J last).state ∧
      (S.step I last).result = (S.step J last).result := by
  unfold step
  cases S.state? with
  | none => exact ⟨rfl, rfl⟩
  | some q =>
    simp only [Outcome.require_some, Outcome.andThen_done, h q]
    cases S.machine.automaton.successor q J with
    | error e => exact ⟨rfl, rfl⟩
    | ok r => exact ⟨rfl, rfl⟩

/-- **Calls that are alike leave the same simulator and answer the same.** -/
theorem call_congr (hS : S.machine.automaton = d.toAutomaton) (h : Call.Alike d.alphabet c c') :
    Simulator.call S c = Simulator.call S c' := by
  cases h with
  | reset => rfl
  | @step I J last hIJ =>
    have hsucc : ∀ q, S.machine.automaton.successor q I = S.machine.automaton.successor q J := by
      rw [hS]
      exact d.successor_of_alike hIJ
    have ⟨hstate, hresult⟩ := step_congr last hsucc
    exact Prod.ext hstate (congrArg Answer.stepped hresult)

theorem automaton_call (S : CompleteSimulator R) (c : Call) :
    (Simulator.call S c).1.machine.automaton = S.machine.automaton := by
  cases c with
  | reset => rfl
  | step I last =>
    change (S.step I last).state.machine.automaton = _
    rcases state_cases S I last with hs | ⟨_, hs⟩ <;> rw [hs]

/-- **So do runs.** -/
theorem run_congr (hS : S.machine.automaton = d.toAutomaton)
    (h : List.Forall₂ (Call.Alike d.alphabet) cs ds) :
    Simulator.after S cs = Simulator.after S ds ∧
      Simulator.answers S cs = Simulator.answers S ds := by
  induction h generalizing S with
  | nil => exact ⟨rfl, rfl⟩
  | cons hc _ ih =>
    obtain ⟨hafter, hanswers⟩ := ih ((automaton_call S _).trans hS)
    rw [Simulator.after_cons, Simulator.after_cons, Simulator.answers, Simulator.answers,
      ← call_congr hS hc]
    exact ⟨hafter, by rw [hanswers]⟩

end CompleteSimulator

/-- **Fluents that are not mentioned never matter.**  A guard has the same value for interpretations
    with the same fluents among its atoms.  A table and its completion mention the same fluents, and
    nothing else can be told from what they do: walks along words that are alike on the alphabet of
    the table, from any state, visit the same states or fail with the same error, and simulators
    that are called alike give the same answers, errors, states and rewards, and are at the same
    state with the same verdicts after them. -/
theorem unmentioned_fluents_never_matter (d : Dfa) :
    (∀ (g : Guard) (I J : Fluents), I.restrict g.atoms = J.restrict g.atoms →
      g.holds I = g.holds J) ∧
    d.complete.alphabet = d.alphabet ∧
    ∀ D : Dfa, D = d ∨ D = d.complete →
      (∀ v w : List Fluents, List.Forall₂ (Fluents.Alike d.alphabet) v w →
        ∀ q, D.toAutomaton.walk q v = D.toAutomaton.walk q w) ∧
      ∀ {R : Type} [Amount R] (reward : R) (shaping : Shaping R) (cs ds : List Call),
        List.Forall₂ (Call.Alike d.alphabet) cs ds →
        let S := CompleteSimulator.new D.toAutomaton reward shaping
        Simulator.answers S cs = Simulator.answers S ds ∧
          Simulator.state? (Simulator.after S cs) = Simulator.state? (Simulator.after S ds) ∧
          Simulator.isTrue (Simulator.after S cs) = Simulator.isTrue (Simulator.after S ds) ∧
          Simulator.isFailed (Simulator.after S cs) = Simulator.isFailed (Simulator.after S ds) := by
  refine ⟨fun g I J => Guard.holds_of_alike, d.alphabet_complete, fun D hD => ?_⟩
  have halphabet : D.alphabet = d.alphabet := by
    rcases hD with rfl | rfl
    · rfl
    · exact d.alphabet_complete
  rw [← halphabet]
  refine ⟨fun v w h => Dfa.walk_congr h, fun reward shaping cs ds h => ?_⟩
  obtain ⟨hafter, hanswers⟩ := CompleteSimulator.run_congr
    (S := .new D.toAutomaton reward shaping) rfl h
  dsimp only
  rw [hafter]
  exact ⟨hanswers, rfl, rfl, rfl⟩

end GoalAutomata
