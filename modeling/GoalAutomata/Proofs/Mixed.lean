/-
  Goals of different kinds side by side.

  The goals of one environment need not be simulated in the same way: some know their
  automaton as a whole, others discover theirs, each over configurations of its own
  type.  A simulator of a mixed kind is one of these, and what holds of every kind
  holds of the mixture (`Simulator.Truthful.sum`, `PaysGains.sum` and so on).

  * `MixedSimulator`: a simulator of a whole automaton, or of an unfolding;
  * `MixedSimulator.paysGains`: paid by potential, either pays gains.
-/
import Mathlib.Algebra.Order.Field.Rat
import GoalAutomata.Proofs.Complete
import GoalAutomata.Proofs.Exploring.Returns

namespace GoalAutomata

section Sum

variable {S T R : Type} [Simulator S R] [Simulator T R]

theorem Simulator.Truthful.sum (hS : Truthful S) (hT : Truthful T) : Truthful (S ⊕ T) := by
  rintro (s | t) I last q x hx
  · exact hS s I last q x hx
  · exact hT t I last q x hx

end Sum

section Sigma

variable {ι R : Type} {S : ι → Type} [∀ i, Simulator (S i) R]

/-- A family of kinds of simulators side by side. -/
instance : Simulator (Σ i, S i) R where
  reset s := (⟨s.1, (Simulator.reset s.2).1⟩, (Simulator.reset s.2).2)
  step s I last := (Simulator.step s.2 I last).within (Sigma.mk s.1)
  state? s := Simulator.state? s.2
  isTrue s := Simulator.isTrue s.2
  isFailed s := Simulator.isFailed s.2
  width s := Simulator.width s.2
  reward s := Simulator.reward s.2
  automaton s := Simulator.automaton s.2
  rename name s := ⟨s.1, Simulator.rename name s.2⟩

theorem Simulator.Truthful.sigma (h : ∀ i, Truthful (S i)) : Truthful (Σ i, S i) :=
  fun s I last q x hx => h s.1 s.2 I last q x hx

end Sigma

namespace PaysGains

variable {S T ι : Type} [Simulator S Rat] [Simulator T Rat] {g bonus : Rat}

theorem sum {good : S → Prop} {good' : T → Prop} {φ : S → Rat} {φ' : T → Rat}
    (h : PaysGains good φ g bonus) (h' : PaysGains good' φ' g bonus) :
    PaysGains (Sum.elim good good') (Sum.elim φ φ') g bonus where
  refused
    | .inl s, I, last, e, he => congrArg Sum.inl (h.refused s I last e he)
    | .inr t, I, last, e, he => congrArg Sum.inr (h'.refused t I last e he)
  kept
    | .inl s => h.kept s
    | .inr t => h'.kept t
  paid
    | .inl s => h.paid s
    | .inr t => h'.paid t

theorem sigma {S : ι → Type} [∀ i, Simulator (S i) Rat] {good : ∀ i, S i → Prop}
    {φ : ∀ i, S i → Rat} (h : ∀ i, PaysGains (good i) (φ i) g bonus) :
    PaysGains (fun s : Σ i, S i => good s.1 s.2) (fun s => φ s.1 s.2) g bonus where
  refused s I last e he := congrArg (Sigma.mk s.1) ((h s.1).refused s.2 I last e he)
  kept s := (h s.1).kept s.2
  paid s := (h s.1).paid s.2

end PaysGains

/-! ## Complete and exploring simulators -/

/-- Simulators of whole automata and of unfoldings, in any amounts. -/
theorem Simulator.Truthful.mixed {ι : Type} (C : ι → Type) (R : Type) [Amount R]
    [∀ i, DecidableEq (C i)] :
    Truthful (CompleteSimulator R ⊕ Σ i, ExploringSimulator (C i) R) :=
  (CompleteSimulator.truthful R).sum (.sigma fun i => ExploringSimulator.truthful (C i) R)

/-- A simulator of a whole automaton, or of an unfolding with configurations in some `C i`. -/
abbrev MixedSimulator {ι : Type} (C : ι → Type) : Type :=
  CompleteSimulator Rat ⊕ Σ i, ExploringSimulator (C i) Rat

namespace MixedSimulator

variable {ι : Type} {C : ι → Type} {b : Rat} {s : MixedSimulator C}

/-- The potentials as they are now. -/
def potential : MixedSimulator C → Potential Rat :=
  Sum.elim (·.machine.potential) (·.2.current)

/-- The potential of the current state, as it is now. -/
def height : MixedSimulator C → Rat := Sum.elim (·.height) (·.2.height)

/-- Paid by potential, without discount, for the given reward. -/
def Shaped (reward : Rat) : MixedSimulator C → Prop :=
  Sum.elim (fun S => ∃ A, S.Pursues (.new A reward) 1) (·.2.Earns reward 1)

variable [∀ i, DecidableEq (C i)]

theorem truthful (C : ι → Type) [∀ i, DecidableEq (C i)] :
    Simulator.Truthful (MixedSimulator C) :=
  .mixed C Rat

theorem paysGains (C : ι → Type) [∀ i, DecidableEq (C i)] (reward : Rat) :
    PaysGains (Shaped (C := C) reward) height 1 reward :=
  (CompleteSimulator.paysGains_new reward 1).sum
    (.sigma fun _ => ExploringSimulator.Earns.paysGains reward 1)

theorem height_of_state? {q : Nat} (hq : Simulator.state? s = some q) :
    s.height = s.potential.eval q false := by
  rcases s with S | ⟨i, S⟩
  · exact CompleteSimulator.height_of_state? hq
  · exact ExploringSimulator.height_of_state? hq

theorem Shaped.reward (h : s.Shaped b) : Simulator.reward s = b := by
  rcases s with S | ⟨i, S⟩
  · obtain ⟨A, hM, -⟩ := h
    exact congrArg PricedAutomaton.reward hM
  · exact h.1

theorem Shaped.reset (h : s.Shaped b) : (Simulator.reset s).1.Shaped b := by
  rcases s with S | ⟨i, S⟩ <;> exact h

/-- A reset leads to potential zero. -/
theorem Shaped.height_reset (h : s.Shaped b) : (Simulator.reset s).1.height = 0 := by
  rcases s with S | ⟨i, S⟩
  · obtain ⟨A, hM, -⟩ := h
    exact CompleteSimulator.height_reset hM
  · exact ExploringSimulator.height_reset

end MixedSimulator

end GoalAutomata
