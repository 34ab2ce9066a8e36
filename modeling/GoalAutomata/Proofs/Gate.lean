/-
  Runs of gates.

  A gate sees every tick of an episode, whatever becomes of it.  `Gate.answers` is
  what it says of some ticks, and `Gate.admitted` picks from anything listed tick by
  tick what stands at the open ones.  A gate is always open if it lets every tick
  through however it is driven (`Gate.AlwaysOpen`).
-/
import GoalAutomata.Gate.Stateless
import GoalAutomata.Proofs.Runs

namespace GoalAutomata

namespace Gate

variable {K : Type} (R : Type) [Gate K R]

/-- What a gate answers on some ticks. -/
def answers (k : K) : List Fluents → List (Except Error Bool)
  | [] => []
  | I :: Is => (step (R := R) k I).result :: answers (step (R := R) k I).state Is

/-- The gate after some calls, of which it takes no flag. -/
def after (k : K) : List Call → K
  | [] => k
  | .reset :: cs => after (reset R k) cs
  | .step I _ :: cs => after (step (R := R) k I).state cs

/-- Open at every tick, whatever the calls before it. -/
def AlwaysOpen (k : K) : Prop := ∀ cs I, (step (R := R) (after R k cs) I).result = .ok true

variable {R} {k : K}

theorem AlwaysOpen.result_step (h : AlwaysOpen R k) (I : Fluents) :
    (step (R := R) k I).result = .ok true := h [] I

theorem AlwaysOpen.reset (h : AlwaysOpen R k) : AlwaysOpen R (Gate.reset R k) :=
  fun cs I => h (.reset :: cs) I

theorem AlwaysOpen.step (h : AlwaysOpen R k) (I : Fluents) :
    AlwaysOpen R (step (R := R) k I).state :=
  fun cs J => h (.step I false :: cs) J

/-! ## What is let through -/

section Admitted

variable {α : Type} {bs : List Bool} {x : α} {xs : List α}

/-- Of one entry for each tick, those of the ticks at which the gate is open. -/
def admitted (bs : List Bool) (xs : List α) : List α := ((bs.zip xs).filter (·.1)).map (·.2)

@[simp] theorem admitted_nil : admitted [] xs = [] := rfl

@[simp] theorem admitted_cons_true : admitted (true :: bs) (x :: xs) = x :: admitted bs xs := rfl

@[simp] theorem admitted_cons_false : admitted (false :: bs) (x :: xs) = admitted bs xs := rfl

end Admitted

end Gate

/-- **The gate that is made to be always open is so.** -/
theorem StatelessGate.alwaysOpen_always (R : Type) : Gate.AlwaysOpen R StatelessGate.always := by
  have hopen : ∀ (k : StatelessGate ListedTest) I, k.test = .constant true →
      (Gate.step (R := R) k I).result = .ok true ∧
        (Gate.step (R := R) k I).state.test = .constant true := by
    intro k I hk
    change (k.step (R := R) I).result = _ ∧ (k.step (R := R) I).state.test = _
    unfold StatelessGate.step
    split_ifs
    · exact ⟨rfl, hk⟩
    · rw [hk]
      exact ⟨rfl, rfl⟩
  have hafter : ∀ cs (k : StatelessGate ListedTest), k.test = .constant true →
      (Gate.after R k cs).test = .constant true := by
    intro cs
    induction cs with
    | nil => exact fun _ hk => hk
    | cons c cs ih =>
      intro k hk
      cases c with
      | reset => exact ih _ hk
      | step I last => exact ih _ (hopen k I hk).2
  exact fun cs I => (hopen _ I (hafter cs _ rfl)).1

end GoalAutomata
