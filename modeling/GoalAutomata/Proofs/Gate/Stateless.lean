/-
  Gates by a test, over episodes.

  A gate asks its test at every tick, but for the first one of an episode if that is
  let through (`StatelessGate.asked`), and answers what the test says
  (`StatelessGate.openings`).  The test may change with every call and a reset leaves
  it alone, so what it says depends on all the ticks at which it has been asked.

  * `StatelessGate.Asks`: the test decides at the next tick, and at all that follow
    before a reset;
  * `gate_opens_by_its_test`: what a gate does in any of its episodes.
-/
import GoalAutomata.Proofs.Gate

namespace GoalAutomata

/-! ## Tests in a row -/

namespace TickTest

variable {P : Type} [TickTest P]

/-- What a test says of some ticks. -/
def results (p : P) : List Fluents → List Bool
  | [] => []
  | I :: Is => (test p I).1 :: results (test p I).2 Is

/-- The test after some ticks. -/
def after (p : P) (Is : List Fluents) : P := Is.foldl (fun p I => (test p I).2) p

variable {p : P} {I : Fluents} {Is Js : List Fluents}

@[simp] theorem results_nil : results p [] = [] := rfl

@[simp] theorem results_cons :
    results p (I :: Is) = (test p I).1 :: results (test p I).2 Is := rfl

@[simp] theorem after_nil : after p [] = p := rfl

@[simp] theorem after_cons : after p (I :: Is) = after (test p I).2 Is := rfl

@[simp] theorem after_append : after p (Is ++ Js) = after (after p Is) Js := List.foldl_append

end TickTest

/-! ## Ticks in a row -/

namespace Gate

variable {K R : Type} [Gate K R] {k : K} {I : Fluents} {Is : List Fluents} {cs ds : List Call}

/-- Some ticks as calls; a gate takes no flag. -/
def ticks (Is : List Fluents) : List Call := Is.map (.step · false)

theorem after_ticks_cons :
    after R k (ticks (I :: Is)) = after R (step (R := R) k I).state (ticks Is) := rfl

theorem after_append : after R k (cs ++ ds) = after R (after R k cs) ds := by
  induction cs generalizing k with
  | nil => rfl
  | cons c cs ih => cases c <;> exact ih

end Gate

namespace StatelessGate

variable {P R : Type} {k : StatelessGate P} {I : Fluents} {Is : List Fluents}

/-- The ticks of an episode at which a gate asks its test. -/
def asked (allowFirst : Bool) (Is : List Fluents) : List Fluents :=
  if allowFirst then Is.tail else Is

/-- The test decides at the next tick. -/
def Asks (k : StatelessGate P) : Prop := k.started = true ∨ k.allowFirst = false

theorem Asks.note (h : k.Asks) (isOpen : Bool) : (k.note isOpen).Asks :=
  h.imp (fun h => by rw [StatelessGate.note, h]; rfl) id

variable [TickTest P]

/-- What a gate answers on the ticks of an episode. -/
def openings (allowFirst : Bool) (p : P) (Is : List Fluents) : List Bool :=
  if allowFirst then (Is.take 1).map (fun _ => true) ++ TickTest.results p Is.tail
  else TickTest.results p Is

/-- The gate after a tick at which its test decides. -/
def judge (k : StatelessGate P) (I : Fluents) : StatelessGate P :=
  { k with test := (TickTest.test k.test I).2 }.note (TickTest.test k.test I).1

theorem step_of_asks (h : k.Asks) (I : Fluents) :
    Gate.step (R := R) k I = .done (TickTest.test k.test I).1 (k.judge I) := by
  refine if_neg fun hfirst => ?_
  rcases h with h | h <;> simp [h] at hfirst

theorem step_of_not_asks (h : ¬k.Asks) (I : Fluents) :
    Gate.step (R := R) k I = .done true (k.note true) := by
  refine if_pos ?_
  rw [Asks, not_or, Bool.not_eq_true, Bool.not_eq_false] at h
  rw [h.1, h.2]
  rfl

/-- **Once the test decides it does so at every tick.**  Ticks are counted until the gate opens. -/
theorem Asks.ticks (h : k.Asks) (Is : List Fluents) :
    let l := Gate.after R k (Gate.ticks Is)
    Gate.answers R k Is = (TickTest.results k.test Is).map .ok ∧
      l.test = TickTest.after k.test Is ∧ l.allowFirst = k.allowFirst ∧
      (l.started = true ↔ k.started = true ∨ true ∈ TickTest.results k.test Is) ∧
      (l.started = false → l.closedTicks = k.closedTicks + Is.length) := by
  induction Is generalizing k with
  | nil => simp [Gate.answers, Gate.ticks, Gate.after]
  | cons I Is ih =>
    have hnext : (k.judge I).Asks := Asks.note (k := { k with test := _ }) h _
    obtain ⟨hanswers, htest, hfirst, hstarted, hclosed⟩ := ih hnext
    have hopens : (k.judge I).started = true ↔
        k.started = true ∨ (TickTest.test k.test I).1 = true := Bool.or_eq_true_iff
    have hafter : Gate.after R k (Gate.ticks (I :: Is)) =
        Gate.after R (k.judge I) (Gate.ticks Is) := by
      rw [Gate.after_ticks_cons, step_of_asks h]
      rfl
    rw [hafter]
    refine ⟨?_, htest, hfirst, ?_, fun hl => ?_⟩
    · rw [Gate.answers, step_of_asks h]
      exact congrArg (_ :: ·) hanswers
    · rw [hstarted, hopens, or_assoc, TickTest.results_cons, List.mem_cons, eq_comm (a := true)]
      rfl
    · -- a gate that is not started in the end has not been opened by this tick
      have hnot : ¬(k.judge I).started = true := fun hs =>
        Bool.eq_false_iff.1 hl (hstarted.2 (Or.inl hs))
      have hcount : (k.judge I).closedTicks = k.closedTicks + 1 := if_neg hnot
      rw [hclosed hl, hcount, List.length_cons]
      omega

/-- **The ticks of an episode**, from its start on. -/
theorem episode (p : P) (allowFirst : Bool) (Is : List Fluents) :
    let k : StatelessGate P := { test := p, allowFirst }
    let l := Gate.after R k (Gate.ticks Is)
    Gate.answers R k Is = (openings allowFirst p Is).map .ok ∧
      l.test = TickTest.after p (asked allowFirst Is) ∧ l.allowFirst = allowFirst ∧
      (l.started = true ↔ true ∈ openings allowFirst p Is) ∧
      (l.started = false → l.closedTicks = Is.length) := by
  intro k l
  cases allowFirst with
  | false =>
    have hk : k.Asks := Or.inr rfl
    simpa [k, l, openings, asked] using hk.ticks (R := R) Is
  | true =>
    cases Is with
    | nil => simp [l, k, Gate.answers, Gate.ticks, Gate.after, openings, asked]
    | cons I Is =>
      have hk : ¬k.Asks := by simp [k, Asks]
      have hl : l = Gate.after R (k.note true) (Gate.ticks Is) := by
        simp only [l, Gate.after_ticks_cons, step_of_not_asks hk]
        rfl
      have hnext : (k.note true).Asks := Or.inl rfl
      obtain ⟨hanswers, htest, hfirst, hstarted, -⟩ := hnext.ticks (R := R) Is
      rw [← hl] at htest hfirst hstarted
      have hopen : l.started = true := hstarted.2 (Or.inl rfl)
      refine ⟨?_, htest, hfirst, by simp [hopen, openings], by simp [hopen]⟩
      rw [Gate.answers, step_of_not_asks hk]
      exact congrArg (_ :: ·) hanswers

/-- **An episode that is over leaves the gate at the start of the next**, with the test as it is by
    then. -/
theorem after_episode (p : P) (allowFirst : Bool) (Is : List Fluents) :
    Gate.after R ({ test := p, allowFirst } : StatelessGate P) (Gate.ticks Is ++ [.reset]) =
      { test := TickTest.after p (asked allowFirst Is), allowFirst } := by
  obtain ⟨-, htest, hfirst, -⟩ := episode (R := R) p allowFirst Is
  rw [Gate.after_append, ← htest]
  exact congrArg (fun b => StatelessGate.mk _ b false 0) hfirst

theorem after_episodes (p : P) (allowFirst : Bool) (history : List (List Fluents)) :
    Gate.after R ({ test := p, allowFirst } : StatelessGate P)
        (history.flatMap fun Is => Gate.ticks Is ++ [.reset]) =
      { test := TickTest.after p (history.flatMap (asked allowFirst)), allowFirst } := by
  induction history generalizing p with
  | nil => rfl
  | cons Is history ih =>
    rw [List.flatMap_cons, Gate.after_append, after_episode, ih, List.flatMap_cons,
      TickTest.after_append]

end StatelessGate

/-- **A gate opens by its test.**  Take a gate with any test, after any number of episodes, each of
    which was ended by a reset.  The test has been called at all their ticks, but for the first of
    each if that is let through, and so it is in the episode that runs now.  There the gate answers
    what the test says, and that it is open at a first tick that is let through.  It counts as
    started if it has been open at some tick, so only if the first tick is let through or the test
    says so.  A reset reports that it never opened if there were ticks and it was open at none, and
    tells their number. -/
theorem gate_opens_by_its_test {P R : Type} [TickTest P] (p : P) (allowFirst : Bool)
    (history : List (List Fluents)) (Is : List Fluents) :
    let k := Gate.after R ({ test := p, allowFirst } : StatelessGate P)
      (history.flatMap fun Js => Gate.ticks Js ++ [.reset])
    let l := Gate.after R k (Gate.ticks Is)
    let answers := StatelessGate.openings allowFirst k.test Is
    k.test = TickTest.after p (history.flatMap (StatelessGate.asked allowFirst)) ∧
    l.test = TickTest.after k.test (StatelessGate.asked allowFirst Is) ∧
    Gate.answers R k Is = answers.map .ok ∧
    (l.started = true ↔ true ∈ answers) ∧
    (l.started = true ↔ (allowFirst = true ∧ Is ≠ []) ∨
      true ∈ TickTest.results k.test (StatelessGate.asked allowFirst Is)) ∧
    Gate.resetRemarks (R := R) l =
      if Is ≠ [] ∧ true ∉ answers then [.neverOpened Is.length] else [] := by
  intro k l answers
  have hk : k = _ := StatelessGate.after_episodes p allowFirst history
  have hepisode := StatelessGate.episode (R := R) k.test allowFirst Is
  have hfresh : ({ test := k.test, allowFirst } : StatelessGate P) = k := by rw [hk]
  rw [hfresh] at hepisode
  obtain ⟨hanswers, htest, -, (hstarted : l.started = true ↔ true ∈ answers), hclosed⟩ := hepisode
  refine ⟨by rw [hk], htest, hanswers, hstarted, ?_, ?_⟩
  · rw [hstarted]
    cases allowFirst <;> cases Is <;> simp [answers, StatelessGate.openings, StatelessGate.asked]
  · have hremarks : Gate.resetRemarks (R := R) l =
        if !l.started && 0 < l.closedTicks then [.neverOpened l.closedTicks] else [] := rfl
    rw [hremarks]
    cases hl : l.started with
    | true => simp [hstarted.1 hl]
    | false =>
      have hnot : true ∉ answers := fun h => by simp [hstarted.2 h] at hl
      have hcount : l.closedTicks = Is.length := hclosed hl
      simp [hnot, hcount, List.length_pos_iff]

/-- A test that is true at every second call, over two episodes of two ticks: it is called once in
    each. -/
example : let k : StatelessGate ListedTest := { test := .every 2 0, allowFirst := true }
    Gate.answers Rat k [∅, ∅] = [.ok true, .ok false] ∧
      Gate.answers Rat (Gate.after Rat k (Gate.ticks [∅, ∅] ++ [.reset])) [∅, ∅] =
        [.ok true, .ok true] := ⟨rfl, rfl⟩

end GoalAutomata
