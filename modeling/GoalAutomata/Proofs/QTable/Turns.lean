/-
  The turns of an episode.

  A turn is told by the observation at which an action was chosen, the code of the
  action, and what the step answered.  The turns of an episode are those up to the
  first one that fails or is done, so all but the last lead on to the observation of
  the next.

  * `QTable.turns`, `episodeTurns`, `evaluationTurns`: what has been played;
  * `QTable.after_turns`, `rollout_turns`: these are the steps of the environment;
  * `QTable.play_induction`: what adds up over the turns.
-/
import Mathlib.Data.List.Chain
import GoalAutomata.Proofs.QTable.Episodes

namespace GoalAutomata

/-- What happens in one turn of an episode. -/
structure Turn (O R : Type) where
  observation : O
  /-- the code of the action -/
  action : Nat
  answer : Except Error (Step O R)

namespace Turn

variable {O R : Type}

/-- The step has led to the observation of the next turn, and the episode goes on. -/
def Precedes (u v : Turn O R) : Prop :=
  ∃ s, u.answer = .ok s ∧ s.done = false ∧ v.observation = s.observation

/-- The step has succeeded. -/
def Succeeds (u : Turn O R) : Prop := ∃ s, u.answer = .ok s

variable [Ord O]

/-- The action was chosen at an observation that counts as `o`. -/
def IsAt (u : Turn O R) (o : O) : Prop := compare u.observation o = .eq

/-- The step has led to an observation that counts as `o`, and the episode goes on. -/
def LeadsTo (u : Turn O R) (o : O) : Prop :=
  ∃ s, u.answer = .ok s ∧ s.done = false ∧ compare s.observation o = .eq

end Turn

namespace QTable

open Environment

variable {E O A R G : Type} [Environment E O A R] [Numbered A] [Ord O] [Std.TransOrd O] [Amount R]
  [Generator G] {learning : Bool} {n : Nat} {t : QTable O R G} {e : E} {o : O} {x : Error}
  {s : Step O R}

/-- At most `n` turns of an episode, from the observation `o` on. -/
def turns (learning : Bool) : Nat → QTable O R G → E → O → List (Turn O R)
  | 0, _, _, _ => []
  | n + 1, t, e, o =>
    let played := step e (turnAction learning t o)
    ⟨o, (t.choose o learning).1, played.result⟩ :: match played.result with
      | .error _ => []
      | .ok s =>
        if s.done then [] else turns learning n (taught learning t o s) played.state s.observation

/-- The turns of one episode; there are none if the reset fails. -/
def episodeTurns (learning : Bool) (t : QTable O R G) (e : E) : List (Turn O R) :=
  match (reset e).result with
  | .error _ => []
  | .ok o =>
    let start := (reset e).state
    turns learning (Environment.horizon start) t start o

/-- The turns of so many episodes without learning, up to the first one that fails. -/
def evaluationTurns : Nat → QTable O R G → E → List (Turn O R)
  | 0, _, _ => []
  | k + 1, t, e =>
    let episode := t.episode false e
    t.episodeTurns false e ++ match episode.result with
      | .error _ => []
      | .ok _ => evaluationTurns k episode.state.1 episode.state.2

theorem turns_of_error (n : Nat) (h : (step e (turnAction learning t o)).result = .error x) :
    turns learning (n + 1) t e o = [⟨o, (t.choose o learning).1, .error x⟩] := by
  rw [turns, h]

theorem turns_of_done (n : Nat) (h : (step e (turnAction learning t o)).result = .ok s)
    (hs : s.done = true) :
    turns learning (n + 1) t e o = [⟨o, (t.choose o learning).1, .ok s⟩] := by
  rw [turns, h]
  exact congrArg (_ :: ·) (if_pos hs)

theorem turns_of_not_done (n : Nat) (h : (step e (turnAction learning t o)).result = .ok s)
    (hs : s.done = false) :
    turns learning (n + 1) t e o = ⟨o, (t.choose o learning).1, .ok s⟩ ::
      turns learning n (taught learning t o s) (step e (turnAction learning t o)).state
        s.observation := by
  rw [turns, h]
  exact congrArg (_ :: ·) (if_neg (Bool.eq_false_iff.1 hs))

/-- **The environment has been called for the turns**, and nothing else. -/
theorem after_turns (horizon : Nat) (n : Nat) (t : QTable O R G) (e : E) (o : O) (total : R) :
    (play learning horizon n t e o total).state.2 =
      after e ((turns learning n t e o).map fun u => .step (Numbered.ofCode u.action)) := by
  induction n generalizing t e o total with
  | zero => rfl
  | succ n ih =>
    cases hres : (step e (turnAction learning t o)).result with
    | error x =>
      rw [(play_of_error horizon n total hres).2, turns_of_error n hres]
      rfl
    | ok s =>
      cases hs : s.done with
      | true =>
        rw [(play_of_done horizon n total hres hs).2, turns_of_done n hres hs]
        rfl
      | false =>
        rw [(play_of_not_done horizon n total hres hs).2, turns_of_not_done n hres hs, ih]
        rfl

/-- **The turns have the answers of its steps.** -/
theorem rollout_turns (n : Nat) (t : QTable O R G) (e : E) (o : O) :
    rollout e ((turns learning n t e o).map fun u => Numbered.ofCode u.action) =
      (turns learning n t e o).map (·.answer) := by
  induction n generalizing t e o with
  | zero => rfl
  | succ n ih =>
    cases hres : (step e (turnAction learning t o)).result with
    | error x =>
      have hover : isOver (step e (turnAction learning t o)).result = true := by
        rw [hres]
        rfl
      rw [turns_of_error n hres, List.map_singleton, ← turnAction, rollout_of_isOver hover, hres]
      rfl
    | ok s =>
      have hover : isOver (step e (turnAction learning t o)).result = s.done := by
        rw [hres]
        rfl
      cases hs : s.done with
      | true =>
        rw [turns_of_done n hres hs, List.map_singleton, ← turnAction,
          rollout_of_isOver (hover.trans hs), hres]
        rfl
      | false =>
        rw [turns_of_not_done n hres hs, List.map_cons, ← turnAction,
          rollout_of_not_isOver (hover.trans hs), ih, hres]
        rfl

theorem observation_of_mem_head? {u : Turn O R} (h : u ∈ (turns learning n t e o).head?) :
    u.observation = o := by
  cases n with
  | zero => cases h
  | succ n =>
    cases h
    rfl

/-- **Every turn but the last leads on to the next.** -/
theorem isChain_turns (n : Nat) (t : QTable O R G) (e : E) (o : O) :
    (turns learning n t e o).IsChain Turn.Precedes := by
  induction n generalizing t e o with
  | zero => exact .nil
  | succ n ih =>
    cases hres : (step e (turnAction learning t o)).result with
    | error x =>
      rw [turns_of_error n hres]
      exact .singleton _
    | ok s =>
      cases hs : s.done with
      | true =>
        rw [turns_of_done n hres hs]
        exact .singleton _
      | false =>
        rw [turns_of_not_done n hres hs, List.isChain_cons]
        exact ⟨fun u hu => ⟨s, rfl, hs, observation_of_mem_head? hu⟩, ih _ _ _⟩

/-- **What holds of a table and the next one over every turn holds over so many**, if it adds up:
    over a failed turn, which has chosen its action, and over one that has taught its lesson. -/
theorem play_induction {P : QTable O R G → QTable O R G → Prop} (refl : ∀ t, P t t)
    (trans : ∀ {t t' t''}, P t t' → P t' t'' → P t t'') (horizon n : Nat) (t : QTable O R G) (e : E)
    (o : O) (total : R)
    (failed : ∀ (t' : QTable O R G) (o' : O) (x : Error),
      ⟨o', (t'.choose o' learning).1, .error x⟩ ∈ turns learning n t e o →
        P t' (t'.choose o' learning).2)
    (succeeded : ∀ (t' : QTable O R G) (o' : O) (s : Step O R),
      ⟨o', (t'.choose o' learning).1, .ok s⟩ ∈ turns learning n t e o →
        P t' (taught learning t' o' s)) :
    P t (play learning horizon n t e o total).state.1 := by
  induction n generalizing t e o total with
  | zero => exact refl t
  | succ n ih =>
    cases hres : (step e (turnAction learning t o)).result with
    | error x =>
      rw [turns_of_error n hres] at failed
      rw [(play_of_error horizon n total hres).2]
      exact failed t o x (List.mem_singleton_self _)
    | ok s =>
      cases hs : s.done with
      | true =>
        rw [turns_of_done n hres hs] at succeeded
        rw [(play_of_done horizon n total hres hs).2]
        exact succeeded t o s (List.mem_singleton_self _)
      | false =>
        rw [turns_of_not_done n hres hs] at failed succeeded
        rw [(play_of_not_done horizon n total hres hs).2]
        exact trans (succeeded t o s List.mem_cons_self) (ih _ _ _ _
          (fun t' o' x h => failed t' o' x (List.mem_cons_of_mem _ h))
          fun t' o' s' h => succeeded t' o' s' (List.mem_cons_of_mem _ h))

/-- The environment after an episode, and the answers of its steps. -/
theorem after_episodeTurns (learning : Bool) (t : QTable O R G) (e : E) :
    (t.episode learning e).state.2 =
      after e (.reset :: (t.episodeTurns learning e).map fun u =>
        .step (Numbered.ofCode u.action)) ∧
      rollout (reset e).state
          ((t.episodeTurns learning e).map fun u => Numbered.ofCode u.action) =
        (t.episodeTurns learning e).map (·.answer) := by
  unfold episodeTurns
  cases hreset : (reset e).result with
  | error x =>
    rw [(t.episode_of_error learning hreset).2]
    exact ⟨rfl, rfl⟩
  | ok o =>
    rw [(t.episode_of_ok learning hreset).2]
    exact ⟨after_turns _ _ _ _ _ _, rollout_turns _ _ _ _⟩

/-- They start at the observation of the reset. -/
theorem head_episodeTurns (learning : Bool) (t : QTable O R G) (e : E) :
    ∀ u ∈ (t.episodeTurns learning e).head?, (reset e).result = .ok u.observation := by
  unfold episodeTurns
  cases hreset : (reset e).result with
  | error x => nofun
  | ok o => exact fun u hu => congrArg _ (observation_of_mem_head? hu).symm

theorem isChain_episodeTurns (learning : Bool) (t : QTable O R G) (e : E) :
    (t.episodeTurns learning e).IsChain Turn.Precedes := by
  unfold episodeTurns
  cases (reset e).result with
  | error x => exact .nil
  | ok o => exact isChain_turns _ _ _ _

end QTable

end GoalAutomata
