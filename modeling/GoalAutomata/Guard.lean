/-
  Guards: propositional formulas over fluents, which label the transitions of an
  automaton.

  * `Guard.holds I g`: the guard `g` holds when exactly the fluents in `I` do;
  * `Guard.atoms g`: the fluents that `g` mentions;
  * `Guard.neg`, `Guard.conj`, `Guard.disj` build guards and simplify on the way:
    a double negation and the negation of a constant collapse, and a conjunction
    (disjunction) on the left is extended instead of nested;
  * `Guard.minterm I A`: the conjunction of literals that describes `I` on the
    alphabet `A`.

  The conjunctions and disjunctions hold any number of operands.  The empty
  conjunction holds always and the empty disjunction never.
-/
import GoalAutomata.Fluents

namespace GoalAutomata

/-- A propositional formula over fluents. -/
inductive Guard where
  | tt
  | ff
  | atom (name : String)
  | not (g : Guard)
  | and (gs : List Guard)
  | or (gs : List Guard)
  deriving Inhabited

namespace Guard

/-- Induction on a guard, with the hypothesis for every operand of a list. -/
@[elab_as_elim, induction_eliminator]
theorem induction {P : Guard → Prop} (tt : P tt) (ff : P ff) (atom : ∀ s, P (atom s))
    (not : ∀ g, P g → P (not g)) (and : ∀ gs, (∀ g ∈ gs, P g) → P (and gs))
    (or : ∀ gs, (∀ g ∈ gs, P g) → P (or gs)) (g : Guard) : P g :=
  @Guard.rec P (fun gs => ∀ g ∈ gs, P g) tt ff atom not and or
    (by simp) (fun _ _ h hs => by simpa using ⟨h, hs⟩) g

/-! ## Meaning -/

mutual

/-- Whether a guard holds when exactly the fluents in `I` do. -/
def holds (I : Fluents) : Guard → Bool
  | tt => true
  | ff => false
  | atom s => I.contains s
  | not g => !holds I g
  | and gs => allHold I gs
  | or gs => anyHolds I gs

/-- Whether every guard of a list holds. -/
def allHold (I : Fluents) : List Guard → Bool
  | [] => true
  | g :: gs => holds I g && allHold I gs

/-- Whether some guard of a list holds. -/
def anyHolds (I : Fluents) : List Guard → Bool
  | [] => false
  | g :: gs => holds I g || anyHolds I gs

end

@[simp] theorem allHold_eq (I : Fluents) (gs : List Guard) : allHold I gs = gs.all (holds I) := by
  induction gs with
  | nil => rfl
  | cons g gs ih => simp [allHold, ih]

@[simp] theorem anyHolds_eq (I : Fluents) (gs : List Guard) : anyHolds I gs = gs.any (holds I) := by
  induction gs with
  | nil => rfl
  | cons g gs ih => simp [anyHolds, ih]

@[simp] theorem holds_tt (I : Fluents) : tt.holds I = true := rfl

@[simp] theorem holds_ff (I : Fluents) : ff.holds I = false := rfl

@[simp] theorem holds_atom (I : Fluents) (s : String) : (atom s).holds I = I.contains s := rfl

@[simp] theorem holds_not (I : Fluents) (g : Guard) : (not g).holds I = !g.holds I := rfl

@[simp] theorem holds_and (I : Fluents) (gs : List Guard) :
    (and gs).holds I = gs.all (holds I) := by
  simp [holds]

@[simp] theorem holds_or (I : Fluents) (gs : List Guard) :
    (or gs).holds I = gs.any (holds I) := by
  simp [holds]

/-! ## Atoms -/

mutual

/-- The names of the atoms of a guard, from left to right. -/
def names : Guard → List String
  | tt | ff => []
  | atom s => [s]
  | not g => names g
  | and gs | or gs => allNames gs

/-- The names of the atoms of a list of guards. -/
def allNames : List Guard → List String
  | [] => []
  | g :: gs => names g ++ allNames gs

end

@[simp] theorem allNames_eq (gs : List Guard) : allNames gs = gs.flatMap names := by
  induction gs with
  | nil => rfl
  | cons g gs ih => simp [allNames, ih]

/-- The fluents that a guard mentions. -/
def atoms (g : Guard) : Fluents := .ofList g.names

theorem mem_atoms {g : Guard} {s : String} : s ∈ g.atoms ↔ s ∈ g.names := by
  simp [atoms, Std.ExtTreeSet.mem_ofList]

/-! ## Construction -/

/-- The negation; that of a constant or of a negation is simplified. -/
def neg : Guard → Guard
  | tt => ff
  | ff => tt
  | not g => g
  | g => not g

/-- The conjunction; one on the left takes the operands on the right. -/
def conj : Guard → Guard → Guard
  | and gs, and hs => and (gs ++ hs)
  | and gs, h => and (gs ++ [h])
  | g, h => and [g, h]

/-- The disjunction; one on the left takes the operands on the right. -/
def disj : Guard → Guard → Guard
  | or gs, or hs => or (gs ++ hs)
  | or gs, h => or (gs ++ [h])
  | g, h => or [g, h]

/-- The atom, or its negation when the fluent is not in `I`. -/
def literal (I : Fluents) (s : String) : Guard := bif I.contains s then atom s else not (atom s)

/-- The guard that holds exactly where the fluents of the alphabet `A` are as in `I`. -/
def minterm (I A : Fluents) : Guard :=
  match A.toList.map (literal I) with
  | [] => tt
  | [g] => g
  | gs => and gs

@[simp] theorem holds_neg (I : Fluents) (g : Guard) : g.neg.holds I = !g.holds I := by
  cases g <;> simp [neg]

@[simp] theorem holds_conj (I : Fluents) (g h : Guard) :
    (g.conj h).holds I = (g.holds I && h.holds I) := by
  cases g <;> cases h <;> simp [conj]

@[simp] theorem holds_disj (I : Fluents) (g h : Guard) :
    (g.disj h).holds I = (g.holds I || h.holds I) := by
  cases g <;> cases h <;> simp [disj]

theorem holds_literal (I J : Fluents) (s : String) :
    (literal I s).holds J = (I.contains s == J.contains s) := by
  cases h : I.contains s <;> simp [literal, h]

theorem holds_minterm (I A J : Fluents) :
    (minterm I A).holds J = A.toList.all fun s => I.contains s == J.contains s := by
  simp only [← holds_literal]
  unfold minterm
  split <;> rename_i h <;>
    simp [← Function.comp_def (holds J) (literal I), ← List.all_map, h]

end Guard

end GoalAutomata
