/-
  The order of guards.

  A guard is written as a list of marks in Polish notation: a rank for its kind,
  the name of an atom beside it, and a closing mark after the operands of a
  conjunction or disjunction.  The closing mark is the least of all, so comparing
  two codes as lists compares the guards by kind first (`tt`, `ff`, atom,
  negation, conjunction, disjunction) and then by their operands in turn, a
  shorter list of operands before a longer one that extends it.

  * `Guard.code_injective`: different guards have different codes;
  * `Guard.order` is hence a total order, and equality of guards is decidable.
-/
import GoalAutomata.Guard

namespace GoalAutomata

namespace Guard

/-- A rank and a name. -/
abbrev Mark := Nat × String

/-- Marks are compared by rank, then by name. -/
def Mark.order : Mark → Mark → Ordering :=
  compareLex (compareOn Prod.fst) (compareOn Prod.snd)

instance : Std.TransCmp Mark.order := inferInstanceAs (Std.TransCmp (compareLex _ _))

instance : Std.LawfulEqCmp Mark.order where
  eq_of_compare {a b} h := by
    simp only [Mark.order, compareLex, compareOn, Ordering.then_eq_eq] at h
    exact Prod.ext (Std.LawfulEqCmp.eq_of_compare h.1) (Std.LawfulEqCmp.eq_of_compare h.2)

mutual

/-- The marks of a guard in Polish notation. -/
def code : Guard → List Mark
  | tt => [(1, "")]
  | ff => [(2, "")]
  | atom s => [(3, s)]
  | not g => (4, "") :: code g
  | and gs => (5, "") :: codes gs
  | or gs => (6, "") :: codes gs

/-- The marks of a list of operands, closed by the least mark. -/
def codes : List Guard → List Mark
  | [] => [(0, "")]
  | g :: gs => code g ++ codes gs

end

/-- The first mark of a guard has its rank, which is not that of the closing mark. -/
theorem code_eq_cons (g : Guard) : ∃ m ms, g.code = m :: ms ∧ m.1 ≠ 0 := by
  cases g <;> simp [code]

/-- A list of operands can be read off the front of a list of marks if each operand can. -/
theorem codes_append_inj {gs hs : List Guard} {r s : List Mark}
    (ih : ∀ g ∈ gs, ∀ (h : Guard) (r s : List Mark), g.code ++ r = h.code ++ s → g = h ∧ r = s)
    (e : codes gs ++ r = codes hs ++ s) : gs = hs ∧ r = s := by
  induction gs generalizing hs with
  | nil =>
    cases hs with
    | nil => simpa [codes] using e
    | cons h hs =>
      obtain ⟨m, ms, hm, h0⟩ := code_eq_cons h
      simp only [codes, hm, List.cons_append, List.cons.injEq] at e
      exact absurd (congrArg Prod.fst e.1).symm h0
  | cons g gs ihs =>
    cases hs with
    | nil =>
      obtain ⟨m, ms, hm, h0⟩ := code_eq_cons g
      simp only [codes, hm, List.cons_append, List.cons.injEq] at e
      exact absurd (congrArg Prod.fst e.1) h0
    | cons h hs =>
      simp only [codes, List.append_assoc] at e
      obtain ⟨rfl, e'⟩ := ih g (by simp) h _ _ e
      obtain ⟨rfl, rfl⟩ := ihs (fun g' hg => ih g' (by simp [hg])) e'
      exact ⟨rfl, rfl⟩

/-- **A guard can be read off the front of a list of marks in one way only.** -/
theorem code_append_inj {g h : Guard} {r s : List Mark} (e : g.code ++ r = h.code ++ s) :
    g = h ∧ r = s := by
  induction g generalizing h r s with
  | tt | ff => cases h <;> simp_all [code]
  | atom a => cases h <;> simp_all [code]
  | not g ih =>
    cases h with
    | not h =>
      obtain ⟨rfl, rfl⟩ := ih (by simpa [code] using e)
      exact ⟨rfl, rfl⟩
    | _ => simp [code] at e
  | and gs ih =>
    cases h with
    | and hs =>
      obtain ⟨rfl, rfl⟩ := codes_append_inj (fun g hg _ _ _ => ih g hg) (by simpa [code] using e)
      exact ⟨rfl, rfl⟩
    | _ => simp [code] at e
  | or gs ih =>
    cases h with
    | or hs =>
      obtain ⟨rfl, rfl⟩ := codes_append_inj (fun g hg _ _ _ => ih g hg) (by simpa [code] using e)
      exact ⟨rfl, rfl⟩
    | _ => simp [code] at e

theorem code_injective {g h : Guard} (e : g.code = h.code) : g = h :=
  (code_append_inj (r := []) (s := []) (by simp [e])).1

theorem code_inj {g h : Guard} : g.code = h.code ↔ g = h :=
  ⟨code_injective, fun e => e ▸ rfl⟩

instance : DecidableEq Guard := fun _ _ => decidable_of_iff _ code_inj

/-- The order of two guards is that of their codes. -/
def order : Guard → Guard → Ordering := fun g h => List.compareLex Mark.order g.code h.code

instance : Std.TransCmp order where
  eq_swap {g h} := @Std.OrientedCmp.eq_swap _ (List.compareLex Mark.order) _ g.code h.code
  isLE_trans {g h k} :=
    @Std.TransCmp.isLE_trans _ (List.compareLex Mark.order) _ g.code h.code k.code

instance : Std.LawfulEqCmp order where
  eq_of_compare h :=
    code_injective (@Std.LawfulEqCmp.eq_of_compare _ (List.compareLex Mark.order) _ _ _ h)

end Guard

end GoalAutomata
