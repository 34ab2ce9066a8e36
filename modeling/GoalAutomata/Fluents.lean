/-
  Sets of fluents, and sets and maps of states.

  A fluent is a named fact that holds or not at an instant.  `Fluents` is a
  finite set of them: an interpretation lists the fluents true at one instant,
  an alphabet the fluents that matter.  States are numbers; `States` and
  `StateMap` are their finite sets and maps.  All three are extensional: two of
  them are equal as soon as they have the same members.

  * `Fluents.order` compares two sets as their ascending lists;
  * `Fluents.render` shows a set as `{a, b}`.
-/
import Std.Data.ExtTreeMap
import Std.Data.ExtTreeSet

namespace GoalAutomata

/-- A finite set of fluents. -/
abbrev Fluents := Std.ExtTreeSet String compare

/-- A finite set of states. -/
abbrev States := Std.ExtTreeSet Nat compare

/-- A finite map from states. -/
abbrev StateMap (α : Type) := Std.ExtTreeMap Nat α compare

/-- The states `0, ..., n - 1`. -/
def States.below (n : Nat) : States := .ofList (List.range n)

@[simp] theorem States.mem_below {n q : Nat} : q ∈ States.below n ↔ q < n := by
  simp [States.below, Std.ExtTreeSet.mem_ofList]

theorem States.mem_insert {s : States} {q r : Nat} : r ∈ s.insert q ↔ r ∈ s ∨ r = q := by
  rw [Std.ExtTreeSet.mem_insert, Std.compare_eq_iff_eq]
  exact or_comm.trans (or_congr_right eq_comm)

/-- The entries of a map into which values for some states have been put. -/
theorem StateMap.getElem?_foldl_insert {α : Type} (f : Nat → α) (ks : List Nat) (m : StateMap α)
    (q : Nat) : (ks.foldl (fun m k => m.insert k (f k)) m)[q]? =
      if q ∈ ks then some (f q) else m[q]? := by
  induction ks generalizing m with
  | nil => simp
  | cons k ks ih =>
    rw [List.foldl_cons, ih, Std.ExtTreeMap.getElem?_insert]
    by_cases hk : k = q
    · simp [hk]
    · simp [hk, Ne.symm hk]

theorem StateMap.getElem?_insertIfNew {α : Type} (m : StateMap α) (k : Nat) (x : α) (q : Nat) :
    (m.insertIfNew k x)[q]? = m[q]?.or (if q = k then some x else none) := by
  rw [Std.ExtTreeMap.getElem?_insertIfNew]
  by_cases hk : k = q
  · subst hk
    cases hm : m[k]? <;> simp [Std.ExtTreeMap.mem_iff_isSome_getElem?, hm]
  · simp [hk, Ne.symm hk]

namespace Fluents

/-- The fluents of `I` that belong to the alphabet `A`. -/
def restrict (I A : Fluents) : Fluents := I.filter (A.contains ·)

theorem mem_restrict {I A : Fluents} {s : String} : s ∈ I.restrict A ↔ s ∈ I ∧ s ∈ A := by
  simp only [restrict, Std.ExtTreeSet.mem_filter]
  constructor
  · rintro ⟨h, h'⟩
    exact ⟨h, by simpa using h'⟩
  · rintro ⟨h, h'⟩
    exact ⟨h, by simpa using h'⟩

/-- The order of two sets: the order of their ascending lists, in which a proper
    initial part comes first. -/
def order : Fluents → Fluents → Ordering :=
  compareOn Std.ExtTreeSet.toList

instance : Std.TransCmp order := inferInstanceAs (Std.TransCmp (compareOn _))

instance : Std.LawfulEqCmp order where
  eq_of_compare {I J} h := by
    have h : I.toList = J.toList :=
      @Std.LawfulEqCmp.eq_of_compare (List String) compare _ _ _ h
    exact Std.ExtTreeSet.ext_mem fun s => by
      rw [← Std.ExtTreeSet.mem_toList, ← Std.ExtTreeSet.mem_toList, h]

/-- The text `{a, b}` of a set, in ascending order. -/
def render (I : Fluents) : String := "\x7b" ++ ", ".intercalate I.toList ++ "\x7d"

end Fluents

end GoalAutomata
