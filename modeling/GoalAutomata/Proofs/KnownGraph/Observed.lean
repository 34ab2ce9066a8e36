/-
  What a known graph has observed.

  Recording a transition adds to a graph and takes nothing away
  (`KnownGraph.Extends`).  A label that is there already is left as it is.  That is
  right as long as the oracle sees only the fluents of its alphabet
  (`Unfolding.Local`): then the transition that is there leads where the oracle
  does, and afterwards the recorded one is there in either case
  (`KnownGraph.Observes.observed_record`).  So every observed transition is one of
  the oracle, and the observed ones lead to every state (`KnownGraph.Observes`).
-/
import GoalAutomata.Proofs.KnownGraph
import GoalAutomata.Unfolding
import Mathlib.Logic.Relation

namespace GoalAutomata

/-- The successors depend on no other fluents than those of the alphabet. -/
def Unfolding.Local {C : Type} (O : Unfolding C) : Prop :=
  ∀ c I, O.successor c (I.restrict O.alphabet) = O.successor c I

namespace KnownGraph

variable {C : Type} {G H K : KnownGraph C} {p q r t : Nat} {l label : Fluents} {b c : C}
  {accepting failed : Bool}

/-- A transition with this label has been observed between these states. -/
def Observed (G : KnownGraph C) (q : Nat) (label : Fluents) (r : Nat) : Prop :=
  (G.row q)[label]? = some r

/-- Some transition has been observed between these states. -/
def Linked (G : KnownGraph C) (q r : Nat) : Prop := ∃ label, G.Observed q label r

theorem mem_row_iff : label ∈ G.row q ↔ ∃ r, G.Observed q label r := by
  rw [Std.ExtTreeMap.mem_iff_isSome_getElem?, Option.isSome_iff_exists]
  rfl

theorem not_observed_new {initial : C} {alphabet : Fluents} {capacity : Nat} :
    ¬ (new initial accepting failed alphabet capacity).Observed q label r := by
  simp [Observed, row, new]

/-- From a known state a label leads where it has been observed to, and otherwise to the sink. -/
theorem successor_of_lt (hq : q < G.size) (hsize : G.size ≤ G.capacity) (I : Fluents) :
    G.successor q I = .ok ((G.row q)[G.label I]?.getD G.capacity) := by
  rw [successor, if_neg (Nat.ne_of_lt (Nat.lt_of_lt_of_le hq hsize)), if_neg (Nat.not_le_of_lt hq)]

/-! ## Recording adds -/

@[simp] theorem alphabet_connect : (G.connect q label r).1.alphabet = G.alphabet := by
  unfold connect; split_ifs <;> rfl

@[simp] theorem alphabet_classify : (G.classify q accepting failed).1.alphabet = G.alphabet := by
  unfold classify; split_ifs <;> rfl

@[simp] theorem observed_classify :
    (G.classify q accepting failed).1.Observed p l r ↔ G.Observed p l r := by
  unfold classify; split_ifs <;> rfl

theorem row_connect : (G.connect q label r).1.row p =
    if label ∉ G.row q ∧ p = q then (G.row q).insert label r else G.row p := by
  by_cases hl : label ∈ G.row q
  · simp [connect, hl]
  · simp only [connect, hl, if_false]
    by_cases hp : p = q
    · simp [row, hp]
    · simp [row, hp, Std.ExtTreeMap.getElem?_insert, Ne.symm hp]

theorem observed_connect : (G.connect q label r).1.Observed p l t ↔
    G.Observed p l t ∨ label ∉ G.row q ∧ p = q ∧ l = label ∧ t = r := by
  rw [Observed, row_connect]
  split_ifs with h
  · obtain ⟨hl, rfl⟩ := h
    simp only [Std.ExtTreeMap.getElem?_insert, Std.LawfulEqCmp.compare_eq_iff_eq]
    split_ifs with hlabel
    · subst hlabel
      have hno : ¬ G.Observed p label t := fun ht => hl (mem_row_iff.2 ⟨t, ht⟩)
      simp [hno, hl, eq_comm]
    · simp [Observed, Ne.symm hlabel]
  · rw [Observed]
    tauto

/-- The graph `H` has all that `G` has, at the same places. -/
structure Extends (H G : KnownGraph C) : Prop where
  alphabet : H.alphabet = G.alphabet
  capacity : H.capacity = G.capacity
  configurations : G.configurations <+: H.configurations
  observed : ∀ q label r, G.Observed q label r → H.Observed q label r
  accepting : ∀ q ∈ G.accepting, q ∈ H.accepting
  failures : ∀ q ∈ G.failures, q ∈ H.failures

theorem Extends.refl (G : KnownGraph C) : G.Extends G :=
  ⟨rfl, rfl, List.prefix_rfl, fun _ _ _ => id, fun _ => id, fun _ => id⟩

theorem Extends.trans (hK : K.Extends H) (hH : H.Extends G) : K.Extends G where
  alphabet := hK.alphabet.trans hH.alphabet
  capacity := hK.capacity.trans hH.capacity
  configurations := hH.configurations.trans hK.configurations
  observed q l r h := hK.observed q l r (hH.observed q l r h)
  accepting q h := hK.accepting q (hH.accepting q h)
  failures q h := hK.failures q (hH.failures q h)

section Record

variable [DecidableEq C] {R : Type} {d : Discovery}

/-- What recording does apart from configurations and classifications: the alphabet stays, and the
    transition is added unless its label is there. -/
theorem observed_of_record
    (h : (G.record q label c accepting failed : Outcome R _ _) = .done d H) :
    H.alphabet = G.alphabet ∧ ∀ p l t, H.Observed p l t ↔
      G.Observed p l t ∨ label ∉ G.row q ∧ p = q ∧ l = label ∧ t = d.state := by
  obtain ⟨K, he, rfl, -⟩ := exists_enter_of_record h
  have henter : K.alphabet = G.alphabet ∧ K.rows = G.rows := by
    rcases cases_of_enter he with ⟨-, -, rfl⟩ | ⟨-, -, -, -, rfl⟩ <;> exact ⟨rfl, rfl⟩
  obtain ⟨halph, hrows⟩ := henter
  have hobs : ∀ p l t, K.Observed p l t ↔ G.Observed p l t := fun p l t => by
    rw [Observed, Observed, row, row, hrows]
  have hrow : label ∈ K.row q ↔ label ∈ G.row q := by simp only [mem_row_iff, hobs]
  exact ⟨by simpa using halph, fun p l t => by simp [observed_connect, hobs, hrow]⟩

/-- **Recording takes nothing away.** -/
theorem Extends.of_record
    (h : (G.record q label c accepting failed : Outcome R _ _) = .done d H) : H.Extends G := by
  have hrec := recorded_of_record h
  obtain ⟨halph, hobs⟩ := observed_of_record h
  exact {
    alphabet := halph
    capacity := hrec.capacity
    configurations := hrec.configurations_prefix
    observed := fun p l t ht => (hobs p l t).2 (Or.inl ht)
    accepting := fun p hp => (hrec.accepting p).2 (Or.inl hp)
    failures := fun p hp => (hrec.failures p).2 (Or.inl hp) }

end Record

/-! ## The oracle is observed -/

/-- The observed transitions are transitions of the unfolding `O`, labelled in its alphabet, and
    lead from the initial state to every state. -/
structure Observes (O : Unfolding C) (G : KnownGraph C) : Prop where
  alphabet : G.alphabet = O.alphabet
  observed : ∀ q label r, G.Observed q label r → ∃ c b, G.configuration? q = some c ∧
    G.configuration? r = some b ∧ (∀ s ∈ label, s ∈ O.alphabet) ∧ O.successor c label = .ok b
  reachable : ∀ q < G.size, Relation.ReflTransGen G.Linked 0 q

variable {O : Unfolding C}

theorem observes_new (O : Unfolding C) (accepting failed : Bool) (capacity : Nat) :
    Observes O (new O.initial accepting failed O.alphabet capacity) where
  alphabet := rfl
  observed _ _ _ h := absurd h not_observed_new
  reachable q hq := by
    obtain rfl : q = 0 := Nat.lt_one_iff.1 hq
    exact .refl

section Record

variable [DecidableEq C] {R : Type} {d : Discovery}

namespace Observes

/-- After recording, the recorded transition is there: if its label was, then with the same
    destination. -/
theorem observed_record (hG : G.Observes O) (hindex : G.Indexed)
    (hc : G.configuration? q = some c) (hb : O.successor c label = .ok b)
    (h : (G.record q label b accepting failed : Outcome R _ _) = .done d H) :
    H.Observed q label d.state := by
  obtain ⟨-, hobs⟩ := observed_of_record h
  have hrec := recorded_of_record h
  by_cases hl : label ∈ G.row q
  · -- what is there leads to the answer of the oracle, and that has one state only
    obtain ⟨r, hr⟩ := mem_row_iff.1 hl
    obtain ⟨c', b', hc', hb', -, hsucc⟩ := hG.observed q label r hr
    cases hc'.symm.trans hc
    cases hsucc.symm.trans hb
    have hrb : H.configuration? r = some b := hrec.configuration_of_some hb'
    rw [← (hindex.of_recorded hrec).configuration?_inj hrb (hrec.configuration hindex)]
    exact (hobs _ _ _).2 (Or.inl hr)
  · exact (hobs _ _ _).2 (Or.inr ⟨hl, rfl, rfl, rfl⟩)

/-- **Recording what the oracle answers for a label keeps the graph right.** -/
theorem record (hG : G.Observes O) (hindex : G.Indexed)
    (hc : G.configuration? q = some c) (hlabel : ∀ s ∈ label, s ∈ O.alphabet)
    (hb : O.successor c label = .ok b)
    (h : (G.record q label b accepting failed : Outcome R _ _) = .done d H) : H.Observes O := by
  obtain ⟨halph, hobs⟩ := observed_of_record h
  have hrec := recorded_of_record h
  have hext := Extends.of_record h
  have hlast := hG.observed_record hindex hc hb h
  have hold : ∀ p < G.size, Relation.ReflTransGen H.Linked 0 p := fun p hp =>
    Relation.ReflTransGen.mono (fun _ _ ⟨l, hl⟩ => ⟨l, hext.observed _ _ _ hl⟩) _ _
      (hG.reachable p hp)
  exact {
    alphabet := halph.trans hG.alphabet
    observed := by
      intro p l t ht
      rcases (hobs p l t).1 ht with ht | ⟨-, rfl, rfl, rfl⟩
      · obtain ⟨c', b', hc', hb', hsub, hsucc⟩ := hG.observed p l t ht
        exact ⟨c', b', hrec.configuration_of_some hc', hrec.configuration_of_some hb', hsub, hsucc⟩
      · exact ⟨c, b, hrec.configuration_of_some hc, hrec.configuration hindex, hlabel, hb⟩
    reachable := by
      intro p hp
      obtain ⟨b', hb'⟩ : ∃ b', H.configuration? p = some b' := ⟨_, List.getElem?_eq_getElem hp⟩
      -- the state of the destination is reached through the recorded transition
      rcases hrec.configuration_cases hb' with hp' | ⟨rfl, -⟩
      · exact hold p (List.getElem?_eq_some_iff.1 hp').1
      · exact (hold q (List.getElem?_eq_some_iff.1 hc).1).tail ⟨label, hlast⟩ }

end Observes

end Record

end KnownGraph

end GoalAutomata
