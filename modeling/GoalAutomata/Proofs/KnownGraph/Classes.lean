/-
  Which states of a known graph get which potentials.

  A known state is the initial one, a known failure, one with a known path to
  acceptance, or else it is exploring.  The forward pass enters potentials for the
  exploring states to which it leads, and for no other state
  (`KnownGraph.mem_expanded_iff`).  So all others have their settled potentials,
  whatever the bonuses (`KnownGraph.getElem?_potentials_congr`).  No entry is ever
  greater than the reward, for offers are cut at it (`KnownGraph.capped_potentials`).
-/
import Mathlib.Algebra.Order.Field.Rat
import GoalAutomata.Proofs.KnownGraph.ForwardPass
import GoalAutomata.Proofs.KnownGraph.Paths
import GoalAutomata.Proofs.KnownGraph.Traversal

namespace GoalAutomata

namespace KnownGraph

variable {C : Type} {G : KnownGraph C} {L : Levels} {bonuses P : StateMap Rat} {reward x : Rat}
  {p q r : Nat} {s : List Nat}

/-! ## Paths -/

/-- **A path to acceptance consists of observed transitions**, for the sink is not left. -/
theorem reaches_iff (h : G.Enclosed) : G.toAutomaton.Reaches q ↔
    ∃ r ∈ G.accepting, Relation.ReflTransGen G.Linked q r := by
  constructor
  · rintro ⟨n, hn⟩
    induction hn with
    | @target q hq => exact ⟨q, hq, .refl⟩
    | edge hE _ ih =>
      rcases (edge_iff h.size_le).1 hE with ⟨rfl, rfl⟩ | ⟨-, hl⟩
      · exact ih
      · obtain ⟨r, hr, hpath⟩ := ih
        exact ⟨r, hr, hpath.head hl⟩
  · rintro ⟨r, hr, hpath⟩
    refine Relation.ReflTransGen.head_induction_on (motive := fun p _ => G.toAutomaton.Reaches p)
      hpath (Automaton.reaches_of_mem_accepting hr) ?_
    rintro p t hl - ⟨n, hn⟩
    exact ⟨n + 1, .edge ((edge_iff h.size_le).2 (Or.inr ⟨(h.linked p t hl).1, hl⟩)) hn⟩

/-- An exploring state is none of the others. -/
theorem exploring_iff (h : G.Enclosed) : G.Exploring q ↔ q < G.size ∧ q ≠ 0 ∧ q ∉ G.failures ∧
    ¬ ∃ r ∈ G.accepting, Relation.ReflTransGen G.Linked q r := by
  rw [← reaches_iff h]
  exact ⟨fun hq => ⟨hq.known, hq.ne_zero, hq.not_mem_failures, hq.not_reaches⟩,
    fun ⟨hknown, hne, hfail, hlost⟩ => ⟨hknown, hne, hfail, hlost⟩⟩

/-! ## Entries -/

theorem mem_relax_iff (hr : G.isExploring L r = true) :
    r ∈ G.relax L bonuses reward q P p ↔ r ∈ P ∨ p = r := by
  simp only [Std.ExtTreeMap.mem_iff_isSome_getElem?]
  by_cases hp : p = r
  · subst hp
    simp [getElem?_relax_of_isExploring hr]
  · simp [getElem?_relax_of_ne hp, hp]

theorem mem_expand_iff (hr : G.isExploring L r = true) :
    r ∈ G.expand L bonuses reward P q ↔ r ∈ P ∨ G.Linked q r := by
  have hfold : ∀ (ts : List Nat) (P : StateMap Rat),
      r ∈ ts.foldl (G.relax L bonuses reward q) P ↔ r ∈ P ∨ r ∈ ts := by
    intro ts
    induction ts with
    | nil => simp
    | cons t ts ih =>
      intro P
      rw [List.foldl_cons, ih, mem_relax_iff hr, List.mem_cons, or_assoc, @eq_comm _ t r]
  rw [expand, hfold, mem_destinations_iff]

/-- **An exploring state gets an entry from the states that lead to it**, once one of them has been
    expanded. -/
theorem mem_expanded_iff (hr : G.isExploring (.ofAutomaton G.toAutomaton) r = true) :
    r ∈ G.expanded bonuses reward s ↔ ∃ p ∈ s, G.Linked p r := by
  induction s using List.reverseRecOn with
  | nil =>
    have hnone : (G.expanded bonuses reward [])[r]? = none := getElem?_settled_of_isExploring hr
    simp [Std.ExtTreeMap.mem_iff_isSome_getElem?, hnone]
  | append_singleton s p ih =>
    rw [expanded_concat, mem_expand_iff hr, ih]
    simp [or_and_right, exists_or]

/-- **The exploring states with an entry are those that can be reached.** -/
theorem mem_values_potentials_iff (h : G.Enclosed)
    (hr : G.isExploring (.ofAutomaton G.toAutomaton) r = true) :
    r ∈ (G.potentials bonuses reward).values ↔ Relation.ReflTransGen G.Linked 0 r := by
  rw [values_potentials, mem_expanded_iff hr]
  simp only [mem_walkOrder_iff h]
  constructor
  · rintro ⟨p, hp, hl⟩
    exact hp.tail hl
  · intro hpath
    rcases hpath.cases_tail with h0 | ⟨p, hp, hl⟩
    · exact absurd h0 (isExploring_iff.1 hr).1
    · exact ⟨p, hp, hl⟩

/-- A state to which nothing known leads has no entry. -/
theorem getElem?_potentials_eq_none (h : G.Enclosed) (hq : ¬ G.Exploring q)
    (hexp : G.isExploring (.ofAutomaton G.toAutomaton) q = true) (bonuses : StateMap Rat)
    (reward : Rat) : (G.potentials bonuses reward).values[q]? = none := by
  rw [values_potentials]
  refine Std.ExtTreeMap.getElem?_eq_none fun hmem => hq ?_
  obtain ⟨p, -, hl⟩ := (mem_expanded_iff hexp).1 hmem
  obtain ⟨hne, hlost, hfail⟩ := isExploring_iff.1 hexp
  exact ⟨(h.linked p q hl).2, hne, hfail, hlost⟩

/-- **What is not exploring has the same entry, or none, whatever the bonuses.** -/
theorem getElem?_potentials_congr (h : G.Enclosed) (hq : ¬ G.Exploring q)
    (bonuses bonuses' : StateMap Rat) (reward : Rat) :
    (G.potentials bonuses reward).values[q]? = (G.potentials bonuses' reward).values[q]? := by
  cases hexp : G.isExploring (.ofAutomaton G.toAutomaton) q with
  | false =>
    rw [values_potentials, values_potentials, getElem?_expanded_of_not_isExploring hexp,
      getElem?_expanded_of_not_isExploring hexp]
  | true => rw [getElem?_potentials_eq_none h hq hexp, getElem?_potentials_eq_none h hq hexp]

/-- An unknown state has no potential. -/
theorem get_potentials_of_size_le (h : G.Enclosed) (hq : G.size ≤ q) :
    (G.potentials bonuses reward).get q = 0 := by
  have hno : ¬ G.Exploring q := fun hexp => absurd hexp.known (not_lt.2 hq)
  cases hexp : G.isExploring (.ofAutomaton G.toAutomaton) q with
  | false =>
    have hunknown : ¬ q < G.size := not_lt.2 hq
    rw [get_potentials hexp, getElem?_settled]
    simp only [hunknown, false_and, and_false, if_false]
    split_ifs
    all_goals rfl
  | true =>
    rw [Potential.get, getElem?_potentials_eq_none h hno hexp]
    rfl

/-! ## No more than the reward -/

/-- No entry is greater than the reward. -/
def Capped (reward : Rat) (P : StateMap Rat) : Prop :=
  ∀ (q : Nat) (x : Rat), P[q]? = some x → x ≤ reward

theorem capped_settled (h : 0 ≤ reward) : Capped reward (G.settled L reward) := by
  intro q x hx
  rw [getElem?_settled] at hx
  split_ifs at hx
  · cases hx
    exact h
  · cases hx
    exact Potential.get_ofLevels_le_reward L 0 h
  · cases hx
    exact h

theorem Capped.relax (h : Capped reward P) : Capped reward (G.relax L bonuses reward p P r) := by
  intro q x hx
  cases hr : G.isExploring L r with
  | false =>
    rw [KnownGraph.relax, hr] at hx
    exact h q x hx
  | true =>
    by_cases hq : r = q
    · subst hq
      rw [getElem?_relax_of_isExploring hr] at hx
      cases hx
      cases P[r]? with
      | none => exact bid_le_reward
      | some y => exact (min_le_right _ _).trans bid_le_reward
    · rw [getElem?_relax_of_ne hq] at hx
      exact h q x hx

theorem Capped.expand (h : Capped reward P) : Capped reward (G.expand L bonuses reward P p) :=
  List.foldlRecOn (motive := Capped reward) _ _ h fun _ hM _ _ => hM.relax

/-- **No potential is greater than the reward.** -/
theorem capped_potentials (G : KnownGraph C) (bonuses : StateMap Rat) (h : 0 ≤ reward) :
    Capped reward (G.potentials bonuses reward).values :=
  List.foldlRecOn (motive := Capped reward) _ _ (capped_settled h) fun _ hM _ _ => hM.expand

/-! ## The pass -/

/-- The forward pass before its first turn. -/
def startOfPass (G : KnownGraph C) (reward : Rat) : Traversal (StateMap Rat) :=
  ⟨[0], [], [], G.settled (.ofAutomaton G.toAutomaton) reward⟩

/-- **The pass stops**: its turns expand what can be reached, and find the potentials. -/
theorem stops_startOfPass (h : G.Enclosed) (bonuses : StateMap Rat) (reward : Rat) :
    Traversal.Stops G.destinations (G.expand (.ofAutomaton G.toAutomaton) bonuses reward)
      (G.startOfPass reward) ⟨[], [], G.walkOrder, (G.potentials bonuses reward).values⟩ := by
  have hnext : ∀ q < G.size, ∀ r ∈ G.destinations q, r < G.size := fun q _ r hr =>
    (h.linked q r (mem_destinations_iff.1 hr)).2
  have hfrontier : ∀ q ∈ [0], q < G.size := by simpa using h.size_pos
  obtain ⟨rest, hrest, hstops⟩ := Traversal.stops_meetFrom
    (f := G.expand (.ofAutomaton G.toAutomaton) bonuses reward) (n := G.size + 1) hnext
    List.nodup_nil (by simp) hfrontier (by simp) (G.settled (.ofAutomaton G.toAutomaton) reward)
  have hwalk : G.walkOrder = rest := hrest
  rw [values_potentials, hwalk]
  exact hstops

end KnownGraph

/-- **Every class of states has potentials of its own kind.**  Take a graph made by recording
    transitions from known states, any bonuses, and a reward that is not negative.  The initial
    state, known failures, the sink and unknown states have no potential.  Any other state with a
    recorded path to acceptance has the potential of its level.  Of the exploring states, which are
    all the others, exactly those that can be reached have an entry.  No entry is greater than the
    reward.  Bonuses only matter for exploring states.  The forward pass stops whatever the graph,
    after it has expanded each state that can be reached, once. -/
theorem potentials_by_class {C : Type} [DecidableEq C] (G : KnownGraph C) (hG : G.Built)
    (bonuses : StateMap Rat) (reward : Rat) (hreward : 0 ≤ reward) :
    let P := G.potentials bonuses reward
    P.get 0 = 0 ∧
    (∀ q ∈ G.failures, P.get q = 0) ∧
    P.get G.capacity = 0 ∧
    (∀ q, G.size ≤ q → P.get q = 0) ∧
    (∀ q < G.size, q ∉ G.failures →
      (∃ r ∈ G.accepting, Relation.ReflTransGen G.Linked q r) →
      P.get q = (Potential.ofLevels (.ofAutomaton G.toAutomaton) 0 reward).get q) ∧
    (∀ q, G.Exploring q ↔ q < G.size ∧ q ≠ 0 ∧ q ∉ G.failures ∧
      ¬ ∃ r ∈ G.accepting, Relation.ReflTransGen G.Linked q r) ∧
    (∀ q, G.Exploring q → (q ∈ P.values ↔ Relation.ReflTransGen G.Linked 0 q)) ∧
    (∀ (q : Nat) (x : Rat), P.values[q]? = some x → x ≤ reward) ∧
    (∀ (bonuses' : StateMap Rat) (q : Nat), ¬ G.Exploring q →
      P.values[q]? = (G.potentials bonuses' reward).values[q]?) ∧
    ∃ order : List Nat, order.Nodup ∧
      (∀ q, q ∈ order ↔ Relation.ReflTransGen G.Linked 0 q) ∧
      Traversal.Stops G.destinations (G.expand (.ofAutomaton G.toAutomaton) bonuses reward)
        (G.startOfPass reward) ⟨[], [], order, P.values⟩ := by
  intro P
  have h : G.Enclosed := hG.enclosed
  refine ⟨KnownGraph.eval_initial G bonuses reward,
    fun q hq => KnownGraph.get_potentials_of_mem_failures bonuses reward hq,
    KnownGraph.get_potentials_of_size_le h h.size_le,
    fun q hq => KnownGraph.get_potentials_of_size_le h hq, fun q hq hfail hpath => ?_,
    fun q => KnownGraph.exploring_iff h,
    fun q hq => KnownGraph.mem_values_potentials_iff h hq.isExploring,
    KnownGraph.capped_potentials G bonuses hreward,
    fun bonuses' q hq => KnownGraph.getElem?_potentials_congr h hq bonuses bonuses' reward, ?_⟩
  · exact KnownGraph.get_potentials_of_reaches bonuses reward hq hfail
      ((KnownGraph.reaches_iff h).2 hpath)
  · exact ⟨G.walkOrder, (KnownGraph.isWalk_walkOrder G).nodup,
      fun q => KnownGraph.mem_walkOrder_iff h, KnownGraph.stops_startOfPass h bonuses reward⟩

/-- On the detour the accepting second state is worth the reward, the exploring third one has an
    entry, and the sink has no potential. -/
theorem classes_of_detour :
    let G := KnownGraph.detour
    let P := G.potentials KnownGraph.detourBonuses 8
    P.get 2 = 8 ∧ 3 ∈ P.values ∧ P.get G.capacity = 0 := by
  intro G P
  obtain ⟨hfirst, hthird⟩ := KnownGraph.reachable_detour
  obtain ⟨-, -, hsink, -, hpath, -, hentry, -⟩ := potentials_by_class G KnownGraph.built_detour
    KnownGraph.detourBonuses 8 (by norm_num)
  refine ⟨?_, (hentry 3 KnownGraph.exploring_detour).2 (hfirst.tail hthird), hsink⟩
  rw [hpath 2 (by decide) (by decide) ⟨2, by decide, .refl⟩]
  decide +kernel

end GoalAutomata
