/-
  What the forward pass gives to exploring states.

  The pass expands every state once, with the potential that the state has by then
  (`KnownGraph.found`).  A later transition may still lower it, and the states to
  which it leads do not learn of that.  An exploring state gets the least of the bids
  of its known predecessors, each with the potential at which it was expanded
  (`KnownGraph.isLeast_offers`); these are the final ones for predecessors that no
  transition from a later state leads to (`KnownGraph.found_eq_of_not_late`).

  All amounts are exact.
-/
import Mathlib.Algebra.Order.Field.Rat
import Mathlib.Data.List.TakeWhile
import Mathlib.Order.Bounds.Basic
import GoalAutomata.Proofs.KnownGraph.Potential
import GoalAutomata.Proofs.KnownGraph.Walk

namespace GoalAutomata

theorem Amount.lesser_rat (x y : Rat) : Amount.lesser x y = min x y := by
  change (if y < x then y else x) = min x y
  split_ifs with h
  · exact (min_eq_right h.le).symm
  · exact (min_eq_left (not_lt.1 h)).symm

/-! ## The least of some amounts -/

/-- The least of a set of amounts, if there is one. -/
def BestOf (S : Set Rat) : Option Rat → Prop
  | none => S = ∅
  | some x => IsLeast S x

theorem BestOf.insert {S : Set Rat} {o : Option Rat} (h : BestOf S o) (b : Rat) :
    BestOf (insert b S) (some (o.elim b (min · b))) := by
  cases o with
  | none =>
    obtain rfl : S = ∅ := h
    simp [BestOf]
  | some x =>
    rw [Option.elim_some, min_comm]
    exact IsLeast.insert b h

theorem BestOf.exists_isLeast {S : Set Rat} {o : Option Rat} (h : BestOf S o) (hS : S.Nonempty) :
    ∃ x, o = some x ∧ IsLeast S x := by
  cases o with
  | none => exact absurd h hS.ne_empty
  | some x => exact ⟨x, rfl, h⟩

namespace KnownGraph

variable {C : Type} {G : KnownGraph C} {bonuses P : StateMap Rat} {reward x y : Rat} {p q r : Nat}

/-! ## Exploring states -/

/-- A known state that is still explored: it is not the initial one, no known failure, and has no
    known path to acceptance. -/
structure Exploring (G : KnownGraph C) (q : Nat) : Prop where
  known : q < G.size
  ne_zero : q ≠ 0
  not_mem_failures : q ∉ G.failures
  not_reaches : ¬ G.toAutomaton.Reaches q

theorem isExploring_iff : G.isExploring (.ofAutomaton G.toAutomaton) q = true ↔
    q ≠ 0 ∧ ¬ G.toAutomaton.Reaches q ∧ q ∉ G.failures := by
  simp [isExploring, Levels.isFailure_iff, and_assoc, ← Std.ExtTreeSet.contains_iff_mem]

theorem Exploring.isExploring (h : G.Exploring q) :
    G.isExploring (.ofAutomaton G.toAutomaton) q = true :=
  isExploring_iff.2 ⟨h.ne_zero, h.not_reaches, h.not_mem_failures⟩

theorem exploring_of_linked (hG : G.Enclosed) (hl : G.Linked q r)
    (hq : G.isExploring (.ofAutomaton G.toAutomaton) q = true) : G.Exploring q := by
  obtain ⟨hne, hlost, hfail⟩ := isExploring_iff.1 hq
  exact ⟨(hG.linked q r hl).1, hne, hfail, hlost⟩

/-! ## Bids -/

/-- What a transition from `p` to `r` offers when `p` has the potential `x`: its potential and the
    bonus of `r`, or nothing from an accepting state, and no more than the reward. -/
def bid (G : KnownGraph C) (bonuses : StateMap Rat) (reward x : Rat) (p r : Nat) : Rat :=
  min (if p ∈ G.accepting then 0 else x + bonuses[r]?.getD 0) reward

theorem offer_eq_bid : G.offer bonuses reward P p r = G.bid bonuses reward (P[p]?.getD 0) p r :=
  Amount.lesser_rat _ _

theorem bid_le_reward : G.bid bonuses reward x p r ≤ reward := min_le_right _ _

theorem bid_mono (h : x ≤ y) : G.bid bonuses reward x p r ≤ G.bid bonuses reward y p r := by
  refine min_le_min_right _ ?_
  split_ifs
  · exact le_rfl
  · exact add_le_add_left h _

/-- The bids for `r` of the states in `s`, when they have the potentials `f`. -/
def bidsFrom (G : KnownGraph C) (bonuses : StateMap Rat) (reward : Rat) (f : Nat → Rat)
    (s : List Nat) (r : Nat) : Set Rat :=
  {x | ∃ p ∈ s, G.Linked p r ∧ x = G.bid bonuses reward (f p) p r}

section BidsFrom

variable {f : Nat → Rat} {s t : List Nat}

theorem bidsFrom_mono (h : ∀ p ∈ s, p ∈ t) :
    G.bidsFrom bonuses reward f s r ⊆ G.bidsFrom bonuses reward f t r :=
  fun _ ⟨p, hp, hx⟩ => ⟨p, h p hp, hx⟩

theorem bidsFrom_concat_of_linked (h : G.Linked p r) : G.bidsFrom bonuses reward f (s ++ [p]) r =
    insert (G.bid bonuses reward (f p) p r) (G.bidsFrom bonuses reward f s r) := by
  ext x
  simp only [bidsFrom, List.mem_append, List.mem_singleton, Set.mem_ofPred_eq, Set.mem_insert_iff]
  constructor
  · rintro ⟨q, hq | rfl, hl, rfl⟩
    · exact Or.inr ⟨q, hq, hl, rfl⟩
    · exact Or.inl rfl
  · rintro (rfl | ⟨q, hq, hl, rfl⟩)
    · exact ⟨p, Or.inr rfl, h, rfl⟩
    · exact ⟨q, Or.inl hq, hl, rfl⟩

theorem bidsFrom_concat_of_not_linked (h : ¬ G.Linked p r) :
    G.bidsFrom bonuses reward f (s ++ [p]) r = G.bidsFrom bonuses reward f s r := by
  refine (bidsFrom_mono fun q hq => List.mem_append_left _ hq).antisymm' ?_
  rintro x ⟨q, hq, hl, rfl⟩
  rcases List.mem_append.1 hq with hq | hq
  · exact ⟨q, hq, hl, rfl⟩
  · exact absurd (List.mem_singleton.1 hq ▸ hl) h

end BidsFrom

/-! ## One expansion -/

section Expand

variable {L : Levels}

/-- No transition from `q` to itself lowers its potential. -/
def Steady (G : KnownGraph C) (L : Levels) (bonuses : StateMap Rat) (reward : Rat)
    (P : StateMap Rat) (q : Nat) : Prop :=
  G.isExploring L q = true → ∃ x, P[q]? = some x ∧ x ≤ G.bid bonuses reward x q q

theorem getElem?_relax_of_isExploring (hr : G.isExploring L r = true) :
    (G.relax L bonuses reward q P r)[r]? =
      some (P[r]?.elim (G.bid bonuses reward (P[q]?.getD 0) q r)
        (min · (G.bid bonuses reward (P[q]?.getD 0) q r))) := by
  rw [relax, if_pos hr, Std.ExtTreeMap.getElem?_alter, if_pos (Std.compare_eq_iff_eq.2 rfl),
    offer_eq_bid]
  cases P[r]? with
  | none => rfl
  | some x => exact congrArg some (Amount.lesser_rat _ _)

theorem getElem?_relax_of_ne (h : r ≠ p) : (G.relax L bonuses reward q P r)[p]? = P[p]? := by
  unfold relax
  split_ifs
  · simp [Std.ExtTreeMap.getElem?_alter, h]
  · rfl

/-- While a steady state is expanded, its own potential stays. -/
theorem Steady.getElem?_relax (h : G.Steady L bonuses reward P q) (r : Nat) :
    (G.relax L bonuses reward q P r)[q]? = P[q]? := by
  by_cases hrq : r = q
  · subst hrq
    cases hr : G.isExploring L r with
    | false => exact KnownGraph.getElem?_relax hr
    | true =>
      obtain ⟨x, hx, hle⟩ := h hr
      rw [getElem?_relax_of_isExploring hr, hx, Option.getD_some, Option.elim_some, min_eq_left hle]
  · exact getElem?_relax_of_ne hrq

/-- Every transition from a steady state bids with the potential at which the state is expanded. -/
theorem Steady.getElem?_foldl_relax (h : G.Steady L bonuses reward P q)
    (hr : G.isExploring L r = true) (ts : List Nat) :
    (ts.foldl (G.relax L bonuses reward q) P)[r]? =
      if r ∈ ts then
        some (P[r]?.elim (G.bid bonuses reward (P[q]?.getD 0) q r)
          (min · (G.bid bonuses reward (P[q]?.getD 0) q r)))
      else P[r]? := by
  induction ts generalizing P with
  | nil => rfl
  | cons t ts ih =>
    have hstay := h.getElem?_relax t
    have hsteady : G.Steady L bonuses reward (G.relax L bonuses reward q P t) q := by
      unfold Steady
      rwa [hstay]
    rw [List.foldl_cons, ih hsteady, hstay]
    by_cases htr : t = r
    · -- the bid is made at once, and another one of the same state changes nothing
      subst htr
      rw [getElem?_relax_of_isExploring hr, if_pos List.mem_cons_self, Option.elim_some]
      cases P[t]? <;> simp
    · rw [getElem?_relax_of_ne htr]
      simp [Ne.symm htr]

/-- **An expansion of a steady state bids for every state to which it leads.** -/
theorem Steady.getElem?_expand (h : G.Steady L bonuses reward P q)
    (hr : G.isExploring L r = true) :
    (G.expand L bonuses reward P q)[r]? =
      if r ∈ G.destinations q then
        some (P[r]?.elim (G.bid bonuses reward (P[q]?.getD 0) q r)
          (min · (G.bid bonuses reward (P[q]?.getD 0) q r)))
      else P[r]? :=
  h.getElem?_foldl_relax hr _

end Expand

/-! ## The pass -/

section Pass

variable {s t : List Nat}

/-- The potentials after the states in `s` have been expanded. -/
def expanded (G : KnownGraph C) (bonuses : StateMap Rat) (reward : Rat) (s : List Nat) :
    StateMap Rat :=
  s.foldl (G.expand (.ofAutomaton G.toAutomaton) bonuses reward)
    (G.settled (.ofAutomaton G.toAutomaton) reward)

theorem expanded_concat : G.expanded bonuses reward (s ++ [p]) =
    G.expand (.ofAutomaton G.toAutomaton) bonuses reward (G.expanded bonuses reward s) p :=
  List.foldl_concat ..

theorem values_potentials :
    (G.potentials bonuses reward).values = G.expanded bonuses reward G.walkOrder := rfl

/-- The potential with which the pass finds a state when it expands it; what it ends with for a
    state that is not met. -/
def found (G : KnownGraph C) (bonuses : StateMap Rat) (reward : Rat) (p : Nat) : Rat :=
  (G.expanded bonuses reward (G.walkOrder.takeWhile (· ≠ p)))[p]?.getD 0

theorem found_of_walkOrder (h : G.walkOrder = s ++ p :: t) :
    G.found bonuses reward p = (G.expanded bonuses reward s)[p]?.getD 0 := by
  have hs : ∀ q ∈ s, q ≠ p := by
    have hnodup := (isWalk_walkOrder G).nodup
    rw [h, List.nodup_append] at hnodup
    exact fun q hq => hnodup.2.2 q hq p List.mem_cons_self
  have htake : G.walkOrder.takeWhile (· ≠ p) = s := by
    rw [h, List.takeWhile_append_of_pos (by simpa using hs)]
    simp
  rw [found, htake]

theorem found_of_not_mem (h : p ∉ G.walkOrder) :
    G.found bonuses reward p = (G.potentials bonuses reward).get p := by
  have htake : G.walkOrder.takeWhile (· ≠ p) = G.walkOrder :=
    List.takeWhile_eq_self_iff.2 fun q hq => by
      have hne : q ≠ p := fun heq => h (heq ▸ hq)
      simpa using hne
  rw [found, htake, Potential.get, values_potentials]

theorem getElem?_expanded_of_not_isExploring
    (h : G.isExploring (.ofAutomaton G.toAutomaton) q = false) (s : List Nat) :
    (G.expanded bonuses reward s)[q]? = (G.settled (.ofAutomaton G.toAutomaton) reward)[q]? :=
  List.foldlRecOn (motive := fun M => M[q]? = _) _ _ rfl
    fun _ hM _ _ => (getElem?_expand h).trans hM

theorem getElem?_settled_of_isExploring
    (h : G.isExploring (.ofAutomaton G.toAutomaton) q = true) :
    (G.settled (.ofAutomaton G.toAutomaton) reward)[q]? = none := by
  obtain ⟨hne, hlost, hfail⟩ := isExploring_iff.1 h
  rw [getElem?_settled, if_neg hfail, if_neg (by simp [Levels.isFailure_iff.2 hlost]), if_neg hne]

theorem found_of_not_isExploring
    (h : G.isExploring (.ofAutomaton G.toAutomaton) p = false) :
    G.found bonuses reward p = (G.potentials bonuses reward).get p := by
  rw [found, Potential.get, values_potentials, getElem?_expanded_of_not_isExploring h,
    getElem?_expanded_of_not_isExploring h]

section Bonuses

variable (hbonuses : ∀ (q : Nat) (x : Rat), bonuses[q]? = some x → 0 ≤ x)
include hbonuses

/-- An exploring state is steady as soon as an expanded state has bid for it. -/
theorem steady_of_bestOf {f : Nat → Rat} (hw : G.walkOrder = s ++ p :: t)
    (h : G.isExploring (.ofAutomaton G.toAutomaton) p = true →
      BestOf (G.bidsFrom bonuses reward f s p) (G.expanded bonuses reward s)[p]?) :
    G.Steady (.ofAutomaton G.toAutomaton) bonuses reward (G.expanded bonuses reward s) p := by
  intro hp
  obtain ⟨hne, hlost, -⟩ := isExploring_iff.1 hp
  obtain ⟨q, hq, hqp⟩ := ((isWalk_walkOrder G).origin s p t hw).resolve_left
    fun h0 => hne (List.mem_singleton.1 h0)
  obtain ⟨x, hx, hleast⟩ := (h hp).exists_isLeast ⟨_, q, hq, mem_destinations_iff.1 hqp, rfl⟩
  refine ⟨x, hx, le_min ?_ ?_⟩
  · have hbonus : 0 ≤ bonuses[p]?.getD 0 := by
      cases hb : bonuses[p]? with
      | none => exact le_rfl
      | some b => exact hbonuses p b hb
    have hacc : p ∉ G.accepting := fun hacc => hlost (Automaton.reaches_of_mem_accepting hacc)
    rw [if_neg hacc]
    exact le_add_of_nonneg_right hbonus
  · obtain ⟨q, -, -, rfl⟩ := hleast.1
    exact bid_le_reward

/-- **After some states have been expanded, an exploring state has the least of their bids**, each
    with the potential at which the state was expanded. -/
theorem bestOf_expanded (hw : G.walkOrder = s ++ t)
    (hr : G.isExploring (.ofAutomaton G.toAutomaton) r = true) :
    BestOf (G.bidsFrom bonuses reward (G.found bonuses reward) s r)
      (G.expanded bonuses reward s)[r]? := by
  induction s using List.reverseRecOn generalizing t r with
  | nil =>
    have hnone : (G.expanded bonuses reward [])[r]? = none := getElem?_settled_of_isExploring hr
    rw [hnone]
    simp [BestOf, bidsFrom]
  | append_singleton s p ih =>
    have hw' : G.walkOrder = s ++ p :: t := by rw [hw, List.append_assoc, List.singleton_append]
    have hsteady := steady_of_bestOf hbonuses hw' fun hp => ih hw' hp
    rw [expanded_concat, hsteady.getElem?_expand hr, ← found_of_walkOrder hw']
    by_cases hl : G.Linked p r
    · rw [if_pos (mem_destinations_iff.2 hl), bidsFrom_concat_of_linked hl]
      exact (ih hw' hr).insert _
    · rw [if_neg (mt mem_destinations_iff.1 hl), bidsFrom_concat_of_not_linked hl]
      exact ih hw' hr

/-! ## Final potentials -/

/-- The state `p` is left behind: a transition leads to it from a state that is expanded later. -/
def Late (G : KnownGraph C) (p : Nat) : Prop :=
  ∃ s t q, G.walkOrder = s ++ p :: t ∧ q ∈ t ∧ G.Linked q p

/-- An exploring state that is met has the least bid of the states before it when it is expanded,
    and that of all states in the end. -/
theorem isLeast_found (hp : G.isExploring (.ofAutomaton G.toAutomaton) p = true)
    (hw : G.walkOrder = s ++ p :: t) :
    IsLeast (G.bidsFrom bonuses reward (G.found bonuses reward) s p) (G.found bonuses reward p) ∧
      IsLeast (G.bidsFrom bonuses reward (G.found bonuses reward) G.walkOrder p)
        ((G.potentials bonuses reward).get p) := by
  obtain ⟨q, hq, hqp⟩ := ((isWalk_walkOrder G).origin s p t hw).resolve_left
    fun h0 => (isExploring_iff.1 hp).1 (List.mem_singleton.1 h0)
  have hl := mem_destinations_iff.1 hqp
  obtain ⟨x, hx, hleast⟩ := (bestOf_expanded hbonuses hw hp).exists_isLeast
    ⟨_, q, hq, hl, rfl⟩
  obtain ⟨y, hy, hleast'⟩ := (bestOf_expanded hbonuses
    (List.append_nil _).symm hp).exists_isLeast ⟨_, q, hw ▸ List.mem_append_left _ hq, hl, rfl⟩
  rw [found_of_walkOrder hw, hx, Potential.get, values_potentials, hy]
  exact ⟨hleast, hleast'⟩

/-- **After its expansion the potential of a state can only fall.** -/
theorem get_le_found (p : Nat) :
    (G.potentials bonuses reward).get p ≤ G.found bonuses reward p := by
  cases hp : G.isExploring (.ofAutomaton G.toAutomaton) p with
  | false => exact (found_of_not_isExploring hp).ge
  | true =>
    by_cases hmet : p ∈ G.walkOrder
    · obtain ⟨s, t, hw⟩ := List.append_of_mem hmet
      obtain ⟨hthen, hnow⟩ := isLeast_found hbonuses hp hw
      exact hthen.mono hnow (bidsFrom_mono fun q hq => hw ▸ List.mem_append_left _ hq)
    · exact (found_of_not_mem hmet).ge

/-- **It stays unless the state is exploring, and a transition leads to it from one that is expanded
    later.** -/
theorem found_eq_of_not_late
    (h : G.isExploring (.ofAutomaton G.toAutomaton) p = true → ¬ G.Late p) :
    G.found bonuses reward p = (G.potentials bonuses reward).get p := by
  refine le_antisymm ?_ (get_le_found hbonuses p)
  cases hp : G.isExploring (.ofAutomaton G.toAutomaton) p with
  | false => exact (found_of_not_isExploring hp).le
  | true =>
    by_cases hmet : p ∈ G.walkOrder
    · obtain ⟨s, t, hw⟩ := List.append_of_mem hmet
      obtain ⟨hthen, hnow⟩ := isLeast_found hbonuses hp hw
      -- the least bid in the end comes from a state before `p` or from `p` itself
      obtain ⟨q, hq, hl, hx⟩ := hnow.1
      rw [hw] at hq
      rcases List.mem_append.1 hq with hq | hq
      · exact hthen.2 ⟨q, hq, hl, hx⟩
      · rcases List.mem_cons.1 hq with rfl | hq
        · obtain ⟨x, hx', hle⟩ := steady_of_bestOf hbonuses hw
            (fun hp => bestOf_expanded hbonuses hw hp) hp
          rw [hx, found_of_walkOrder hw, hx', Option.getD_some]
          exact hle
        · exact absurd ⟨s, t, q, hw, hq, hl⟩ (h hp)
    · exact (found_of_not_mem hmet).le

end Bonuses

end Pass

/-- The bids for `r` of all states that can be reached from the initial one, when they have the
    potentials `f`. -/
def offers (G : KnownGraph C) (bonuses : StateMap Rat) (reward : Rat) (f : Nat → Rat) (r : Nat) :
    Set Rat :=
  {x | ∃ p, Relation.ReflTransGen G.Linked 0 p ∧ G.Linked p r ∧
    x = G.bid bonuses reward (f p) p r}

theorem bidsFrom_walkOrder (h : G.Enclosed) (f : Nat → Rat) :
    G.bidsFrom bonuses reward f G.walkOrder r = G.offers bonuses reward f r := by
  simp only [bidsFrom, offers, mem_walkOrder_iff h]

/-- An exploring state that can be reached has the least offer, made with the potentials at which
    its predecessors were expanded. -/
theorem isLeast_offers [DecidableEq C] (hG : G.Enclosed)
    (hbonuses : ∀ (q : Nat) (x : Rat), bonuses[q]? = some x → 0 ≤ x) (hr : G.Exploring r)
    (hreach : Relation.ReflTransGen G.Linked 0 r) :
    IsLeast (G.offers bonuses reward (G.found bonuses reward) r)
      ((G.potentials bonuses reward).get r) := by
  obtain ⟨s, t, hw⟩ := List.append_of_mem ((mem_walkOrder_iff hG).2 hreach)
  rw [← bidsFrom_walkOrder hG]
  exact (isLeast_found hbonuses hr.isExploring hw).2

end KnownGraph

/-- **An exploring state gets the least offer of its known predecessors, as they were when the
    forward pass expanded them.**  Take a graph made by recording transitions from known states,
    bonuses that are not negative, and an exploring state that can be reached.  Its potential is
    the least of what its predecessors that can be reached offer, each with the potential at which
    it was expanded.  Such a potential is never less than the final one.  So the state has the least
    offer at the final potentials exactly if some predecessor that makes it has made the same offer
    when it was expanded.  That is so if no exploring predecessor is led to from a state that is
    expanded after it. -/
theorem exploring_potential_is_least_offer {C : Type} [DecidableEq C] (G : KnownGraph C)
    (hG : G.Built) (bonuses : StateMap Rat)
    (hbonuses : ∀ (q : Nat) (x : Rat), bonuses[q]? = some x → 0 ≤ x) (reward : Rat) (r : Nat)
    (hr : G.Exploring r) (hreach : Relation.ReflTransGen G.Linked 0 r) :
    let P := (G.potentials bonuses reward).get
    let F := G.found bonuses reward
    IsLeast (G.offers bonuses reward F r) (P r) ∧
    (∀ p, P p ≤ F p) ∧
    (IsLeast (G.offers bonuses reward P r) (P r) ↔
      ∃ p, Relation.ReflTransGen G.Linked 0 p ∧ G.Linked p r ∧
        IsLeast (G.offers bonuses reward P r) (G.bid bonuses reward (P p) p r) ∧
        G.bid bonuses reward (F p) p r = G.bid bonuses reward (P p) p r) ∧
    ((∀ p, G.Linked p r → G.Exploring p → ¬ G.Late p) →
      IsLeast (G.offers bonuses reward P r) (P r)) := by
  intro P F
  have hleast : IsLeast (G.offers bonuses reward F r) (P r) :=
    KnownGraph.isLeast_offers hG.enclosed hbonuses hr hreach
  have hfall : ∀ p, P p ≤ F p := KnownGraph.get_le_found hbonuses
  refine ⟨hleast, hfall, ⟨fun h => ?_, ?_⟩, fun hlate => ?_⟩
  · -- the predecessor from which the potential comes cannot offer less in the end
    obtain ⟨p, hp, hl, hx⟩ := hleast.1
    have hle : P r ≤ G.bid bonuses reward (P p) p r := h.2 ⟨p, hp, hl, rfl⟩
    have heq : G.bid bonuses reward (F p) p r = G.bid bonuses reward (P p) p r :=
      le_antisymm (hx ▸ hle) (KnownGraph.bid_mono (hfall p))
    exact ⟨p, hp, hl, heq ▸ hx ▸ h, heq⟩
  · rintro ⟨p, hp, hl, hmin, heq⟩
    have hle : P r ≤ G.bid bonuses reward (P p) p r := heq ▸ hleast.2 ⟨p, hp, hl, rfl⟩
    obtain ⟨q, hq, hql, hx⟩ := hleast.1
    have hge : G.bid bonuses reward (P p) p r ≤ P r :=
      (hmin.2 ⟨q, hq, hql, rfl⟩).trans (hx ▸ KnownGraph.bid_mono (hfall q))
    exact le_antisymm hle hge ▸ hmin
  · have hsame : G.offers bonuses reward P r = G.offers bonuses reward F r := by
      ext x
      refine exists_congr fun p => and_congr_right fun _ => and_congr_right fun hl => ?_
      have hp : F p = P p := KnownGraph.found_eq_of_not_late hbonuses fun hexp =>
        hlate p hl (KnownGraph.exploring_of_linked hG.enclosed hl hexp)
      rw [hp]
    rwa [hsame]

/-! ## A detour that comes too late -/

namespace KnownGraph

/-- The initial state leads to the first and to the accepting second one, the second to the first,
    and the first to the third. -/
def detour : KnownGraph Nat where
  alphabet := .ofList ["x"]
  capacity := 4
  configurations := [0, 1, 2, 3]
  ids := [(3, 3), (2, 2), (1, 1), (0, 0)]
  rows :=
    let toFirst : LabelMap := (∅ : LabelMap).insert ∅ 1
    (((∅ : StateMap LabelMap).insert 0 (toFirst.insert (.ofList ["x"]) 2)).insert 2
      toFirst).insert 1 ((∅ : LabelMap).insert ∅ 3)
  accepting := .ofList [2]
  failures := ∅

/-- A bonus of one for the first and the third state. -/
def detourBonuses : StateMap Rat := ((∅ : StateMap Rat).insert 1 1).insert 3 1

theorem built_detour : detour.Built :=
  have h₀ := Built.new 0 false false (.ofList ["x"]) 4
  have h₁ := Built.record 0 ∅ 1 false false h₀ (by decide) rfl
  have h₂ := Built.record 0 (.ofList ["x"]) 2 true false h₁ (by decide) rfl
  have h₃ := Built.record 2 ∅ 1 false false h₂ (by decide) rfl
  Built.record 1 ∅ 3 false false h₃ (by decide) rfl

theorem detourBonuses_nonneg (q : Nat) (x : Rat) (h : detourBonuses[q]? = some x) : 0 ≤ x := by
  simp only [detourBonuses, Std.ExtTreeMap.getElem?_insert] at h
  have hone : x = 1 := by
    split_ifs at h
    · exact (Option.some.inj h).symm
    · exact (Option.some.inj h).symm
    · simp at h
  exact hone ▸ zero_le_one

theorem exploring_detour : detour.Exploring 3 where
  known := by decide
  ne_zero := by decide
  not_mem_failures := by decide
  not_reaches := Levels.isFailure_iff.1 (by decide +kernel)

theorem reachable_detour :
    Relation.ReflTransGen detour.Linked 0 1 ∧ detour.Linked 1 3 := by
  have hfirst : detour.Observed 0 ∅ 1 := by
    unfold Observed
    decide +kernel
  have hthird : detour.Observed 1 ∅ 3 := by
    unfold Observed
    decide +kernel
  exact ⟨.single ⟨∅, hfirst⟩, ⟨∅, hthird⟩⟩

end KnownGraph

/-- The third state takes the first's offer of two, which was made with the potential one. -/
theorem detour_takes_early_offer :
    let G := KnownGraph.detour
    let bonuses := KnownGraph.detourBonuses
    (G.potentials bonuses 8).get 3 = 2 ∧
      IsLeast (G.offers bonuses 8 (G.found bonuses 8) 3) ((G.potentials bonuses 8).get 3) := by
  obtain ⟨hfirst, hthird⟩ := KnownGraph.reachable_detour
  exact ⟨by decide +kernel, (exploring_potential_is_least_offer KnownGraph.detour
    KnownGraph.built_detour KnownGraph.detourBonuses KnownGraph.detourBonuses_nonneg 8 3
    KnownGraph.exploring_detour (hfirst.tail hthird)).1⟩

/-- By the end of the pass the potential of the first state has fallen to zero, so it offers one,
    but the third state has two. -/
theorem detour_misses_least_offer :
    let G := KnownGraph.detour
    let bonuses := KnownGraph.detourBonuses
    let P := (G.potentials bonuses 8).get
    G.Built ∧ (∀ (q : Nat) (x : Rat), bonuses[q]? = some x → 0 ≤ x) ∧ G.Exploring 3 ∧
      Relation.ReflTransGen G.Linked 0 3 ∧ ¬ IsLeast (G.offers bonuses 8 P 3) (P 3) := by
  intro G bonuses P
  obtain ⟨hfirst, hthird⟩ := KnownGraph.reachable_detour
  refine ⟨KnownGraph.built_detour, KnownGraph.detourBonuses_nonneg, KnownGraph.exploring_detour,
    hfirst.tail hthird, fun h => ?_⟩
  have hle : P 3 ≤ G.bid bonuses 8 (P 1) 1 3 := h.2 ⟨1, hfirst, hthird, rfl⟩
  have hlt : G.bid bonuses 8 (P 1) 1 3 < P 3 := by decide +kernel
  exact absurd hle (not_le.2 hlt)

end GoalAutomata
