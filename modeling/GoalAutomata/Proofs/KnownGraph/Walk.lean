/-
  The order in which a breadth-first walk meets the states of a known graph.

  A walk meets a state once, and unless it starts there, after a state that leads to
  it (`IsWalk`).  Every round but the last meets a new state, so as many rounds as
  there are states, and one more, find all that can be reached.

  A graph that is made by recording transitions from known states has all its
  transitions among known states (`KnownGraph.Built.enclosed`).  Its walk hence meets
  exactly the states that can be reached from the initial one
  (`KnownGraph.mem_walkOrder_iff`).
-/
import GoalAutomata.KnownGraph.Potential
import GoalAutomata.Proofs.KnownGraph.Observed
import Mathlib.Data.List.Perm.Subperm

namespace GoalAutomata

theorem nodup_eraseDups {α : Type} [BEq α] [LawfulBEq α] :
    ∀ xs : List α, xs.eraseDups.Nodup
  | [] => by simp
  | x :: xs => by
    rw [List.eraseDups_cons, List.nodup_cons]
    exact ⟨by simp, nodup_eraseDups _⟩
termination_by xs => xs.length
decreasing_by exact Nat.lt_succ_of_le (List.length_filter_le _ _)

/-! ## Walks -/

/-- A walk along `next` from some first states: every state is met once, and unless it is one of the
    first, after a state that leads to it. -/
structure IsWalk (next : Nat → List Nat) (start w : List Nat) : Prop where
  nodup : w.Nodup
  origin : ∀ s q t, w = s ++ q :: t → q ∈ start ∨ ∃ p ∈ s, q ∈ next p

section Walk

variable {next : Nat → List Nat} {start seen frontier fresh w : List Nat} {n k : Nat}

theorem isWalk_nil : IsWalk next start [] where
  nodup := List.nodup_nil
  origin s q t h := by simp at h

/-- A walk goes on to new states to which it leads. -/
theorem IsWalk.append (h : IsWalk next start seen) (hfresh : fresh.Nodup)
    (hnew : ∀ q ∈ fresh, q ∉ seen)
    (hfrom : ∀ q ∈ fresh, q ∈ start ∨ ∃ p ∈ seen, q ∈ next p) :
    IsWalk next start (seen ++ fresh) where
  nodup := h.nodup.append hfresh fun q hq hq' => hnew q hq' hq
  origin s q t heq := by
    rcases List.append_eq_append_iff.1 heq with ⟨s', rfl, hs'⟩ | ⟨t', hseen, ht'⟩
    · have hq : q ∈ fresh := by simp [hs']
      exact (hfrom q hq).imp_right fun ⟨p, hp, hpq⟩ => ⟨p, List.mem_append_left _ hp, hpq⟩
    · cases t' with
      | nil =>
        rw [List.append_nil] at hseen
        obtain rfl : fresh = q :: t := ht'.symm
        exact hseen ▸ hfrom q List.mem_cons_self
      | cons q' t' =>
        obtain ⟨rfl, -⟩ := List.cons_eq_cons.1 ht'
        exact h.origin s q t' hseen

/-- A round meets the states of its frontier that are new, and goes on from these. -/
theorem meetFrom_succ_cases (next : Nat → List Nat) (n : Nat) (seen frontier : List Nat) :
    ((∀ q ∈ frontier, q ∈ seen) ∧ meetFrom next (n + 1) seen frontier = seen) ∨
    ∃ fresh : List Nat, fresh ≠ [] ∧ fresh.Nodup ∧ (∀ q, q ∈ fresh ↔ q ∈ frontier ∧ q ∉ seen) ∧
      meetFrom next (n + 1) seen frontier =
        meetFrom next n (seen ++ fresh) (fresh.flatMap next) := by
  have hfresh : ∀ q, q ∈ frontier.eraseDups.filter (!seen.contains ·) ↔
      q ∈ frontier ∧ q ∉ seen := by simp
  have hnodup := (nodup_eraseDups frontier).filter (!seen.contains ·)
  simp only [meetFrom]
  generalize frontier.eraseDups.filter (!seen.contains ·) = fresh at hfresh hnodup
  cases fresh with
  | nil => exact Or.inl ⟨fun q hq => by_contra fun hq' => by simpa using (hfresh q).2 ⟨hq, hq'⟩, rfl⟩
  | cons q fresh => exact Or.inr ⟨q :: fresh, List.cons_ne_nil _ _, hnodup, hfresh, rfl⟩

theorem IsWalk.meetFrom (h : IsWalk next start seen)
    (hfrontier : ∀ q ∈ frontier, q ∈ start ∨ ∃ p ∈ seen, q ∈ next p) :
    IsWalk next start (meetFrom next n seen frontier) := by
  induction n generalizing seen frontier with
  | zero => exact h
  | succ n ih =>
    rcases meetFrom_succ_cases next n seen frontier with ⟨-, hend⟩ |
      ⟨fresh, -, hnodup, hmem, hround⟩
    · rwa [hend]
    · rw [hround]
      refine ih (h.append hnodup (fun q hq => ((hmem q).1 hq).2)
        fun q hq => hfrontier q ((hmem q).1 hq).1) fun q hq => ?_
      obtain ⟨p, hp, hpq⟩ := List.mem_flatMap.1 hq
      exact Or.inr ⟨p, List.mem_append_right _ hp, hpq⟩

/-- Different states below a bound are no more than the bound. -/
theorem length_le_of_nodup (h : seen.Nodup) (hlt : ∀ q ∈ seen, q < k) : seen.length ≤ k := by
  have hsub : seen ⊆ List.range k := fun q hq => List.mem_range.2 (hlt q hq)
  simpa using (List.subperm_of_subset h hsub).length_le

/-- **Among `k` states, more rounds than states are missing meet all to which the walk leads.** -/
theorem IsWalk.closed_meetFrom (h : IsWalk next start seen) (hseen : ∀ q ∈ seen, q < k)
    (hfrontier : ∀ q ∈ frontier, q < k) (hnext : ∀ q < k, ∀ r ∈ next q, r < k)
    (hfrom : ∀ q ∈ frontier, q ∈ start ∨ ∃ p ∈ seen, q ∈ next p)
    (hopen : ∀ q ∈ seen, ∀ r ∈ next q, r ∈ seen ∨ r ∈ frontier) (hrounds : k < n + seen.length) :
    (∀ q, q ∈ seen ∨ q ∈ frontier → q ∈ GoalAutomata.meetFrom next n seen frontier) ∧
      ∀ q ∈ GoalAutomata.meetFrom next n seen frontier, ∀ r ∈ next q,
        r ∈ GoalAutomata.meetFrom next n seen frontier := by
  induction n generalizing seen frontier with
  | zero => exact absurd (length_le_of_nodup h.nodup hseen) (by omega)
  | succ n ih =>
    rcases meetFrom_succ_cases next n seen frontier with ⟨hold, hend⟩ |
      ⟨fresh, hne, hnodup, hmem, hround⟩
    · rw [hend]
      exact ⟨fun q hq => hq.elim id (hold q), fun q hq r hr => (hopen q hq r hr).elim id (hold r)⟩
    · have hboth : ∀ q, q ∈ seen ++ fresh ↔ q ∈ seen ∨ q ∈ frontier := by
        intro q
        rw [List.mem_append, hmem]
        tauto
      have hlt : ∀ q ∈ seen ++ fresh, q < k := fun q hq =>
        ((hboth q).1 hq).elim (hseen q) (hfrontier q)
      have hmore : 0 < fresh.length := List.length_pos_iff.2 hne
      have hgrow : k < n + (seen ++ fresh).length := by
        rw [List.length_append]
        omega
      have hopen' : ∀ q ∈ seen ++ fresh, ∀ r ∈ next q,
          r ∈ seen ++ fresh ∨ r ∈ fresh.flatMap next := by
        -- what a state met before leads to is met by now, and what a new one leads to comes next
        intro q hq r hr
        rcases List.mem_append.1 hq with hq | hq
        · exact Or.inl ((hboth r).2 (hopen q hq r hr))
        · exact Or.inr (List.mem_flatMap.2 ⟨q, hq, hr⟩)
      have hled : ∀ r ∈ fresh.flatMap next, ∃ q ∈ seen ++ fresh, r ∈ next q := by
        intro r hr
        obtain ⟨q, hq, hqr⟩ := List.mem_flatMap.1 hr
        exact ⟨q, List.mem_append_right _ hq, hqr⟩
      have hwalk := h.append hnodup (fun q hq => ((hmem q).1 hq).2)
        fun q hq => hfrom q ((hmem q).1 hq).1
      obtain ⟨hin, hclosed⟩ := ih hwalk hlt
        (fun r hr => (hled r hr).elim fun q hq => hnext q (hlt q hq.1) r hq.2)
        (fun r hr => Or.inr (hled r hr)) hopen' hgrow
      rw [hround]
      exact ⟨fun q hq => hin q (Or.inl ((hboth q).2 hq)), hclosed⟩

end Walk

/-! ## Graphs made by recording -/

namespace KnownGraph

variable {C : Type} {G H : KnownGraph C} {q r : Nat}

/-- All states that are mentioned are known, and there is room for them. -/
structure Enclosed (G : KnownGraph C) : Prop where
  size_pos : 0 < G.size
  size_le : G.size ≤ G.capacity
  linked : ∀ q r, G.Linked q r → q < G.size ∧ r < G.size

section Record

variable [DecidableEq C] {R : Type} {d : Discovery} {c : C} {label : Fluents}
  {accepting failed : Bool}

/-- Made from an initial configuration by recording transitions from known states. -/
inductive Built : KnownGraph C → Prop
  | new (initial : C) (accepting failed : Bool) (alphabet : Fluents) (capacity : Nat) :
    Built (new initial accepting failed alphabet capacity)
  | record {G H : KnownGraph C} {d : Discovery} (q : Nat) (label : Fluents) (c : C)
    (accepting failed : Bool) : Built G → q < G.size →
      (G.record q label c accepting failed : Outcome Empty _ _) = .done d H → Built H

theorem Built.indexed (h : G.Built) : G.Indexed := by
  induction h with
  | new initial accepting failed alphabet capacity => exact .new _ _ _ _ _
  | record q label c accepting failed _ _ hr ih => exact ih.of_recorded (recorded_of_record hr)

theorem Enclosed.record (h : G.Enclosed) (hindex : G.Indexed) (hq : q < G.size)
    (hr : (G.record q label c accepting failed : Outcome R _ _) = .done d H) : H.Enclosed := by
  have hrec := recorded_of_record hr
  have hsize : G.size ≤ H.size := hrec.configurations_prefix.length_le
  obtain ⟨-, hobs⟩ := observed_of_record hr
  have hd : d.state < H.size := (List.getElem?_eq_some_iff.1 (hrec.configuration hindex)).1
  exact {
    size_pos := Nat.lt_of_lt_of_le h.size_pos hsize
    size_le := hrec.size_le h.size_le
    linked := by
      rintro p t ⟨l, hl⟩
      rcases (hobs p l t).1 hl with hold | ⟨-, rfl, rfl, rfl⟩
      · obtain ⟨hp, ht⟩ := h.linked p t ⟨l, hold⟩
        exact ⟨Nat.lt_of_lt_of_le hp hsize, Nat.lt_of_lt_of_le ht hsize⟩
      · exact ⟨Nat.lt_of_lt_of_le hq hsize, hd⟩ }

theorem Built.enclosed (h : G.Built) : G.Enclosed := by
  induction h with
  | new initial accepting failed alphabet capacity =>
    exact ⟨Nat.one_pos, Nat.le_max_right _ _, fun q r ⟨_, hl⟩ => absurd hl not_observed_new⟩
  | record q label c accepting failed hG hq hr ih => exact ih.record hG.indexed hq hr

end Record

/-! ## The walk from the initial state -/

theorem mem_destinations_iff : r ∈ G.destinations q ↔ G.Linked q r := by
  simp [destinations, Linked, Observed, Std.ExtTreeMap.mem_toList_iff_getElem?_eq_some]

theorem isWalk_walkOrder (G : KnownGraph C) : IsWalk G.destinations [0] G.walkOrder :=
  isWalk_nil.meetFrom fun _ hq => Or.inl hq

/-- A state that is met can be reached. -/
theorem reaches_of_isWalk {w s t : List Nat} (h : IsWalk G.destinations [0] w)
    (hw : w = s ++ q :: t) : Relation.ReflTransGen G.Linked 0 q := by
  induction hn : s.length using Nat.strongRecOn generalizing s q t with
  | _ n ih =>
    rcases h.origin s q t hw with hq | ⟨p, hp, hpq⟩
    · rw [List.mem_singleton.1 hq]
    · obtain ⟨s₁, s₂, rfl⟩ := List.append_of_mem hp
      have hshort : s₁.length < n := by
        rw [← hn, List.length_append, List.length_cons]
        omega
      have hw' : w = s₁ ++ p :: (s₂ ++ q :: t) := by simp [hw]
      exact (ih _ hshort hw' rfl).tail (mem_destinations_iff.1 hpq)

/-- **The walk meets what can be reached** from the initial state. -/
theorem mem_walkOrder_iff (h : G.Enclosed) :
    q ∈ G.walkOrder ↔ Relation.ReflTransGen G.Linked 0 q := by
  have hstart : IsWalk G.destinations [0] [] := isWalk_nil
  have hfrontier : ∀ q ∈ [0], q < G.size := by simpa using h.size_pos
  have hnext : ∀ q < G.size, ∀ r ∈ G.destinations q, r < G.size := fun q _ r hr =>
    (h.linked q r (mem_destinations_iff.1 hr)).2
  have hrounds : G.size < G.size + 1 + ([] : List Nat).length := by simp
  obtain ⟨hin, hclosed⟩ := hstart.closed_meetFrom (by simp) hfrontier hnext
    (fun _ hq => Or.inl hq) (by simp) hrounds
  constructor
  · intro hq
    obtain ⟨s, t, hw⟩ := List.append_of_mem hq
    exact reaches_of_isWalk (isWalk_walkOrder G) hw
  · intro hq
    induction hq with
    | refl => exact hin 0 (Or.inr (List.mem_singleton_self 0))
    | tail _ hl ih => exact hclosed _ ih _ (mem_destinations_iff.2 hl)

end KnownGraph

end GoalAutomata
