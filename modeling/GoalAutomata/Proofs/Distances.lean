/-
  The distances of the search are lengths of shortest paths.

  A path leads along edges to a target.  The search takes the states of its queue
  one by one.  At every turn (`Search.Sound`) what is found is a distance, the
  states of the queue have distance `k` up to some place and `k + 1` from there on,
  and a state that has left the queue has all its predecessors found.  Hence every
  state at a distance up to `k` has been found, and a predecessor without a
  distance, of a state at distance `k`, is at distance `k + 1`.

  Every turn takes a state from the queue, and puts one there only if that leaves
  fewer edges with an unfound source, so the turns that `search` allows are enough.

  * `Search.stops_search`: the loop stops, at what `search` finds;
  * `getElem?_found_search`: the distance found is the length of a shortest path;
  * `lt_top_search`, `top_search_cases`: the top is one past the greatest distance.
-/
import GoalAutomata.Levels
import Mathlib.Data.List.Basic
import Mathlib.Order.Bounds.Basic
import Mathlib.Data.Nat.Find
import Mathlib.Logic.Relation

namespace GoalAutomata

/-! ## Paths -/

/-- `PathTo E T n q`: a path of `n` edges leads from `q` to a target. -/
inductive PathTo (E : Nat → Nat → Prop) (T : Nat → Prop) : Nat → Nat → Prop
  | target {q : Nat} : T q → PathTo E T 0 q
  | edge {n q r : Nat} : E q r → PathTo E T n r → PathTo E T (n + 1) q

/-- `k` is the length of a shortest path from `q` to a target. -/
def IsDistance (E : Nat → Nat → Prop) (T : Nat → Prop) (q k : Nat) : Prop :=
  IsLeast {n | PathTo E T n q} k

section Paths

variable {E : Nat → Nat → Prop} {T : Nat → Prop} {q r j k n : Nat}

theorem PathTo.target_of_zero (h : PathTo E T 0 q) : T q := by
  cases h with
  | target h => exact h

theorem PathTo.exists_edge (h : PathTo E T (n + 1) q) : ∃ r, E q r ∧ PathTo E T n r := by
  cases h with
  | edge hE h => exact ⟨_, hE, h⟩

theorem PathTo.mono {E' : Nat → Nat → Prop} (hE : ∀ q r, E q r → E' q r) (h : PathTo E T n q) :
    PathTo E' T n q := by
  induction h with
  | target hT => exact .target hT
  | edge he _ ih => exact .edge (hE _ _ he) ih

/-- **A path is followed step by step in another graph**, from related states.  Where an edge cannot
    be followed, nothing may lead on to a target. -/
theorem PathTo.simulate {E' : Nat → Nat → Prop} {T' : Nat → Prop} {B : Nat → Nat → Prop}
    (hT : ∀ q c, B q c → T q → T' c)
    (hE : ∀ q c r, B q c → E q r → ∃ b, B r b ∧ (E' c b ∨ ∀ n, ¬ PathTo E' T' n b))
    (h : PathTo E T n q) {c : Nat} (hc : B q c) : PathTo E' T' n c := by
  induction h generalizing c with
  | target ht => exact .target (hT _ _ hc ht)
  | edge he _ ih =>
    obtain ⟨b, hb, hnext | hdead⟩ := hE _ _ _ hc he
    · exact .edge hnext (ih hb)
    · exact absurd (ih hb) (hdead _)

/-- No path leads out of a part of the graph that has no target and no edge out of it. -/
theorem not_pathTo_of_trap {D : Nat → Prop} (hT : ∀ q, D q → ¬ T q)
    (hE : ∀ q r, D q → E q r → D r) (hq : D q) : ¬ PathTo E T n q := by
  intro h
  induction h with
  | target ht => exact hT _ hq ht
  | edge he _ ih => exact ih (hE _ _ hq he)

/-- **Edges into a trap change no path.** -/
theorem pathTo_iff_of_trap {E' : Nat → Nat → Prop} {D : Nat → Prop} (hT : ∀ q, D q → ¬ T q)
    (hE : ∀ q r, D q → E' q r → D r) (hold : ∀ q r, E q r → E' q r)
    (hnew : ∀ q r, E' q r → E q r ∨ D r) : PathTo E' T n q ↔ PathTo E T n q := by
  constructor
  · intro h
    refine h.simulate (B := Eq) (fun q c hqc ht => hqc ▸ ht) ?_ rfl
    rintro q _ r rfl he
    refine ⟨r, rfl, (hnew q r he).imp_right fun hD n => ?_⟩
    exact not_pathTo_of_trap hT (fun p t hp hpt => hE p t hp (hold p t hpt)) hD
  · exact PathTo.mono hold

/-- A state with a path has a distance. -/
theorem PathTo.exists_isDistance (h : PathTo E T n q) : ∃ k ≤ n, IsDistance E T q k := by
  classical
  have hex : ∃ n, PathTo E T n q := ⟨n, h⟩
  exact ⟨Nat.find hex, Nat.find_min' hex h, Nat.find_spec hex, fun m hm => Nat.find_min' hex hm⟩

namespace IsDistance

theorem unique (hj : IsDistance E T q j) (hk : IsDistance E T q k) : j = k := IsLeast.unique hj hk

theorem zero_iff : IsDistance E T q 0 ↔ T q :=
  ⟨fun h => h.1.target_of_zero, fun h => ⟨.target h, fun _ _ => Nat.zero_le _⟩⟩

/-- A shortest path goes on from its second state as a shortest path. -/
theorem exists_edge (h : IsDistance E T q (k + 1)) : ∃ r, E q r ∧ IsDistance E T r k := by
  obtain ⟨r, hE, hr⟩ := h.1.exists_edge
  refine ⟨r, hE, hr, fun m hm => ?_⟩
  have := h.2 (PathTo.edge hE hm)
  omega

theorem of_edge (hE : E q r) (hr : IsDistance E T r k) : ∃ j ≤ k + 1, IsDistance E T q j :=
  (PathTo.edge hE hr.1).exists_isDistance

/-- Every lesser distance occurs. -/
theorem exists_le (h : IsDistance E T q k) (hj : j ≤ k) : ∃ r, IsDistance E T r j := by
  induction k generalizing q with
  | zero =>
    obtain rfl : j = 0 := by omega
    exact ⟨q, h⟩
  | succ k ih =>
    rcases Nat.lt_or_eq_of_le hj with hlt | rfl
    · obtain ⟨r, -, hr⟩ := h.exists_edge
      exact ih hr (by omega)
    · exact ⟨q, h⟩

end IsDistance

end Paths

/-! ## Predecessors -/

section Predecessors

variable {edges : List (Nat × Nat)} {p q : Nat}

theorem mem_sourcesInto_foldl (P : StateMap States) :
    p ∈ sourcesInto (edges.foldl (fun P e =>
      P.alter e.2 fun qs? => some ((qs?.getD ∅).insert e.1)) P) q ↔
        p ∈ sourcesInto P q ∨ (p, q) ∈ edges := by
  induction edges generalizing P with
  | nil => simp
  | cons e edges ih =>
    have hstep : p ∈ sourcesInto (P.alter e.2 fun qs? => some ((qs?.getD ∅).insert e.1)) q ↔
        p ∈ sourcesInto P q ∨ (p, q) = e := by
      obtain ⟨p', q'⟩ := e
      simp only [sourcesInto, Std.ExtTreeMap.getElem?_alter, Std.compare_eq_iff_eq]
      split_ifs with hq
      · subst hq
        simp only [Option.getD_some, Std.ExtTreeSet.mem_toList, States.mem_insert, Prod.mk.injEq,
          and_true]
      · simp [Ne.symm hq]
    rw [List.foldl_cons, ih, hstep, List.mem_cons, or_assoc]

/-- The predecessors of a state are the sources of the edges into it. -/
theorem mem_sourcesInto : p ∈ sourcesInto (predecessors edges) q ↔ (p, q) ∈ edges := by
  rw [predecessors, mem_sourcesInto_foldl]
  simp [sourcesInto]

end Predecessors

/-! ## The loop -/

namespace Search

variable (sources : Nat → List Nat)

/-- Some turns lead from one search to another. -/
def Runs : Search → Search → Prop := Relation.ReflTransGen fun s t => s.turn sources = some t

/-- The loop stops at `t` when it starts from `s`. -/
def Stops (s t : Search) : Prop := Runs sources s t ∧ t.turn sources = none

section Turns

variable {sources} {s t : Search} {edges : List (Nat × Nat)} {targets : States} {k n p q : Nat}

theorem turn_eq_none_iff : s.turn sources = none ↔ s.queue = [] := by
  rw [turn]
  cases s.queue <;> simp

/-- Visiting some states queues those that are new, and gives them all the same distance. -/
theorem foldl_visit (ps : List Nat) (s : Search) :
    ∃ new : List Nat, (∀ p, p ∈ new ↔ p ∈ ps ∧ p ∉ s.found) ∧
      ps.foldl (visit k) s = { s with
        queue := s.queue ++ new
        found := new.foldl (fun m p => m.insert p (k + 1)) s.found } := by
  induction ps generalizing s with
  | nil => exact ⟨[], by simp, by simp⟩
  | cons p ps ih =>
    obtain ⟨new, hnew, heq⟩ := ih (visit k s p)
    by_cases hp : p ∈ s.found
    · rw [visit, if_pos hp] at hnew heq
      refine ⟨new, fun r => ?_, by rw [List.foldl_cons, visit, if_pos hp, heq]⟩
      rw [hnew, List.mem_cons]
      grind
    · rw [visit, if_neg hp] at hnew heq
      refine ⟨p :: new, fun r => ?_, by rw [List.foldl_cons, visit, if_neg hp, heq]; simp⟩
      rw [List.mem_cons, List.mem_cons, hnew, Std.ExtTreeMap.mem_insert, Std.compare_eq_iff_eq]
      grind

/-- **What a turn does**: the first state leaves the queue, and its new sources enter it. -/
theorem turn_cases (h : s.turn sources = some t) :
    ∃ q queue new, s.queue = q :: queue ∧ (∀ p, p ∈ new ↔ p ∈ sources q ∧ p ∉ s.found) ∧
      t = ⟨queue ++ new, new.foldl (fun m p => m.insert p (s.found[q]?.getD 0 + 1)) s.found,
        some (s.found[q]?.getD 0)⟩ := by
  rw [turn] at h
  cases hq : s.queue with
  | nil => simp [hq] at h
  | cons q queue =>
    simp only [hq, Option.some.injEq] at h
    obtain ⟨new, hnew, heq⟩ := foldl_visit (k := s.found[q]?.getD 0) (sources q)
      { s with queue, last? := some (s.found[q]?.getD 0) }
    exact ⟨q, queue, new, rfl, hnew, h.symm.trans heq⟩

/-! ### Enough turns -/

/-- What is left to do: the states in the queue, and the edges whose source has no distance. -/
def work (edges : List (Nat × Nat)) (s : Search) : Nat :=
  s.queue.length + (edges.filter (·.1 ∉ s.found)).length

theorem work_visit_le (he : (p, q) ∈ edges) : work edges (visit k s p) ≤ work edges s := by
  rw [visit]
  split_ifs with hp
  · exact le_rfl
  · have hsub : edges.filter (·.1 ∉ s.found.insert p (k + 1)) =
        (edges.filter (·.1 ∉ s.found)).filter (·.1 ≠ p) := by
      rw [List.filter_filter]
      refine List.filter_congr fun e _ => ?_
      simp only [Std.ExtTreeMap.mem_insert, Std.compare_eq_iff_eq]
      grind
    have hlt : (edges.filter (·.1 ∉ s.found.insert p (k + 1))).length <
        (edges.filter (·.1 ∉ s.found)).length := by
      rw [hsub, List.length_filter_lt_length_iff_exists]
      exact ⟨(p, q), by simp [he, hp], by simp⟩
    simp only [work, List.length_append, List.length_singleton]
    omega

theorem work_foldl_visit_le {ps : List Nat} (h : ∀ p ∈ ps, (p, q) ∈ edges) :
    work edges (ps.foldl (visit k) s) ≤ work edges s := by
  induction ps generalizing s with
  | nil => exact le_rfl
  | cons p ps ih =>
    exact (ih fun r hr => h r (List.mem_cons_of_mem _ hr)).trans
      (work_visit_le (h p List.mem_cons_self))

/-- **Every turn leaves less to do.** -/
theorem work_turn (hsub : ∀ q, ∀ p ∈ sources q, (p, q) ∈ edges) (h : s.turn sources = some t) :
    work edges t < work edges s := by
  rw [turn] at h
  cases hq : s.queue with
  | nil => simp [hq] at h
  | cons q queue =>
    simp only [hq, Option.some.injEq] at h
    have hle := work_foldl_visit_le (k := s.found[q]?.getD 0)
      (s := { s with queue, last? := some (s.found[q]?.getD 0) }) (hsub q)
    rw [h] at hle
    simp only [work, hq, List.length_cons] at hle ⊢
    omega

/-- **With enough turns the loop stops.** -/
theorem stops_run (hsub : ∀ q, ∀ p ∈ sources q, (p, q) ∈ edges) (hn : work edges s ≤ n) :
    Stops sources s (run sources n s) := by
  induction n generalizing s with
  | zero =>
    have hwork : s.queue.length + (edges.filter (·.1 ∉ s.found)).length ≤ 0 := hn
    have hnil : s.queue = [] := List.length_eq_zero_iff.1 (by omega)
    exact ⟨.refl, turn_eq_none_iff.2 hnil⟩
  | succ n ih =>
    rw [run]
    cases ht : s.turn sources with
    | none => exact ⟨.refl, ht⟩
    | some t =>
      have := work_turn hsub ht
      obtain ⟨hruns, hend⟩ := ih (s := t) (by omega)
      exact ⟨hruns.head ht, hend⟩

/-- **The search is where the loop stops**, which it does on every graph. -/
theorem stops_search (edges : List (Nat × Nat)) (targets : States) :
    Stops (sourcesInto (predecessors edges)) (start targets) (search edges targets) := by
  have hsub : ∀ q, ∀ p ∈ sourcesInto (predecessors edges) q, (p, q) ∈ edges :=
    fun _ _ => mem_sourcesInto.1
  refine stops_run hsub ?_
  have hle : (edges.filter (·.1 ∉ (start targets).found)).length ≤ edges.length :=
    List.length_filter_le _ _
  have hlen : (start targets).queue.length = targets.size := Std.ExtTreeSet.length_toList
  rw [work]
  omega

end Turns

/-! ## The invariant -/

/-- The invariant of the loop, for a graph with edges `E` and targets `T`. -/
structure Sound (E : Nat → Nat → Prop) (T : Nat → Prop) (s : Search) : Prop where
  distance : ∀ q k, s.found[q]? = some k → IsDistance E T q k
  target : ∀ q, T q → q ∈ s.found
  /-- a state that has left the queue has its predecessors found -/
  closed : ∀ q ∈ s.found, q ∉ s.queue → ∀ p, E p q → p ∈ s.found
  /-- the queue is at distance `k` and then at `k + 1`, and the last state was not beyond `k` -/
  front : ∃ k near far, s.queue = near ++ far ∧ (∀ q ∈ near, s.found[q]? = some k) ∧
    (∀ q ∈ far, s.found[q]? = some (k + 1)) ∧ ∀ l, s.last? = some l → l ≤ k
  /-- a state that has left the queue is not beyond the last one -/
  taken : ∀ q j, s.found[q]? = some j → q ∉ s.queue → ∃ l, s.last? = some l ∧ j ≤ l
  attained : ∀ l, s.last? = some l → ∃ q : Nat, s.found[q]? = some l

namespace Sound

variable {E : Nat → Nat → Prop} {T : Nat → Prop} {sources : Nat → List Nat} {s t : Search}
  {targets : States} {j k p q : Nat}

theorem start : Sound E (· ∈ targets) (start targets) := by
  have hfound : ∀ q : Nat, (Search.start targets).found[q]? =
      if q ∈ targets then some 0 else none := by
    intro q
    refine (StateMap.getElem?_foldl_insert (fun _ => 0) targets.toList ∅ q).trans ?_
    simp
  have hmem : ∀ {q}, q ∈ targets → q ∈ (Search.start targets).queue :=
    fun hq => Std.ExtTreeSet.mem_toList.2 hq
  have hfound_mem : ∀ {q}, q ∈ (Search.start targets).found → q ∈ targets := by
    intro q hq
    by_contra hno
    rw [Std.ExtTreeMap.mem_iff_isSome_getElem?, hfound, if_neg hno] at hq
    simp at hq
  refine ⟨fun q k hk => ?_, fun q hq => ?_, fun q hq hno => absurd (hmem (hfound_mem hq)) hno,
    ⟨0, _, [], (List.append_nil _).symm, fun q hq => ?_, by simp, by simp [Search.start]⟩,
    fun q j hj hno => ?_, by simp [Search.start]⟩
  · rw [hfound] at hk
    split_ifs at hk with hq
    cases hk
    exact IsDistance.zero_iff.2 hq
  · rw [Std.ExtTreeMap.mem_iff_isSome_getElem?, hfound, if_pos hq]
    rfl
  · rw [hfound, if_pos (Std.ExtTreeSet.mem_toList.1 hq)]
  · have hq := Std.ExtTreeMap.mem_iff_isSome_getElem?.2 (Option.isSome_of_eq_some hj)
    exact absurd (hmem (hfound_mem hq)) hno

/-- The state at the head of the queue has the least distance there, and the others at most one
    more. -/
theorem head (h : Sound E T s) {queue : List Nat} (hq : s.queue = q :: queue) :
    ∃ k near far, queue = near ++ far ∧ s.found[q]? = some k ∧
      (∀ p ∈ near, s.found[p]? = some k) ∧ (∀ p ∈ far, s.found[p]? = some (k + 1)) ∧
      ∀ l, s.last? = some l → l ≤ k := by
  obtain ⟨k, near, far, heq, hnear, hfar, hlast⟩ := h.front
  rw [hq] at heq
  cases near with
  | cons p near =>
    obtain ⟨rfl, rfl⟩ := List.cons.inj heq
    exact ⟨k, near, far, rfl, hnear _ List.mem_cons_self,
      fun p hp => hnear p (List.mem_cons_of_mem _ hp), hfar, hlast⟩
  | nil =>
    rw [List.nil_append] at heq
    subst heq
    refine ⟨k + 1, queue, [], (List.append_nil _).symm, hfar _ List.mem_cons_self,
      fun p hp => hfar p (List.mem_cons_of_mem _ hp), by simp, fun l hl => ?_⟩
    exact (hlast l hl).trans (Nat.le_succ k)

/-- **Nothing near is missed**: with no state of the queue below distance `k`, every state at a
    distance up to `k` has been found. -/
theorem mem_found (h : Sound E T s) (hqueue : ∀ q ∈ s.queue, ∀ i, s.found[q]? = some i → k ≤ i)
    (hd : IsDistance E T p j) (hj : j ≤ k) : p ∈ s.found := by
  induction j generalizing p with
  | zero => exact h.target p (IsDistance.zero_iff.1 hd)
  | succ j ih =>
    obtain ⟨r, hE, hr⟩ := hd.exists_edge
    have hfound := ih hr (by omega)
    refine h.closed r hfound (fun hqueued => ?_) p hE
    obtain ⟨i, hi⟩ := Option.isSome_iff_exists.1 (Std.ExtTreeMap.mem_iff_isSome_getElem?.1 hfound)
    have hle := hqueue r hqueued i hi
    have heq := (h.distance r i hi).unique hr
    omega

/-- A state without a distance has a path through its successor, and no shorter one, or it would
    have been found. -/
theorem distance_of_edge (h : Sound E T s)
    (hqueue : ∀ q ∈ s.queue, ∀ i, s.found[q]? = some i → k ≤ i) (hk : s.found[q]? = some k)
    (hE : E p q) (hp : p ∉ s.found) : IsDistance E T p (k + 1) := by
  obtain ⟨i, hi, hd⟩ := IsDistance.of_edge hE (h.distance q k hk)
  rcases Nat.lt_or_eq_of_le hi with hlt | rfl
  · exact absurd (h.mem_found hqueue hd (by omega)) hp
  · exact hd

/-- **A turn keeps the invariant.** -/
theorem turn (hsources : ∀ q p, p ∈ sources q ↔ E p q) (h : Sound E T s)
    (ht : s.turn sources = some t) : Sound E T t := by
  obtain ⟨q, queue, new, hq, hnew, rfl⟩ := turn_cases ht
  obtain ⟨k, near, far, rfl, hk, hnear, hfar, hlast⟩ := h.head hq
  rw [hk, Option.getD_some]
  have hqueue : ∀ r ∈ s.queue, ∀ i, s.found[r]? = some i → k ≤ i := by
    rw [hq]
    grind
  have hfound : ∀ r : Nat, (new.foldl (fun m p => m.insert p (k + 1)) s.found)[r]? =
      if r ∈ new then some (k + 1) else s.found[r]? :=
    StateMap.getElem?_foldl_insert (fun _ => k + 1) new s.found
  have hmem : ∀ r, r ∈ new.foldl (fun m p => m.insert p (k + 1)) s.found ↔
      r ∈ new ∨ r ∈ s.found := by
    intro r
    rw [Std.ExtTreeMap.mem_iff_isSome_getElem?, hfound, Std.ExtTreeMap.mem_iff_isSome_getElem?]
    split_ifs with hr <;> simp [hr]
  have hold : ∀ r i, s.found[r]? = some i → r ∉ new := fun r i hi hr =>
    ((hnew r).1 hr).2 (Std.ExtTreeMap.mem_iff_isSome_getElem?.2 (Option.isSome_of_eq_some hi))
  refine ⟨fun r i hi => ?_, fun r hr => (hmem r).2 (.inr (h.target r hr)), fun r hr hno p hp => ?_,
    ⟨k, near, far ++ new, by simp, fun r hr => ?_, fun r hr => ?_, by simp⟩,
    fun r i hi hno => ⟨k, rfl, ?_⟩, fun l hl => ⟨q, ?_⟩⟩
  · rw [hfound] at hi
    split_ifs at hi with hr
    · cases hi
      obtain ⟨hsource, hno⟩ := (hnew r).1 hr
      exact h.distance_of_edge hqueue hk ((hsources q r).1 hsource) hno
    · exact h.distance r i hi
  · rw [hmem]
    by_cases hpf : p ∈ s.found
    · exact .inr hpf
    · by_cases hrq : r = q
      · exact .inl ((hnew p).2 ⟨(hsources q p).2 (hrq ▸ hp), hpf⟩)
      · rw [hmem] at hr
        refine absurd (h.closed r ?_ ?_ p hp) hpf <;> grind
  · rw [hfound, if_neg (hold r k (hnear r hr)), hnear r hr]
  · rw [hfound]
    split_ifs with hrn
    · rfl
    · exact hfar r ((List.mem_append.1 hr).resolve_right hrn)
  · rw [hfound] at hi
    split_ifs at hi with hr
    · exact absurd (List.mem_append_right _ hr) hno
    · by_cases hrq : r = q
      · subst hrq
        exact (Option.some.inj (hi.symm.trans hk)).le
      · obtain ⟨l, hl, hil⟩ := h.taken r i hi (by grind)
        exact hil.trans (hlast l hl)
  · cases hl
    rw [hfound, if_neg (hold q k hk), hk]

theorem runs (hsources : ∀ q p, p ∈ sources q ↔ E p q) (h : Sound E T s)
    (hruns : Runs sources s t) : Sound E T t := by
  induction hruns with
  | refl => exact h
  | tail _ ht ih => exact ih.turn hsources ht

/-! ### At the end of the loop -/

/-- With the queue empty every distance has been found. -/
theorem getElem?_found (h : Sound E T s) (hq : s.queue = []) :
    s.found[q]? = some k ↔ IsDistance E T q k := by
  refine ⟨h.distance q k, fun hd => ?_⟩
  have hmem := h.mem_found (k := k) (by simp [hq]) hd le_rfl
  obtain ⟨i, hi⟩ := Option.isSome_iff_exists.1 (Std.ExtTreeMap.mem_iff_isSome_getElem?.1 hmem)
  rw [hi, (h.distance q i hi).unique hd]

theorem lt_top (h : Sound E T s) (hq : s.queue = []) (hk : s.found[q]? = some k) : k < s.top := by
  obtain ⟨l, hl, hle⟩ := h.taken q k hk (by simp [hq])
  rw [top, hl]
  exact Nat.lt_succ_of_le hle

theorem top_cases (h : Sound E T s) :
    s.top = 0 ∨ ∃ q k : Nat, s.found[q]? = some k ∧ s.top = k + 1 := by
  cases hl : s.last? with
  | none => exact .inl (by rw [top, hl]; rfl)
  | some l =>
    obtain ⟨q, hq⟩ := h.attained l hl
    exact .inr ⟨q, l, hq, by rw [top, hl]; rfl⟩

end Sound

/-! ## What the search finds -/

section Found

variable {edges : List (Nat × Nat)} {targets : States} {k q : Nat}

theorem sound_search : Sound (fun p r => (p, r) ∈ edges) (· ∈ targets) (search edges targets) :=
  Sound.start.runs (fun _ _ => mem_sourcesInto) (stops_search edges targets).1

theorem queue_search : (search edges targets).queue = [] :=
  turn_eq_none_iff.1 (stops_search edges targets).2

/-- **The distance found is the length of a shortest path.** -/
theorem getElem?_found_search : (search edges targets).found[q]? = some k ↔
    IsDistance (fun p r => (p, r) ∈ edges) (· ∈ targets) q k :=
  sound_search.getElem?_found queue_search

/-- **The distance of the state taken last is the greatest.** -/
theorem lt_top_search (h : (search edges targets).found[q]? = some k) :
    k < (search edges targets).top :=
  sound_search.lt_top queue_search h

theorem top_search_cases (edges : List (Nat × Nat)) (targets : States) :
    (search edges targets).top = 0 ∨ ∃ q k : Nat,
      (search edges targets).found[q]? = some k ∧ (search edges targets).top = k + 1 :=
  sound_search.top_cases

end Found

end Search

end GoalAutomata
