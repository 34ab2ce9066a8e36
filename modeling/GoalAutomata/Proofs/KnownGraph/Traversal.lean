/-
  The forward pass as a loop.

  `meetFrom` finds the order of a breadth-first walk in a number of rounds that is
  given beforehand, and the forward pass then expands the states in this order.  A
  `Traversal` does both at once and has no bound: it takes the states of its
  frontier one by one, passes over those that it has visited, and expands the
  others, whose successors make up the next frontier.  It stops when both frontiers
  are empty.

  Among finitely many states it always stops, cycles or not, and comes to the same
  end (`Traversal.stops_meetFrom`).
-/
import GoalAutomata.Proofs.KnownGraph.Walk

namespace GoalAutomata

/-- A breadth-first traversal in its course, with the value that is found on the way. -/
structure Traversal (V : Type) where
  /-- the states still to be taken in this round -/
  frontier : List Nat
  /-- those to be taken in the next one -/
  later : List Nat
  /-- the states that have been expanded, in this order -/
  visited : List Nat
  value : V

namespace Traversal

variable {V : Type} (next : Nat → List Nat) (f : V → Nat → V)

/-- One turn of the loop, none at its end. -/
def turn : Traversal V → Option (Traversal V)
  | ⟨[], [], _, _⟩ => none
  | ⟨[], q :: later, visited, v⟩ => some ⟨q :: later, [], visited, v⟩
  | ⟨q :: frontier, later, visited, v⟩ =>
    if q ∈ visited then some ⟨frontier, later, visited, v⟩
    else some ⟨frontier, later ++ next q, visited ++ [q], f v q⟩

/-- Some turns lead from one traversal to another. -/
def Runs : Traversal V → Traversal V → Prop :=
  Relation.ReflTransGen fun s t => turn next f s = some t

/-- The loop stops at `t` when it starts from `s`. -/
def Stops (s t : Traversal V) : Prop := Runs next f s t ∧ turn next f t = none

variable {next f} {seen frontier later : List Nat} {n k q : Nat} {v : V}

/-- The states that a round expands. -/
def fresh (seen frontier : List Nat) : List Nat := frontier.eraseDups.filter (!seen.contains ·)

theorem eraseDups_filter (p : Nat → Bool) :
    ∀ xs : List Nat, (xs.filter p).eraseDups = xs.eraseDups.filter p
  | [] => rfl
  | x :: xs => by
    have ih := eraseDups_filter p (xs.filter fun y => !y == x)
    rw [List.eraseDups_cons, List.filter_cons, List.filter_cons, ← ih]
    split_ifs with hx
    · rw [List.eraseDups_cons, List.filter_filter, List.filter_filter]
      simp only [Bool.and_comm]
    · refine congrArg List.eraseDups ?_
      rw [List.filter_filter]
      refine List.filter_congr fun y _ => ?_
      by_cases hy : y = x
      · simp [hy, hx]
      · simp [hy]
termination_by xs => xs.length
decreasing_by exact Nat.lt_succ_of_le (List.length_filter_le _ _)

theorem fresh_cons_of_mem (h : q ∈ seen) : fresh seen (q :: frontier) = fresh seen frontier := by
  rw [fresh, List.eraseDups_cons, List.filter_cons_of_neg (by simp [h]), eraseDups_filter,
    List.filter_filter]
  refine List.filter_congr fun y _ => ?_
  by_cases hy : y = q
  · simp [hy, h]
  · simp [hy]

theorem fresh_cons_of_not_mem (h : q ∉ seen) :
    fresh seen (q :: frontier) = q :: fresh (seen ++ [q]) frontier := by
  rw [fresh, List.eraseDups_cons, List.filter_cons_of_pos (by simp [h]), eraseDups_filter,
    List.filter_filter, fresh]
  refine congrArg (q :: ·) (List.filter_congr fun y _ => ?_)
  simp [Bool.beq_eq_decide_eq]

/-- **A round expands the new states of its frontier**, each once, and collects their successors. -/
theorem runs_round (seen frontier later : List Nat) (v : V) :
    Runs next f ⟨frontier, later, seen, v⟩
      ⟨[], later ++ (fresh seen frontier).flatMap next, seen ++ fresh seen frontier,
        (fresh seen frontier).foldl f v⟩ := by
  induction frontier generalizing seen later v with
  | nil => simp [fresh, Runs, Relation.ReflTransGen.refl]
  | cons q frontier ih =>
    by_cases hq : q ∈ seen
    · have hturn : turn next f ⟨q :: frontier, later, seen, v⟩ = some ⟨frontier, later, seen, v⟩ :=
        if_pos hq
      rw [fresh_cons_of_mem hq]
      exact (ih seen later v).head hturn
    · have hturn : turn next f ⟨q :: frontier, later, seen, v⟩ =
          some ⟨frontier, later ++ next q, seen ++ [q], f v q⟩ := if_neg hq
      have hrest := ih (seen ++ [q]) (later ++ next q) (f v q)
      rw [List.append_assoc, List.append_assoc] at hrest
      rw [fresh_cons_of_not_mem hq]
      exact hrest.head hturn

/-- **Among `k` states a traversal stops**, and ends as a walk does that has enough rounds. -/
theorem stops_meetFrom (hnext : ∀ q < k, ∀ r ∈ next q, r < k) (hnodup : seen.Nodup)
    (hseen : ∀ q ∈ seen, q < k) (hfrontier : ∀ q ∈ frontier, q < k)
    (hrounds : k < n + seen.length) (v : V) :
    ∃ rest, meetFrom next n seen frontier = seen ++ rest ∧
      Stops next f ⟨frontier, [], seen, v⟩ ⟨[], [], seen ++ rest, rest.foldl f v⟩ := by
  induction n generalizing seen frontier v with
  | zero => exact absurd (length_le_of_nodup hnodup hseen) (by omega)
  | succ n ih =>
    have hround := @runs_round V next f seen frontier [] v
    have hstep : meetFrom next (n + 1) seen frontier =
        if (fresh seen frontier).isEmpty then seen
        else meetFrom next n (seen ++ fresh seen frontier) ((fresh seen frontier).flatMap next) :=
      rfl
    have hfresh : ∀ q ∈ fresh seen frontier, q ∈ frontier ∧ q ∉ seen := by simp [fresh]
    have hdistinct : (fresh seen frontier).Nodup := (nodup_eraseDups frontier).filter _
    generalize fresh seen frontier = new at hround hstep hfresh hdistinct
    cases new with
    | nil => exact ⟨[], by simpa using hstep, by simpa using hround, rfl⟩
    | cons p new =>
      have hlt : ∀ q ∈ seen ++ p :: new, q < k := fun q hq =>
        (List.mem_append.1 hq).elim (hseen q) fun h => hfrontier q (hfresh q h).1
      have hled : ∀ r ∈ (p :: new).flatMap next, r < k := by
        intro r hr
        obtain ⟨q, hq, hqr⟩ := List.mem_flatMap.1 hr
        exact hnext q (hlt q (List.mem_append_right _ hq)) r hqr
      have hmore : k < n + (seen ++ p :: new).length := by
        rw [List.length_append, List.length_cons]
        omega
      obtain ⟨rest, hrest, hruns, hend⟩ := ih
        (hnodup.append hdistinct fun q hq hq' => (hfresh q hq').2 hq) hlt hled hmore
        ((p :: new).foldl f v)
      refine ⟨p :: new ++ rest, ?_, ?_⟩
      · rw [hstep, ← List.append_assoc, ← hrest]
        rfl
      · rw [← List.append_assoc, List.foldl_append]
        refine ⟨hround.trans ?_, hend⟩
        cases hlater : (p :: new).flatMap next with
        | nil =>
          rw [hlater] at hruns
          exact hruns
        | cons r later =>
          rw [hlater] at hruns
          exact hruns.head rfl

end Traversal

end GoalAutomata
