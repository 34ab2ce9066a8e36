/-
  What recording a transition does to a known graph.

  `KnownGraph.Recorded` says all of it: a configuration keeps its state or gets
  the next one, and the state is classified.  Recording fails only for want of
  room, and leaves the graph as it was then (`KnownGraph.record_cases`).

  From the empty record on, the configurations of the states and the states of the
  configurations are inverse to each other (`KnownGraph.Indexed`), and a state is
  classified as its configuration is (`KnownGraph.Faithful`).
-/
import GoalAutomata.KnownGraph
import Mathlib.Data.List.Nodup

namespace GoalAutomata

namespace KnownGraph

variable {C : Type} {G H : KnownGraph C} {q r : Nat} {label : Fluents} {c : C}
  {accepting failed : Bool}

/-! ## The parts of a graph -/

theorem configuration?_new {alphabet : Fluents} {capacity : Nat} {b initial : C} :
    (new initial accepting failed alphabet capacity).configuration? q = some b ↔
      q = 0 ∧ b = initial := by
  simp only [new, configuration?, List.getElem?_singleton, Option.ite_none_right_eq_some,
    Option.some.injEq]
  exact and_congr_right fun _ => eq_comm

@[simp] theorem configurations_connect :
    (G.connect q label r).1.configurations = G.configurations := by
  unfold connect; split_ifs <;> rfl

@[simp] theorem ids_connect : (G.connect q label r).1.ids = G.ids := by
  unfold connect; split_ifs <;> rfl

@[simp] theorem capacity_connect : (G.connect q label r).1.capacity = G.capacity := by
  unfold connect; split_ifs <;> rfl

@[simp] theorem accepting_connect : (G.connect q label r).1.accepting = G.accepting := by
  unfold connect; split_ifs <;> rfl

@[simp] theorem failures_connect : (G.connect q label r).1.failures = G.failures := by
  unfold connect; split_ifs <;> rfl

@[simp] theorem configurations_classify :
    (G.classify q accepting failed).1.configurations = G.configurations := by
  unfold classify; split_ifs <;> rfl

@[simp] theorem ids_classify : (G.classify q accepting failed).1.ids = G.ids := by
  unfold classify; split_ifs <;> rfl

@[simp] theorem capacity_classify : (G.classify q accepting failed).1.capacity = G.capacity := by
  unfold classify; split_ifs <;> rfl

theorem mem_accepting_classify : r ∈ (G.classify q accepting failed).1.accepting ↔
    r ∈ G.accepting ∨ r = q ∧ accepting = true ∧ failed = false := by
  unfold classify
  split_ifs with hf ha
  · simp [hf]
  · exact States.mem_insert.trans (by simp [ha, hf])
  · simp [ha]

theorem mem_failures_classify : r ∈ (G.classify q accepting failed).1.failures ↔
    r ∈ G.failures ∨ r = q ∧ failed = true := by
  unfold classify
  split_ifs with hf ha
  · exact States.mem_insert.trans (by simp [hf])
  · simp [hf]
  · simp [hf]

/-! ## Recording -/

section Record

variable [DecidableEq C] {R : Type} {d : Discovery} {K : KnownGraph C} {isNew : Bool}

/-- A configuration has a state, there is no room for it, or it is added. -/
theorem enter_cases (G : KnownGraph C) (c : C) :
    (∃ q, G.state? c = some q ∧ (G.enter c : Outcome R _ _) = .done (q, false) G) ∨
    (G.state? c = none ∧ G.capacity ≤ G.size ∧
      (G.enter c : Outcome R _ _) = .failed (.graphFull G.capacity) G) ∨
    (G.state? c = none ∧ G.size < G.capacity ∧
      (G.enter c : Outcome R _ _) = .done (G.size, true) (G.add c)) := by
  unfold enter
  cases hs : G.state? c with
  | some q => exact .inl ⟨q, rfl, rfl⟩
  | none =>
    by_cases hroom : G.capacity ≤ G.size
    · exact .inr (.inl ⟨rfl, hroom, if_pos hroom⟩)
    · exact .inr (.inr ⟨rfl, by omega, if_neg hroom⟩)

/-- A configuration that is entered had its state before, or is added. -/
theorem cases_of_enter (h : (G.enter c : Outcome R _ _) = .done (r, isNew) K) :
    (G.state? c = some r ∧ isNew = false ∧ K = G) ∨
    (G.state? c = none ∧ G.size < G.capacity ∧ r = G.size ∧ isNew = true ∧ K = G.add c) := by
  rcases enter_cases (R := R) G c with ⟨q, hs, he⟩ | ⟨-, -, he⟩ | ⟨hs, hroom, he⟩
  · cases he.symm.trans h
    exact .inl ⟨hs, rfl, rfl⟩
  · cases he.symm.trans h
  · cases he.symm.trans h
    exact .inr ⟨hs, hroom, rfl, rfl, rfl⟩

/-- **Recording fails only for a new configuration without room**, and changes nothing then. -/
theorem record_cases (G : KnownGraph C) (q : Nat) (label : Fluents) (c : C)
    (accepting failed : Bool) :
    (∃ d H, (G.record q label c accepting failed : Outcome R _ _) = .done d H) ∨
    (G.state? c = none ∧ G.capacity ≤ G.size ∧
      (G.record q label c accepting failed : Outcome R _ _) =
        .failed (.graphFull G.capacity) G) := by
  unfold record
  rcases enter_cases (R := R) G c with ⟨r, -, he⟩ | ⟨hs, hroom, he⟩ | ⟨-, -, he⟩
  · exact .inl ⟨_, _, by rw [he]; rfl⟩
  · exact .inr ⟨hs, hroom, by rw [he]; rfl⟩
  · exact .inl ⟨_, _, by rw [he]; rfl⟩

/-- A call that succeeds reports nothing. -/
theorem record_eq_done
    (h : (G.record q label c accepting failed : Outcome R _ _).result = .ok d) :
    (G.record q label c accepting failed : Outcome R _ _) =
      .done d (G.record q label c accepting failed : Outcome R _ _).state := by
  rcases record_cases (R := R) G q label c accepting failed with ⟨_, _, hr⟩ | ⟨-, -, hr⟩
  · rw [hr] at h ⊢
    cases h
    rfl
  · rw [hr] at h
    cases h

/-- A call that fails does so for want of room, and leaves the graph as it was. -/
theorem state_of_record_error {e : Error}
    (h : (G.record q label c accepting failed : Outcome R _ _).result = .error e) :
    (e = .graphFull G.capacity ∧ G.state? c = none ∧ G.capacity ≤ G.size) ∧
      (G.record q label c accepting failed : Outcome R _ _).state = G := by
  rcases record_cases (R := R) G q label c accepting failed with ⟨_, _, hr⟩ | ⟨hs, hroom, hr⟩
  · rw [hr] at h
    cases h
  · rw [hr] at h ⊢
    cases h
    exact ⟨⟨rfl, hs, hroom⟩, rfl⟩

/-- A transition is recorded by entering its destination, connecting and classifying it. -/
theorem exists_enter_of_record
    (h : (G.record q label c accepting failed : Outcome R _ _) = .done d H) :
    ∃ K, (G.enter c : Outcome R _ _) = .done (d.state, d.isNew) K ∧
      H = ((K.connect q label d.state).1.classify d.state accepting failed).1 ∧
      d.changed = (d.isNew || (K.connect q label d.state).2 ||
        ((K.connect q label d.state).1.classify d.state accepting failed).2) := by
  unfold record at h
  rcases enter_cases (R := R) G c with ⟨r, -, he⟩ | ⟨-, -, he⟩ | ⟨-, -, he⟩
  · rw [he] at h ⊢
    cases h
    exact ⟨_, rfl, rfl, rfl⟩
  · rw [he] at h
    cases h
  · rw [he] at h ⊢
    cases h
    exact ⟨_, rfl, rfl, rfl⟩

/-- What recording a transition to the configuration `c` makes of the graph `G`. -/
structure Recorded (G : KnownGraph C) (c : C) (accepting failed : Bool) (H : KnownGraph C)
    (d : Discovery) : Prop where
  capacity : H.capacity = G.capacity
  old : ∀ r, G.state? c = some r → d.state = r ∧ d.isNew = false ∧
    H.configurations = G.configurations ∧ H.ids = G.ids
  new : G.state? c = none → G.size < G.capacity ∧ d.state = G.size ∧ d.isNew = true ∧
    H.configurations = G.configurations ++ [c] ∧ H.ids = (c, G.size) :: G.ids
  accepting : ∀ r, r ∈ H.accepting ↔
    r ∈ G.accepting ∨ r = d.state ∧ accepting = true ∧ failed = false
  failures : ∀ r, r ∈ H.failures ↔ r ∈ G.failures ∨ r = d.state ∧ failed = true

theorem recorded_of_record
    (h : (G.record q label c accepting failed : Outcome R _ _) = .done d H) :
    G.Recorded c accepting failed H d := by
  obtain ⟨K, he, rfl, -⟩ := exists_enter_of_record h
  rcases cases_of_enter he with ⟨hs, hn, rfl⟩ | ⟨hs, hroom, hd, hn, rfl⟩
  · exact {
      capacity := by simp
      old := by simp [hs, hn]
      new := by simp [hs]
      accepting := fun r => by simp [mem_accepting_classify]
      failures := fun r => by simp [mem_failures_classify] }
  · exact {
      capacity := by simp [add]
      old := by simp [hs]
      new := fun _ => ⟨hroom, hd, hn, by simp [add], by simp [add]⟩
      accepting := fun r => by simp [mem_accepting_classify, add]
      failures := fun r => by simp [mem_failures_classify, add] }

namespace Recorded

/-- Afterwards the configuration has its state. -/
theorem state?_eq_some (h : G.Recorded c accepting failed H d) : H.state? c = some d.state := by
  cases hs : G.state? c with
  | some r =>
    obtain ⟨rfl, -, -, hids⟩ := h.old r hs
    rw [state?, hids]
    exact hs
  | none =>
    obtain ⟨-, hd, -, -, hids⟩ := h.new hs
    rw [state?, hids, hd, List.lookup_cons_self]

theorem isNew_iff (h : G.Recorded c accepting failed H d) :
    d.isNew = true ↔ G.state? c = none := by
  cases hs : G.state? c with
  | some r => simp [(h.old r hs).2.1]
  | none => simp [(h.new hs).2.2.1]

/-- The configurations stay where they are. -/
theorem configurations_prefix (h : G.Recorded c accepting failed H d) :
    G.configurations <+: H.configurations := by
  cases hs : G.state? c with
  | some r => exact (h.old r hs).2.2.1 ▸ List.prefix_rfl
  | none => exact (h.new hs).2.2.2.1 ▸ List.prefix_append _ _

/-- A state keeps its configuration. -/
theorem configuration_of_some {b : C} (h : G.Recorded c accepting failed H d)
    (hb : G.configuration? q = some b) : H.configuration? q = some b := by
  obtain ⟨added, hadded⟩ := h.configurations_prefix
  rw [configuration?, ← hadded, List.getElem?_append_left (List.getElem?_eq_some_iff.1 hb).1]
  exact hb

/-- A state had its configuration before, or it is the one recorded. -/
theorem configuration_cases {b : C} (h : G.Recorded c accepting failed H d)
    (hb : H.configuration? q = some b) :
    G.configuration? q = some b ∨ q = d.state ∧ b = c := by
  cases hs : G.state? c with
  | some r =>
    rw [configuration?, (h.old r hs).2.2.1] at hb
    exact .inl hb
  | none =>
    obtain ⟨-, hd, -, hconf, -⟩ := h.new hs
    rw [configuration?, hconf, List.getElem?_append] at hb
    split_ifs at hb with hq
    · exact .inl hb
    · rw [List.getElem?_singleton] at hb
      split_ifs at hb with hq'
      · refine .inr ⟨?_, (Option.some.inj hb).symm⟩
        rw [hd, size]
        omega

/-- There is still room for what is known. -/
theorem size_le (h : G.Recorded c accepting failed H d) (hG : G.size ≤ G.capacity) :
    H.size ≤ H.capacity := by
  rw [h.capacity, size]
  cases hs : G.state? c with
  | some r =>
    rw [(h.old r hs).2.2.1]
    exact hG
  | none =>
    obtain ⟨hroom, -, -, hconf, -⟩ := h.new hs
    rw [hconf, List.length_append]
    exact hroom

end Recorded

/-! ## States and configurations -/

/-- The states of the configurations and the configurations of the states are inverse to each
    other. -/
def Indexed (G : KnownGraph C) : Prop :=
  ∀ c q, G.state? c = some q ↔ G.configuration? q = some c

namespace Indexed

theorem state?_eq_none_iff (hG : G.Indexed) : G.state? c = none ↔ c ∉ G.configurations := by
  constructor
  · intro hs hc
    obtain ⟨q, hq⟩ := List.mem_iff_getElem?.1 hc
    rw [(hG c q).2 hq] at hs
    cases hs
  · intro hc
    by_contra hs
    obtain ⟨q, hq⟩ := Option.ne_none_iff_exists'.1 hs
    exact hc (List.mem_of_getElem? ((hG c q).1 hq))

theorem configuration?_inj (hG : G.Indexed) (hq : G.configuration? q = some c)
    (hr : G.configuration? r = some c) : q = r :=
  Option.some.inj (((hG c q).2 hq).symm.trans ((hG c r).2 hr))

/-- The known configurations are different. -/
theorem nodup (hG : G.Indexed) : G.configurations.Nodup := by
  refine List.nodup_iff_getElem?_ne_getElem?.2 fun q r hqr hr heq => ?_
  have hr' : G.configuration? r = some G.configurations[r] := List.getElem?_eq_getElem hr
  exact absurd (hG.configuration?_inj (heq.trans hr') hr') (Nat.ne_of_lt hqr)

theorem new (initial : C) (accepting failed : Bool) (alphabet : Fluents) (capacity : Nat) :
    (new initial accepting failed alphabet capacity).Indexed := by
  intro c q
  rw [configuration?_new, state?, KnownGraph.new, List.lookup_cons]
  by_cases hc : c = initial
  · simp [hc, eq_comm]
  · simp [hc, beq_false_of_ne hc]

/-- **Recording keeps states and configurations inverse to each other.** -/
theorem of_recorded (hG : G.Indexed) (h : G.Recorded c accepting failed H d) : H.Indexed := by
  intro b p
  cases hs : G.state? c with
  | some r =>
    obtain ⟨-, -, hconf, hids⟩ := h.old r hs
    rw [state?, configuration?, hconf, hids]
    exact hG b p
  | none =>
    obtain ⟨-, hd, -, hconf, hids⟩ := h.new hs
    by_cases hbc : b = c
    · subst hbc
      rw [h.state?_eq_some, Option.some.injEq, eq_comm]
      constructor
      · rintro rfl
        rw [configuration?, hconf, hd]
        exact List.getElem?_concat_length
      · intro hp
        refine (h.configuration_cases hp).elim (fun hold => ?_) (·.1)
        rw [(hG b p).2 hold] at hs
        cases hs
    · have hstate : H.state? b = G.state? b := by
        rw [state?, hids, List.lookup_cons, beq_false_of_ne hbc]
        rfl
      rw [hstate, hG b p]
      exact ⟨h.configuration_of_some,
        fun hp => (h.configuration_cases hp).resolve_right fun hno => hbc hno.2⟩

end Indexed

namespace Recorded

theorem configuration (h : G.Recorded c accepting failed H d) (hG : G.Indexed) :
    H.configuration? d.state = some c :=
  ((hG.of_recorded h) c d.state).1 h.state?_eq_some

/-- The configurations afterwards are those before and the one recorded. -/
theorem mem_configurations {b : C} (h : G.Recorded c accepting failed H d) (hG : G.Indexed) :
    b ∈ H.configurations ↔ b ∈ G.configurations ∨ b = c := by
  constructor
  · intro hb
    obtain ⟨q, hq⟩ := List.mem_iff_getElem?.1 hb
    exact (h.configuration_cases hq).imp List.mem_of_getElem? (·.2)
  · rintro (hb | rfl)
    · exact h.configurations_prefix.subset hb
    · exact List.mem_of_getElem? (h.configuration hG)

end Recorded

/-! ## Faithful graphs -/

/-- The states stand for different configurations, the first for the initial one, and are
    classified as these are. -/
structure Faithful (initial : C) (isAccepting isFailed : C → Bool) (G : KnownGraph C) :
    Prop where
  initial : G.configuration? 0 = some initial
  indexed : G.Indexed
  size_le : G.size ≤ G.capacity
  accepting : ∀ q, q ∈ G.accepting ↔
    ∃ c, G.configuration? q = some c ∧ isAccepting c = true ∧ isFailed c = false
  failures : ∀ q, q ∈ G.failures ↔ ∃ c, G.configuration? q = some c ∧ isFailed c = true

variable {initial : C} {isAccepting isFailed : C → Bool}

theorem faithful_new (initial : C) (isAccepting isFailed : C → Bool) (alphabet : Fluents)
    (capacity : Nat) : Faithful initial isAccepting isFailed
      (new initial (isAccepting initial) (isFailed initial) alphabet capacity) where
  initial := rfl
  indexed := .new _ _ _ _ _
  size_le := Nat.le_max_right _ _
  accepting q := by
    simp only [configuration?_new, and_assoc, exists_eq_left, exists_and_left]
    cases isAccepting initial <;> cases isFailed initial <;> simp [new, @eq_comm _ 0 q]
  failures q := by
    simp only [configuration?_new, and_assoc, exists_eq_left, exists_and_left]
    cases isFailed initial <;> simp [new, @eq_comm _ 0 q]

/-- Recording with the right classification keeps a graph faithful. -/
theorem Faithful.of_recorded (hG : Faithful initial isAccepting isFailed G)
    (h : G.Recorded c (isAccepting c) (isFailed c) H d) :
    Faithful initial isAccepting isFailed H where
  initial := h.configuration_of_some hG.initial
  indexed := hG.indexed.of_recorded h
  size_le := h.size_le hG.size_le
  accepting q := by
    rw [h.accepting, hG.accepting]
    constructor
    · rintro (⟨b, hb, hab⟩ | ⟨rfl, hac⟩)
      · exact ⟨b, h.configuration_of_some hb, hab⟩
      · exact ⟨c, h.configuration hG.indexed, hac⟩
    · rintro ⟨b, hb, hab⟩
      rcases h.configuration_cases hb with hold | ⟨rfl, rfl⟩
      · exact Or.inl ⟨b, hold, hab⟩
      · exact Or.inr ⟨rfl, hab⟩
  failures q := by
    rw [h.failures, hG.failures]
    constructor
    · rintro (⟨b, hb, hfb⟩ | ⟨rfl, hfc⟩)
      · exact ⟨b, h.configuration_of_some hb, hfb⟩
      · exact ⟨c, h.configuration hG.indexed, hfc⟩
    · rintro ⟨b, hb, hfb⟩
      rcases h.configuration_cases hb with hold | ⟨rfl, rfl⟩
      · exact Or.inl ⟨b, hold, hfb⟩
      · exact Or.inr ⟨rfl, hfb⟩

/-- In a faithful graph a known configuration is accepted exactly as it should be. -/
theorem Faithful.mem_accepting_iff (hG : Faithful initial isAccepting isFailed G)
    (hq : G.configuration? q = some c) :
    q ∈ G.accepting ↔ isAccepting c = true ∧ isFailed c = false := by
  rw [hG.accepting, hq]
  simp

theorem Faithful.mem_failures_iff (hG : Faithful initial isAccepting isFailed G)
    (hq : G.configuration? q = some c) : q ∈ G.failures ↔ isFailed c = true := by
  rw [hG.failures, hq]
  simp

end Record

end KnownGraph

end GoalAutomata
