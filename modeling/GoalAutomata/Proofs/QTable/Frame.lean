/-
  What an episode leaves alone.

  A table is read and written row by row, and a row is drawn when it is first asked
  for.  `QTable.Touches` says of two tables which values may differ and which rows
  may be new; it composes, so what one operation touches tells what an episode does.
  Without learning rows are only asked for, and random numbers are only drawn for
  new rows (`QTable.Draws`).

  * `QTable.touches_choose`, `touches_update`: single operations;
  * `QTable.touches_play`, `draws_play`: some turns of an episode;
  * `learning_touches_what_is_visited`: whole episodes, and runs of them without
    learning.
-/
import GoalAutomata.Environment.Chain
import GoalAutomata.Proofs.QTable.Turns
import GoalAutomata.Proofs.XorShift

namespace GoalAutomata

namespace QTable

/-! ## What turns may touch -/

section Allowed

variable {O R : Type} [Ord O] {us : List (Turn O R)}

/-- What a turn is about to touch is allowed to it: the value of its action if the step succeeds,
    the row it is chosen from, and the row to which the step leads.  Without learning only the row
    it is chosen from matters. -/
structure Allowed (learning : Bool) (changed : O → Nat → Prop) (met : O → Prop)
    (u : Turn O R) : Prop where
  action : learning = true → u.Succeeds → ∀ o, u.IsAt o → changed o u.action
  chosen : ∀ o, u.IsAt o → met o
  next : learning = true → ∀ o, u.LeadsTo o → met o

/-- An action was chosen at an observation that counts as `o`. -/
def ChosenAt (us : List (Turn O R)) (o : O) : Prop := ∃ u ∈ us, u.IsAt o

/-- A step by the action `a` from `o` has succeeded. -/
def SteppedBy (us : List (Turn O R)) (o : O) (a : Nat) : Prop :=
  ∃ u ∈ us, u.Succeeds ∧ u.IsAt o ∧ u.action = a

/-- A step has led to `o`, and the episode went on. -/
def LedTo (us : List (Turn O R)) (o : O) : Prop := ∃ u ∈ us, u.LeadsTo o

theorem allowed_evaluation : ∀ u ∈ us, Allowed false (fun _ _ => False) (ChosenAt us) u :=
  fun u hu => ⟨nofun, fun _ ho => ⟨u, hu, ho⟩, nofun⟩

theorem allowed_learning :
    ∀ u ∈ us, Allowed true (SteppedBy us) (fun o => ChosenAt us o ∨ LedTo us o) u :=
  fun u hu => ⟨fun _ hs _ ho => ⟨u, hu, hs, ho, rfl⟩, fun _ ho => .inl ⟨u, hu, ho⟩,
    fun _ _ ho => .inr ⟨u, hu, ho⟩⟩

end Allowed

/-! ## Tables -/

variable {O R G : Type} [Ord O] {t t' t'' : QTable O R G} {o : O}

section Draws

variable [Generator G]

/-- From `t` to `t'` random words have been taken for the values of new rows, and for nothing
    else. -/
structure Draws (t t' : QTable O R G) : Prop where
  actions : t'.actions = t.actions
  size_le : t.size ≤ t'.size
  generator : t'.generator = Generator.skip (t.actions * (t'.size - t.size)) t.generator

namespace Draws

theorem refl (t : QTable O R G) : Draws t t where
  actions := rfl
  size_le := le_rfl
  generator := by
    rw [Nat.sub_self, Nat.mul_zero]
    rfl

theorem trans (h : Draws t t') (h' : Draws t' t'') : Draws t t'' where
  actions := h'.actions.trans h.actions
  size_le := h.size_le.trans h'.size_le
  generator := by
    have hsize : t''.size - t.size = (t'.size - t.size) + (t''.size - t'.size) := by
      rw [Nat.add_comm, Nat.sub_add_sub_cancel h'.size_le h.size_le]
    rw [h'.generator, h.generator, h.actions, hsize, Nat.mul_add, Generator.skip_add]

end Draws

end Draws

variable [Std.TransOrd O]

/-- From `t` to `t'` no value has changed but those of `changed` actions, and no row is new but
    those of observations that were `met`.  All rows keep their length, and new ones have a value
    for each action. -/
structure Touches (changed : O → Nat → Prop) (met : O → Prop) (t t' : QTable O R G) : Prop where
  actions : t'.actions = t.actions
  kept : ∀ {o : O} {row : List R}, t.rows[o]? = some row → ∃ row', t'.rows[o]? = some row' ∧
    row'.length = row.length ∧ ∀ a, ¬ changed o a → row'[a]? = row[a]?
  fresh : ∀ {o : O} {row' : List R}, t.rows[o]? = none → t'.rows[o]? = some row' →
    met o ∧ row'.length = t.actions

namespace Touches

variable {changed : O → Nat → Prop} {met : O → Prop}

theorem refl (t : QTable O R G) : Touches changed met t t where
  actions := rfl
  kept h := ⟨_, h, rfl, fun _ _ => rfl⟩
  fresh hnone hsome := by rw [hnone] at hsome; cases hsome

/-- **What two operations touch together.** -/
theorem trans (h : Touches changed met t t') (h' : Touches changed met t' t'') :
    Touches changed met t t'' where
  actions := h'.actions.trans h.actions
  kept hrow := by
    obtain ⟨row', hrow', hlen', hsame'⟩ := h.kept hrow
    obtain ⟨row'', hrow'', hlen'', hsame''⟩ := h'.kept hrow'
    exact ⟨row'', hrow'', hlen''.trans hlen', fun a ha => (hsame'' a ha).trans (hsame' a ha)⟩
  fresh {o row''} hnone hsome := by
    cases hmid : t'.rows[o]? with
    | none =>
      rw [← h.actions]
      exact h'.fresh hmid hsome
    | some row' =>
      obtain ⟨hmet, hlen⟩ := h.fresh hnone hmid
      obtain ⟨_, hrow'', hlen'', -⟩ := h'.kept hmid
      cases hrow''.symm.trans hsome
      exact ⟨hmet, hlen''.trans hlen⟩

/-- The generator is not touched. -/
theorem generator (t : QTable O R G) (k : G) :
    Touches changed met t { t with generator := k } :=
  have h : Touches changed met t t := refl t
  ⟨rfl, h.kept, h.fresh⟩

/-- What is not met has no row, unless it has had one. -/
theorem eq_none (h : Touches changed met t t') (hnone : t.rows[o]? = none) (hmet : ¬ met o) :
    t'.rows[o]? = none := by
  rw [Option.eq_none_iff_forall_ne_some]
  exact fun _ hsome => hmet (h.fresh hnone hsome).1

end Touches

/-! ## Single operations -/

section Operations

variable {changed : O → Nat → Prop} {met : O → Prop}

/-- To put a row in its place: values in the place of others, or what is met and has no row. -/
theorem touches_insert {new : List R}
    (hold : ∀ row, t.rows[o]? = some row → new.length = row.length ∧
      ∀ o', compare o o' = .eq → ∀ a, ¬ changed o' a → new[a]? = row[a]?)
    (hnew : t.rows[o]? = none → new.length = t.actions ∧ ∀ o', compare o o' = .eq → met o') :
    Touches changed met t { t with rows := t.rows.insert o new } := by
  refine ⟨rfl, fun {o' row} hrow => ?_, fun {o' row} hnone hsome => ?_⟩
  · rw [Std.ExtTreeMap.getElem?_insert]
    split_ifs with heq
    · rw [← Std.ExtTreeMap.getElem?_congr heq] at hrow
      obtain ⟨hlen, hsame⟩ := hold row hrow
      exact ⟨new, rfl, hlen, hsame o' heq⟩
    · exact ⟨row, hrow, rfl, fun _ _ => rfl⟩
  · rw [Std.ExtTreeMap.getElem?_insert] at hsome
    split_ifs at hsome with heq
    · cases hsome
      rw [← Std.ExtTreeMap.getElem?_congr heq] at hnone
      obtain ⟨hlen, hmet⟩ := hnew hnone
      exact ⟨hmet o' heq, hlen⟩
    · rw [hnone] at hsome
      cases hsome

/-- To change one value of a row that is there. -/
theorem touches_modify {row : List R} (h : t.rows[o]? = some row) (a : Nat) (f : R → R)
    (hchanged : ∀ o', compare o o' = .eq → changed o' a) :
    Touches changed met t { t with rows := t.rows.insert o (row.modify a f) } := by
  refine touches_insert (fun row' hrow => ?_) fun hnone => ?_
  · rw [h] at hrow
    cases hrow
    refine ⟨List.length_modify _ _ _, fun o' heq a' ha' => ?_⟩
    have hne : a ≠ a' := fun heqa => ha' (heqa ▸ hchanged o' heq)
    exact List.getElem?_modify_ne f row hne
  · rw [h] at hnone
    cases hnone

variable [Amount R] [Generator G]

theorem row_of_some {row : List R} (h : t.rows[o]? = some row) : t.row o = (row, t) := by
  rw [QTable.row, h]

theorem row_of_none (h : t.rows[o]? = none) : t.row o =
    ((ActionValues.draw t.actions t.generator).1, { t with
      rows := t.rows.insert o (ActionValues.draw t.actions t.generator).1
      generator := (ActionValues.draw (R := R) t.actions t.generator).2 }) := by
  rw [QTable.row, h]

/-- After it was asked for, a row is there. -/
theorem getElem?_row (t : QTable O R G) (o : O) : (t.row o).2.rows[o]? = some (t.row o).1 := by
  cases h : t.rows[o]? with
  | some row =>
    rw [row_of_some h]
    exact h
  | none =>
    rw [row_of_none h]
    exact Std.ExtTreeMap.getElem?_insert_self

/-- **To ask for a row changes no value**, and no row is new but the one that is asked for. -/
theorem touches_row (t : QTable O R G) (o : O) (hmet : ∀ o', compare o o' = .eq → met o') :
    Touches changed met t (t.row o).2 := by
  cases h : t.rows[o]? with
  | some row =>
    rw [row_of_some h]
    exact .refl t
  | none =>
    rw [row_of_none h]
    refine .trans (touches_insert (fun row hrow => ?_) fun _ => ?_) (.generator _ _)
    · rw [h] at hrow
      cases hrow
    · exact ⟨ActionValues.length_draw _ _, hmet⟩

theorem draws_row [LawfulGenerator G] (t : QTable O R G) (o : O) : Draws t (t.row o).2 := by
  cases h : t.rows[o]? with
  | some row =>
    rw [row_of_some h]
    exact .refl t
  | none =>
    have hsize : (t.row o).2.size = t.size + 1 := by
      rw [row_of_none h, size, Std.ExtTreeMap.size_insert, if_neg, size]
      rw [Std.ExtTreeMap.contains_eq_isSome_getElem?, h]
      exact Bool.false_ne_true
    refine ⟨by rw [row_of_none h], by omega, ?_⟩
    rw [hsize, Nat.add_sub_cancel_left, Nat.mul_one, row_of_none h, ActionValues.snd_draw]

/-- **So does a choice**, which draws a row only if it is greedy. -/
theorem touches_choose (t : QTable O R G) (o : O) (explore : Bool)
    (hmet : ∀ o', compare o o' = .eq → met o') :
    Touches changed met t (t.choose o explore).2 := by
  unfold choose
  dsimp only
  split_ifs
  · exact .generator t _
  · exact (Touches.generator t _).trans (touches_row _ o hmet)
  · exact touches_row t o hmet

theorem touches_outlook (t : QTable O R G) (next : O) (last : Bool)
    (hmet : last = false → ∀ o', compare next o' = .eq → met o') :
    Touches changed met t (t.outlook next last).2 := by
  unfold outlook
  split_ifs with hlast
  · exact .refl t
  · exact touches_row t next (hmet (Bool.eq_false_iff.2 hlast))

/-- **An update changes the value of its action** and no other, and asks for the row of the next
    observation only if the episode goes on. -/
theorem touches_update (t : QTable O R G) (o : O) (action : Nat) (reward : R) (next : O)
    (last : Bool) (hchanged : ∀ o', compare o o' = .eq → changed o' action)
    (hmet : ∀ o', compare o o' = .eq → met o')
    (hnext : last = false → ∀ o', compare next o' = .eq → met o') :
    Touches changed met t (t.update o action reward next last) :=
  ((touches_outlook t next last hnext).trans (touches_row _ o hmet)).trans
    (touches_modify (getElem?_row _ o) action _ hchanged)

end Operations

/-! ## Turns -/

section Turns

open Environment

variable {E A : Type} [Amount R] [Generator G] [Environment E O A R] [Numbered A]
  {learning : Bool} {changed : O → Nat → Prop} {met : O → Prop}

/-- **What one turn touches**, its choice and what it teaches. -/
theorem touches_taught (t : QTable O R G) (o : O) (s : Step O R)
    (h : Allowed learning changed met ⟨o, (t.choose o learning).1, .ok s⟩) :
    Touches changed met t (taught learning t o s) := by
  have hchoose : Touches changed met t (t.choose o learning).2 :=
    t.touches_choose o learning h.chosen
  unfold taught
  split_ifs with hlearning
  · exact hchoose.trans (touches_update _ o _ s.reward s.observation s.done
      (h.action hlearning ⟨s, rfl⟩) h.chosen fun hs o' ho' => h.next hlearning o' ⟨s, rfl, hs, ho'⟩)
  · exact hchoose

/-- **What so many turns touch**, however the episode goes on. -/
theorem touches_play (horizon n : Nat) (t : QTable O R G) (e : E) (o : O) (total : R)
    (h : ∀ u ∈ turns learning n t e o, Allowed learning changed met u) :
    Touches changed met t (play learning horizon n t e o total).state.1 :=
  -- where a step fails the action has been chosen, and its row drawn, before
  play_induction .refl .trans horizon n t e o total
    (fun t' o' _ hu => touches_choose t' o' learning (h _ hu).chosen)
    fun t' o' s hu => touches_taught t' o' s (h _ hu)

/-- Without learning a turn only asks for a row. -/
theorem draws_play [LawfulGenerator G] (horizon n : Nat) (t : QTable O R G) (e : E) (o : O)
    (total : R) : Draws t (play false horizon n t e o total).state.1 :=
  play_induction .refl .trans horizon n t e o total (fun t' o' _ _ => draws_row t' o')
    fun t' o' _ _ => draws_row t' o'

/-! ## Episodes -/

theorem touches_episode (t : QTable O R G) (e : E)
    (h : ∀ u ∈ t.episodeTurns learning e, Allowed learning changed met u) :
    Touches changed met t (t.episode learning e).state.1 := by
  unfold episodeTurns at h
  cases hreset : (reset e).result with
  | error x =>
    rw [(t.episode_of_error learning hreset).2]
    exact .refl t
  | ok o =>
    rw [hreset] at h
    rw [(t.episode_of_ok learning hreset).2]
    exact touches_play _ _ _ _ _ _ h

theorem draws_episode [LawfulGenerator G] (t : QTable O R G) (e : E) :
    Draws t (t.episode false e).state.1 :=
  Outcome.state_andThen_induction (P := fun q : QTable O R G × E => Draws t q.1) (.refl t)
    fun o _ => draws_play _ _ t _ o 0

/-- **So many episodes without learning**, up to the first failure. -/
theorem touches_evaluate [LawfulGenerator G] (k : Nat) (t : QTable O R G) (e : E)
    (h : ∀ u ∈ evaluationTurns k t e, Allowed false changed met u) :
    Touches changed met t (evaluate k t e).state.1 ∧ Draws t (evaluate k t e).state.1 := by
  induction k generalizing t e with
  | zero => exact ⟨.refl t, .refl t⟩
  | succ k ih =>
    rw [evaluationTurns, List.forall_mem_append] at h
    obtain ⟨hepisode, hrest⟩ := h
    have htouches := touches_episode t e hepisode
    have hdraws := draws_episode t e
    cases hres : (t.episode false e).result with
    | error x =>
      have hstate : (evaluate (k + 1) t e).state = (t.episode false e).state :=
        (Outcome.andThen_of_error hres).2
      rw [hstate]
      exact ⟨htouches, hdraws⟩
    | ok total =>
      have hstate : (evaluate (k + 1) t e).state =
          (evaluate k (t.episode false e).state.1 (t.episode false e).state.2).state :=
        (Outcome.andThen_of_ok hres).2
      rw [hres] at hrest
      obtain ⟨htouches', hdraws'⟩ := ih _ _ hrest
      rw [hstate]
      exact ⟨htouches.trans htouches', hdraws.trans hdraws'⟩

end Turns

end QTable

section Episodes

open Environment QTable

variable {E O A R G : Type} [Environment E O A R] [Numbered A] [Ord O] [Std.TransOrd O] [Amount R]
  [Generator G] [LawfulGenerator G]

/-- **Learning touches what was visited, and evaluation touches nothing.**

    The turns of an episode are what the environment has been asked and has answered, from the
    observation of the reset on.  Without learning no value changes, rows are new only where an
    action was chosen, and random words are drawn for them alone.  With learning a value changes
    only if a step by its action has succeeded, and rows are new only where an action was chosen or
    to where a step has led while the episode went on; to where only last steps have led there is
    none.  A choice changes no value and an update that of its action, in any table. -/
theorem learning_touches_what_is_visited (t : QTable O R G) (e : E) :
    (∀ learning, let us := t.episodeTurns learning e
      (t.episode learning e).state.2 =
          after e (.reset :: us.map fun u => .step (Numbered.ofCode u.action)) ∧
        rollout (reset e).state (us.map fun u => Numbered.ofCode u.action) = us.map (·.answer) ∧
        (∀ u ∈ us.head?, (reset e).result = .ok u.observation) ∧ us.IsChain Turn.Precedes) ∧
    (let us := t.episodeTurns false e
      let t' := (t.episode false e).state.1
      Touches (fun _ _ => False) (ChosenAt us) t t' ∧ Draws t t') ∧
    (∀ k, let us := evaluationTurns k t e
      let t' := (evaluate k t e).state.1
      Touches (fun _ _ => False) (ChosenAt us) t t' ∧ Draws t t') ∧
    (let us := t.episodeTurns true e
      let t' := (t.episode true e).state.1
      Touches (SteppedBy us) (fun o => ChosenAt us o ∨ LedTo us o) t t' ∧
      ∀ o, t.rows[o]? = none → ¬ ChosenAt us o →
        (∀ u ∈ us, ∀ s, u.answer = .ok s → compare s.observation o = .eq → s.done = true) →
        t'.rows[o]? = none) ∧
    (∀ o explore,
      Touches (fun _ _ => False) (compare o · = .eq) t (t.choose o explore).2) ∧
    ∀ o action reward next last,
      Touches (fun o' a => compare o o' = .eq ∧ a = action)
        (fun o' => compare o o' = .eq ∨ last = false ∧ compare next o' = .eq)
        t (t.update o action reward next last) := by
  refine ⟨fun learning => ?_, ⟨touches_episode t e allowed_evaluation, draws_episode t e⟩,
    fun k => touches_evaluate k t e allowed_evaluation, ?_,
    fun o explore => touches_choose t o explore fun _ => id,
    fun o action reward next last => touches_update t o action reward next last
      (fun _ ho => ⟨ho, rfl⟩) (fun _ => .inl) fun hlast _ ho => .inr ⟨hlast, ho⟩⟩
  · obtain ⟨hafter, hanswers⟩ := t.after_episodeTurns learning e
    exact ⟨hafter, hanswers, t.head_episodeTurns learning e, t.isChain_episodeTurns learning e⟩
  · have htouches := touches_episode t e allowed_learning
    refine ⟨htouches, fun o hnone hchosen hlast => htouches.eq_none hnone ?_⟩
    rintro (hmet | ⟨u, hu, s, hs, hdone, ho⟩)
    · exact hchosen hmet
    · rw [hlast u hu s hs ho] at hdone
      cases hdone

/-- On two cells the move to the right is the best one of the first cell.  An episode of learning
    takes it and is over: the other two values are what they were, and the second cell has no
    row. -/
theorem two_cells_after_learning :
    let e : ChainEnvironment Rat := ⟨{ cells := 2, position := 0, position_lt := by decide }⟩
    let t : QTable Nat Rat XorShift := {
      rows := (∅ : Std.ExtTreeMap Nat (List Rat) compare).insert 0 [0, 0, 1]
      actions := 3
      learning := ⟨1 / 2, 0, 9 / 10⟩
      generator := XorShift.ofSeed 7 }
    let t' := (t.episode true e).state.1
    t.episodeTurns true e = [⟨0, 2, .ok ⟨1, 1, true, ∅⟩⟩] ∧ t'.rows[1]? = none ∧
      ∃ row, t'.rows[0]? = some row ∧ row.length = 3 ∧ row[0]? = some 0 ∧ row[1]? = some 0 := by
  intro e t t'
  have hchoose : (t.choose 0 true).1 = 2 := by decide +kernel
  have hstep : (step (reset e).state (turnAction true t 0)).result = .ok ⟨1, 1, true, ∅⟩ := by
    rw [turnAction, hchoose]
    rfl
  have hturns : t.episodeTurns true e = [⟨0, 2, .ok ⟨1, 1, true, ∅⟩⟩] := by
    have hdone := turns_of_done 19 hstep rfl
    rw [hchoose] at hdone
    exact hdone
  have honly : ∀ u ∈ t.episodeTurns true e, u = ⟨0, 2, .ok ⟨1, 1, true, ∅⟩⟩ := by
    rw [hturns]
    exact fun u => List.mem_singleton.1
  obtain ⟨-, -, -, ⟨htouches, hnever⟩, -⟩ := learning_touches_what_is_visited t e
  refine ⟨hturns, hnever 1 (by decide +kernel) ?_ ?_, ?_⟩
  · rintro ⟨u, hu, hat⟩
    rw [honly u hu] at hat
    cases hat
  · intro u hu s hs _
    rw [honly u hu] at hs
    cases hs
    rfl
  · have hother : ∀ a, a ≠ 2 → ¬ SteppedBy (t.episodeTurns true e) 0 a := by
      rintro a ha ⟨u, hu, -, -, rfl⟩
      exact ha (congrArg Turn.action (honly u hu))
    have hrow : t.rows[0]? = some [0, 0, 1] := by decide +kernel
    obtain ⟨row, hrow', hlen, hsame⟩ := htouches.kept hrow
    exact ⟨row, hrow', hlen, hsame 0 (hother 0 (by decide)), hsame 1 (hother 1 (by decide))⟩

end Episodes

end GoalAutomata
