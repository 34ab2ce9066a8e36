/-
  Episodes of a table.

  One turn of an episode is a choice, a step, and what it teaches.  What has been
  played is told by the codes of the actions (`Playthrough`), and what an episode
  answers is the sum of its rewards or its first failure (`Returns`).

  * `QTable.Filled.episode`: a rule for rows is kept by whole episodes;
  * `QTable.exists_play`, `exists_episode`: episodes that end in time end by themselves;
  * `QTable.unwatch_play`, `unwatch_episode`: more fuel and a watch change nothing.
-/
import GoalAutomata.Proofs.Environment.Watched
import GoalAutomata.Proofs.QTable

namespace GoalAutomata

variable {E O A R : Type} [Environment E O A R]

/-! ## What episodes bring -/

namespace Environment

/-- Every step that succeeds pays an amount of the given kind, whatever the calls before it. -/
def Pays (paid : R → Prop) (e : E) : Prop :=
  ∀ (cs : List (Act A)) (a : A) (s : Step O R), (step (after e cs) a).result = .ok s →
    paid s.reward

variable {e : E} {codes : List Nat} {c k n : Nat}

theorem pays_true (e : E) : Pays (fun _ => True) e := fun _ _ _ _ => trivial

theorem Pays.call {paid : R → Prop} (h : Pays paid e) (d : Act A) :
    Pays paid (Environment.call e d).state := fun cs => h (d :: cs)

variable [Numbered A]

/-- What has been played of an episode from `e` on, in at most `n` steps: the actions with the given
    codes, all below `k`, of which the last one ends the episode and no other. -/
structure Playthrough (k n : Nat) (e : E) (codes : List Nat) : Prop where
  code_lt : ∀ c ∈ codes, c < k
  length_le : codes.length ≤ n
  length_eq : (rollout e (codes.map Numbered.ofCode)).length = codes.length
  isOver_last : ∃ x ∈ rollout e (codes.map Numbered.ofCode), isOver x = true

theorem playthrough_singleton (hc : c < k)
    (h : isOver (step e (Numbered.ofCode c)).result = true) : Playthrough k (n + 1) e [c] where
  code_lt _ hmem := List.mem_singleton.1 hmem ▸ hc
  length_le := Nat.le_add_left 1 n
  length_eq := by
    rw [List.map_singleton, rollout_of_isOver h]
    rfl
  isOver_last := by
    rw [List.map_singleton, rollout_of_isOver h]
    exact ⟨_, List.mem_singleton_self _, h⟩

theorem Playthrough.cons (hc : c < k) (h : isOver (step e (Numbered.ofCode c)).result = false)
    (hrest : Playthrough k n (step e (Numbered.ofCode c)).state codes) :
    Playthrough k (n + 1) e (c :: codes) where
  code_lt := List.forall_mem_cons.2 ⟨hc, hrest.code_lt⟩
  length_le := Nat.succ_le_succ hrest.length_le
  length_eq := by
    rw [List.map_cons, rollout_of_not_isOver h, List.length_cons, hrest.length_eq,
      List.length_cons]
  isOver_last := by
    obtain ⟨x, hx, hover⟩ := hrest.isOver_last
    rw [List.map_cons, rollout_of_not_isOver h]
    exact ⟨x, List.mem_cons_of_mem _ hx, hover⟩

/-- A watch does not change what is played. -/
theorem Playthrough.unwatch {w : Watched E A} (h : Playthrough k n w codes) :
    Playthrough k n w.environment codes where
  code_lt := h.code_lt
  length_le := h.length_le
  length_eq := by
    rw [← Watched.rollout_eq]
    exact h.length_eq
  isOver_last := by
    rw [← Watched.rollout_eq]
    exact h.isOver_last

variable [Amount R] {total : R} {s : Step O R} {xs : List (Except Error (Step O R))}
  {r : Except Error R}

/-- The answer to steps that have brought `xs`: their rewards, added to `total` in their order, or
    the failure that is the last of them. -/
def Returns (total : R) (xs : List (Except Error (Step O R))) (r : Except Error R) : Prop :=
  (∃ ss : List (Step O R), xs = ss.map .ok ∧ r = .ok ((ss.map (·.reward)).foldl (· + ·) total)) ∨
    ∃ (ss : List (Step O R)) (x : Error), xs = ss.map .ok ++ [.error x] ∧ r = .error x

theorem Returns.cons (h : Returns (total + s.reward) xs r) : Returns total (.ok s :: xs) r := by
  rcases h with ⟨ss, rfl, rfl⟩ | ⟨ss, x, rfl, rfl⟩
  · exact Or.inl ⟨s :: ss, rfl, rfl⟩
  · exact Or.inr ⟨s :: ss, x, rfl, rfl⟩

end Environment

namespace QTable

open Environment

variable {G : Type} [Generator G] [Numbered A] [Ord O] [Std.TransOrd O] [Amount R]
  {learning : Bool} {horizon horizon' n m m' k : Nat} {t : QTable O R G} {e : E} {o : O} {total : R}
  {x : Error} {s : Step O R}

/-! ## One turn -/

/-- The action of a turn. -/
def turnAction (learning : Bool) (t : QTable O R G) (o : O) : A :=
  Numbered.ofCode (t.choose o learning).1

/-- The table after a turn whose step has succeeded. -/
def taught (learning : Bool) (t : QTable O R G) (o : O) (s : Step O R) : QTable O R G :=
  if learning then
    (t.choose o learning).2.update o (t.choose o learning).1 s.reward s.observation s.done
  else (t.choose o learning).2

/-- What follows a step that succeeds, once its lesson is learned. -/
def playOn (learning : Bool) (horizon n : Nat) (t : QTable O R G) (e : E) (total : R)
    (s : Step O R) : Outcome R (QTable O R G × E) R :=
  if s.done then .done (total + s.reward) (t, e)
  else play learning horizon n t e s.observation (total + s.reward)

theorem play_succ : play learning horizon (n + 1) t e o total =
    ((step e (turnAction learning t o)).within ((t.choose o learning).2, ·)).andThen fun s p =>
      playOn learning horizon n (if learning then p.1.update o (t.choose o learning).1 s.reward
        s.observation s.done else p.1) p.2 total s := rfl

theorem play_eq_of_error (horizon n : Nat) (total : R)
    (h : (step e (turnAction learning t o)).result = .error x) :
    play learning horizon (n + 1) t e o total =
      .failed x ((t.choose o learning).2, (step e (turnAction learning t o)).state)
        (step e (turnAction learning t o)).events :=
  play_succ.trans (Outcome.andThen_eq_of_error h)

theorem play_eq_of_ok (horizon n : Nat) (total : R)
    (h : (step e (turnAction learning t o)).result = .ok s) :
    play learning horizon (n + 1) t e o total =
      (playOn learning horizon n (taught learning t o s) (step e (turnAction learning t o)).state
        total s).after (step e (turnAction learning t o)).events :=
  play_succ.trans (Outcome.andThen_eq_of_ok h)

/-- A turn whose step fails is the last. -/
theorem play_of_error (horizon n : Nat) (total : R)
    (h : (step e (turnAction learning t o)).result = .error x) :
    (play learning horizon (n + 1) t e o total).result = .error x ∧
      (play learning horizon (n + 1) t e o total).state =
        ((t.choose o learning).2, (step e (turnAction learning t o)).state) := by
  rw [play_eq_of_error horizon n total h]
  exact ⟨rfl, rfl⟩

/-- So is one whose step is done. -/
theorem play_of_done (horizon n : Nat) (total : R)
    (h : (step e (turnAction learning t o)).result = .ok s) (hs : s.done = true) :
    (play learning horizon (n + 1) t e o total).result = .ok (total + s.reward) ∧
      (play learning horizon (n + 1) t e o total).state =
        (taught learning t o s, (step e (turnAction learning t o)).state) := by
  rw [play_eq_of_ok horizon n total h, playOn, if_pos hs]
  exact ⟨rfl, rfl⟩

/-- **Any other turn is followed by the next**, with what it has taught. -/
theorem play_of_not_done (horizon n : Nat) (total : R)
    (h : (step e (turnAction learning t o)).result = .ok s) (hs : s.done = false) :
    let rest := play learning horizon n (taught learning t o s)
      (step e (turnAction learning t o)).state s.observation (total + s.reward)
    (play learning horizon (n + 1) t e o total).result = rest.result ∧
      (play learning horizon (n + 1) t e o total).state = rest.state := by
  rw [play_eq_of_ok horizon n total h, playOn, if_neg (Bool.eq_false_iff.1 hs)]
  exact ⟨rfl, rfl⟩

/-! ## What is kept -/

/-- **What every choice and every lesson keeps is kept by so many turns** of an episode, however it
    goes on. -/
theorem play_keeps {I : QTable O R G → Prop} {paid : R → Prop}
    (choose : ∀ {t : QTable O R G} (o : O), I t → I (t.choose o learning).2)
    (taught : ∀ {t : QTable O R G} (o : O) (s : Step O R), paid s.reward → I t →
      I (taught learning t o s))
    (he : Pays paid e) (h : I t) (n : Nat) (o : O) (total : R) :
    I (play learning horizon n t e o total).state.1 := by
  induction n generalizing t e o total with
  | zero => exact h
  | succ n ih =>
    cases hres : (step e (turnAction learning t o)).result with
    | error x =>
      rw [(play_of_error horizon n total hres).2]
      exact choose o h
    | ok s =>
      have htaught := taught o s (he [] _ s hres) h
      cases hs : s.done with
      | true =>
        rw [(play_of_done horizon n total hres hs).2]
        exact htaught
      | false =>
        rw [(play_of_not_done horizon n total hres hs).2]
        exact ih (he.call (.step _)) htaught _ _

section Filled

variable {l : Learning R} {p : List R → Prop} {paid : R → Prop} (h : t.Filled k l p)
  (hp : RowRule G k l paid p)
include h hp

theorem Filled.taught (learning : Bool) (o : O) (hs : paid s.reward) :
    (taught learning t o s).Filled k l p := by
  have hchoose := h.choose hp o learning
  unfold QTable.taught
  split_ifs
  · exact hchoose.update hp o _ hs _ _
  · exact hchoose

/-- **So many turns of an episode keep a rule for rows.** -/
theorem Filled.play (he : Pays paid e) (n : Nat) (o : O) (total : R) :
    (play learning horizon n t e o total).state.1.Filled k l p :=
  play_keeps (fun o h => h.choose hp o learning) (fun o _ hs h => h.taught hp learning o hs) he h
    n o total

/-- **So do whole episodes.** -/
theorem Filled.episode (he : Pays paid e) (learning : Bool) :
    (t.episode learning e).state.1.Filled k l p :=
  Outcome.state_andThen_induction (P := fun q : QTable O R G × E => q.1.Filled k l p) h
    fun o _ => h.play hp (he.call .reset) _ o 0

end Filled

theorem Sized.taught (h : t.Sized k) (learning : Bool) (o : O) (s : Step O R) :
    (taught learning t o s).Sized k :=
  (Filled.taught h (rowRule_length G k t.learning) learning o (s := s) trivial).sized

theorem Sized.episode (h : t.Sized k) (learning : Bool) (e : E) :
    (t.episode learning e).state.1.Sized k :=
  (Filled.episode h (rowRule_length G k t.learning) (pays_true e) learning).sized

/-! ## Random words -/

section Since

variable [LawfulGenerator G] {k₀ : G}

theorem Since.taught (h : t.Since k k₀) (hk : 0 < k) (learning : Bool) (o : O) (s : Step O R) :
    (taught learning t o s).Since k k₀ := by
  have hchoose := h.choose hk o learning
  unfold QTable.taught
  split_ifs
  · exact hchoose.update o _ _ _ _
  · exact hchoose

/-- **An episode takes finitely many words.** -/
theorem Since.episode (h : t.Since k k₀) (hk : 0 < k) (learning : Bool) (e : E) :
    (t.episode learning e).state.1.Since k k₀ :=
  Outcome.state_andThen_induction (P := fun q : QTable O R G × E => q.1.Since k k₀) h
    fun o _ => play_keeps (fun o h => h.choose hk o learning)
      (fun o s _ h => h.taught hk learning o s) (pays_true _) h _ o 0

/-- **So does training.** -/
theorem Since.trainFrom (h : t.Since k k₀) (hk : 0 < k) (period c i : Nat) (past : List R) (e : E) :
    (trainFrom period c i past t e).state.1.Since k k₀ := by
  induction c generalizing i past t e with
  | zero => exact h
  | succ c ih =>
    exact Outcome.state_andThen_induction (P := fun q : QTable O R G × E => q.1.Since k k₀)
      (h.episode hk true e) fun total _ => ih (h.episode hk true e) _ _ _

/-- **So do episodes without learning.** -/
theorem Since.evaluate (h : t.Since k k₀) (hk : 0 < k) (c : Nat) (e : E) :
    (evaluate c t e).state.1.Since k k₀ := by
  induction c generalizing t e with
  | zero => exact h
  | succ c ih =>
    exact Outcome.state_andThen_induction (P := fun q : QTable O R G × E => q.1.Since k k₀)
      (h.episode hk false e) fun total _ => ih (h.episode hk false e) _

end Since

/-! ## Episodes that end in time -/

theorem play_of_isOver (horizon n : Nat) (total : R)
    (h : isOver (step e (turnAction learning t o)).result = true) :
    Returns total [(step e (turnAction learning t o)).result]
        (play learning horizon (n + 1) t e o total).result ∧
      (play learning horizon (n + 1) t e o total).state.2 =
        (step e (turnAction learning t o)).state := by
  cases hres : (step e (turnAction learning t o)).result with
  | error x =>
    obtain ⟨hresult, hstate⟩ := play_of_error horizon n total hres
    rw [hresult, hstate]
    exact ⟨Or.inr ⟨[], x, rfl, rfl⟩, rfl⟩
  | ok s =>
    have hs : s.done = true := by rwa [hres] at h
    obtain ⟨hresult, hstate⟩ := play_of_done horizon n total hres hs
    rw [hresult, hstate]
    exact ⟨Or.inl ⟨[s], rfl, rfl⟩, rfl⟩

/-- **An episode that ends within `n` steps is over before the fuel is used up.**  What it answers
    is decided by its steps, and every action is one of the table. -/
theorem exists_play [LawfulGenerator G] (learning : Bool) (horizon : Nat) (hk : 0 < k)
    (ht : t.Sized k) (he : EndsIn n e) (hm : n ≤ m) (o : O) (total : R) :
    ∃ codes, Playthrough k n e codes ∧
      Returns total (rollout e (codes.map Numbered.ofCode))
        (play learning horizon m t e o total).result ∧
      (play learning horizon m t e o total).state.2 =
        after e (codes.map fun c => .step (Numbered.ofCode c)) := by
  -- the bound falls with every turn and the fuel with it, so the fuel is never the lesser
  induction n generalizing m t e o total with
  | zero => exact absurd he id
  | succ n ih =>
    obtain ⟨m, rfl⟩ : ∃ m', m = m' + 1 := ⟨m - 1, by omega⟩
    have hc := ht.choose_lt hk o learning
    cases hover : isOver (step e (turnAction learning t o)).result with
    | true =>
      obtain ⟨hreturns, hstate⟩ := play_of_isOver horizon m total hover
      refine ⟨[(t.choose o learning).1], playthrough_singleton hc hover, ?_, hstate⟩
      rw [List.map_singleton, ← turnAction, rollout_of_isOver hover]
      exact hreturns
    | false =>
      obtain ⟨s, hres, hs⟩ := exists_of_not_isOver hover
      obtain ⟨hresult, hstate⟩ := play_of_not_done horizon m total hres hs
      obtain ⟨codes, hcodes, hreturns, hafter⟩ := ih (ht.taught learning o s) (he _ hover)
        (Nat.le_of_succ_le_succ hm) s.observation (total + s.reward)
      refine ⟨(t.choose o learning).1 :: codes, hcodes.cons hc hover, ?_, hstate ▸ hafter⟩
      rw [List.map_cons, ← turnAction, rollout_of_not_isOver hover, hres, hresult]
      exact hreturns.cons

/-- A table with the environment that has been watched. -/
def unwatch (p : QTable O R G × Watched E A) : QTable O R G × E := (p.1, p.2.environment)

/-- **More fuel and a watch change nothing** in an episode that ends in time. -/
theorem unwatch_play {w : Watched E A} (he : EndsIn n w.environment) (hm : n ≤ m) (hm' : n ≤ m')
    (o : O) (total : R) : (play learning horizon m t w o total).within unwatch =
      play learning horizon' m' t w.environment o total := by
  induction n generalizing m m' t w o total with
  | zero => exact absurd he id
  | succ n ih =>
    obtain ⟨m, rfl⟩ : ∃ i, m = i + 1 := ⟨m - 1, by omega⟩
    obtain ⟨m', rfl⟩ : ∃ i, m' = i + 1 := ⟨m' - 1, by omega⟩
    rw [play_succ, play_succ]
    refine Outcome.within_andThen fun s hs => ?_
    -- both sides have chosen and learned the same, since a watched step answers the same
    change (playOn learning horizon m (taught learning t o s)
        (step w (turnAction learning t o)).state total s).within unwatch =
      playOn learning horizon' m' (taught learning t o s)
        (step w.environment (turnAction learning t o)).state total s
    have hres : (step w.environment (turnAction learning t o)).result = .ok s := hs
    unfold playOn
    split_ifs with hdone
    · rfl
    · have hover : isOver (step w.environment (turnAction learning t o)).result = false := by
        rw [hres]
        exact Bool.eq_false_iff.2 hdone
      exact ih (he _ hover) (Nat.le_of_succ_le_succ hm) (Nat.le_of_succ_le_succ hm') _ _

/-! ## Whole episodes -/

theorem episode_eq_of_error (t : QTable O R G) (learning : Bool)
    (h : (reset e).result = .error x) :
    t.episode learning e = .failed x (t, (reset e).state) (reset e).events :=
  Outcome.andThen_eq_of_error (o := (reset e).within (t, ·)) h

theorem episode_eq_of_ok (t : QTable O R G) (learning : Bool) (h : (reset e).result = .ok o) :
    t.episode learning e = (play learning (Environment.horizon (reset e).state)
      (Environment.horizon (reset e).state) t (reset e).state o 0).after (reset e).events :=
  Outcome.andThen_eq_of_ok (o := (reset e).within (t, ·)) h

theorem episode_of_error (t : QTable O R G) (learning : Bool) (h : (reset e).result = .error x) :
    (t.episode learning e).result = .error x ∧
      (t.episode learning e).state = (t, (reset e).state) := by
  rw [t.episode_eq_of_error learning h]
  exact ⟨rfl, rfl⟩

theorem episode_of_ok (t : QTable O R G) (learning : Bool) (h : (reset e).result = .ok o) :
    let start := (reset e).state
    let rest := play learning (Environment.horizon start) (Environment.horizon start) t start o 0
    (t.episode learning e).result = rest.result ∧ (t.episode learning e).state = rest.state := by
  rw [t.episode_eq_of_ok learning h]
  exact ⟨rfl, rfl⟩

/-- **An episode is a reset and a playthrough**, unless the reset fails. -/
theorem exists_episode [LawfulGenerator G] (hk : 0 < k) (ht : t.Sized k) (he : Timely n e)
    (learning : Bool) :
    ∃ codes : List Nat, codes.length ≤ n ∧
      (t.episode learning e).state.2 =
        after e (.reset :: codes.map fun c => .step (Numbered.ofCode c)) ∧
      (∀ x, (reset e).result = .error x → codes = [] ∧ (t.episode learning e).result = .error x) ∧
      ∀ o, (reset e).result = .ok o → Playthrough k n (reset e).state codes ∧
        Returns 0 (rollout (reset e).state (codes.map Numbered.ofCode))
          (t.episode learning e).result := by
  cases hreset : (reset e).result with
  | error x =>
    obtain ⟨hresult, hstate⟩ := t.episode_of_error learning hreset
    refine ⟨[], Nat.zero_le n, congrArg Prod.snd hstate, fun y hy => ?_, nofun⟩
    cases hy
    exact ⟨rfl, hresult⟩
  | ok o =>
    have hends : EndsIn n (reset e).state := he.endsWithin [] o hreset
    have hfuel : n ≤ Environment.horizon (reset e).state := he.le_horizon [.reset]
    obtain ⟨hresult, hstate⟩ := t.episode_of_ok learning hreset
    obtain ⟨codes, hcodes, hreturns, hafter⟩ := exists_play learning
      (Environment.horizon (reset e).state) hk ht hends hfuel o 0
    rw [hresult, hstate]
    exact ⟨codes, hcodes.length_le, hafter, nofun, fun _ _ => ⟨hcodes, hreturns⟩⟩

/-- **A watch changes nothing in an episode** that ends in time. -/
theorem unwatch_episode {w : Watched E A} (h : w.InTime n) (learning : Bool) :
    (t.episode learning w).within unwatch = t.episode learning w.environment :=
  Outcome.within_andThen fun o ho =>
    unwatch_play (h.inner.endsWithin [] o ho) h.le_bound (h.inner.le_horizon [.reset]) o 0

/-- **It sees at most `n` steps**, and the next episode ends in time again. -/
theorem watch_episode [LawfulGenerator G] {w : Watched E A} (h : w.InTime n) (hk : 0 < k)
    (ht : t.Sized k) (learning : Bool) : (t.episode learning w).state.2.InTime n ∧
      (t.episode learning w).state.2.steps ≤ w.steps + n := by
  obtain ⟨codes, hlen, hafter, -, -⟩ := exists_episode hk ht h.timely learning
  rw [hafter, Watched.steps_after]
  refine ⟨h.after _, Nat.add_le_add_left ?_ w.steps⟩
  calc (Act.reset :: codes.map fun c => Act.step (Numbered.ofCode c : A)).countP (·.isStep)
    _ = codes.length := by simp [List.countP_map, Function.comp_def, Act.isStep]
    _ ≤ n := hlen

/-- A table with `n` actions that has come about by choices, updates and episodes. -/
inductive Reachable (n : Nat) : QTable O R G → Prop
  | new (l : Learning R) (seed : UInt64) : Reachable n (new n l seed)
  | choose {t : QTable O R G} (o : O) (explore : Bool) :
    Reachable n t → Reachable n (t.choose o explore).2
  | update {t : QTable O R G} (o : O) (action : Nat) (reward : R) (next : O) (last : Bool) :
    Reachable n t → Reachable n (t.update o action reward next last)
  | episode {E A : Type} [Environment E O A R] [Numbered A] {t : QTable O R G} (learning : Bool)
    (e : E) : Reachable n t → Reachable n (t.episode learning e).state.1

/-- **Every row has a value for each action**, whatever has been done. -/
theorem Reachable.sized (h : Reachable k t) : t.Sized k := by
  induction h with
  | new l seed => exact (filled_new seed).sized
  | choose o explore _ ih => exact (Filled.choose ih (rowRule_length G k _) o explore).sized
  | update o action reward next last _ ih =>
    exact (Filled.update ih (rowRule_length G k _) o action trivial next last).sized
  | episode learning e _ ih => exact ih.episode learning e

end QTable

end GoalAutomata
