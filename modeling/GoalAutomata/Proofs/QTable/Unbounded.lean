/-
  Episodes without a bound.

  `QTable.play` stops after so many steps, whether the episode is over or not.  The
  loop that goes on until it is over has no bound, and hence no outcome if that never
  happens; `QTable.Plays` says what its outcome is.

  Where episodes end in time there is one, and only one: the outcome with a bound
  (`QTable.plays_iff`, `QTable.playsEpisode_iff`).
-/
import GoalAutomata.Proofs.QTable.Episodes

namespace GoalAutomata

namespace QTable

open Environment

variable {E O A R G : Type} [Environment E O A R] [Numbered A] [Ord O] [Std.TransOrd O] [Amount R]
  [Generator G] {learning : Bool} {horizon n m : Nat} {t : QTable O R G} {e : E} {o : O}
  {total : R} {r : Outcome R (QTable O R G × E) R}

/-- The outcome of the turns of an episode, from the observation `o` on, after those that brought
    `total`. -/
inductive Plays (learning : Bool) :
    QTable O R G → E → O → R → Outcome R (QTable O R G × E) R → Prop
  | failed {t : QTable O R G} {e : E} {o : O} {total : R} {x : Error} :
    (step e (turnAction learning t o)).result = .error x →
    Plays learning t e o total
      (.failed x ((t.choose o learning).2, (step e (turnAction learning t o)).state)
        (step e (turnAction learning t o)).events)
  | done {t : QTable O R G} {e : E} {o : O} {total : R} {s : Step O R} :
    (step e (turnAction learning t o)).result = .ok s → s.done = true →
    Plays learning t e o total
      ((Outcome.done (total + s.reward)
        (taught learning t o s, (step e (turnAction learning t o)).state)).after
          (step e (turnAction learning t o)).events)
  | goesOn {t : QTable O R G} {e : E} {o : O} {total : R} {s : Step O R}
    {r : Outcome R (QTable O R G × E) R} :
    (step e (turnAction learning t o)).result = .ok s → s.done = false →
    Plays learning (taught learning t o s) (step e (turnAction learning t o)).state s.observation
      (total + s.reward) r →
    Plays learning t e o total (r.after (step e (turnAction learning t o)).events)

/-- The outcome of an episode: a reset, and its turns unless that fails. -/
inductive PlaysEpisode (learning : Bool) (t : QTable O R G) (e : E) :
    Outcome R (QTable O R G × E) R → Prop
  | failed {x : Error} : (reset e).result = .error x →
    PlaysEpisode learning t e (.failed x (t, (reset e).state) (reset e).events)
  | played {o : O} {r : Outcome R (QTable O R G × E) R} : (reset e).result = .ok o →
    Plays learning t (reset e).state o 0 r →
    PlaysEpisode learning t e (r.after (reset e).events)

/-! ## With a bound and without -/

/-- **Turns that end in time have an outcome**, which the bound does not change. -/
theorem plays_play (he : EndsIn n e) (hm : n ≤ m) (t : QTable O R G) (o : O) (total : R) :
    Plays learning t e o total (play learning horizon m t e o total) := by
  induction n generalizing m t e o total with
  | zero => exact absurd he id
  | succ n ih =>
    obtain ⟨m, rfl⟩ : ∃ i, m = i + 1 := ⟨m - 1, by omega⟩
    cases hres : (step e (turnAction learning t o)).result with
    | error x =>
      rw [play_eq_of_error horizon m total hres]
      exact .failed hres
    | ok s =>
      rw [play_eq_of_ok horizon m total hres, playOn]
      split_ifs with hs
      · exact .done hres hs
      · rw [Bool.not_eq_true] at hs
        have hover : isOver (step e (turnAction learning t o)).result = false := by
          rw [hres]
          exact hs
        exact .goesOn hres hs (ih (he _ hover) (Nat.le_of_succ_le_succ hm) _ _ _)

theorem Plays.unique {r' : Outcome R (QTable O R G × E) R} (h : Plays learning t e o total r)
    (h' : Plays learning t e o total r') : r = r' := by
  induction h generalizing r' with
  | failed hres =>
    cases h' with
    | failed hres' =>
      cases hres.symm.trans hres'
      rfl
    | done hres' => cases hres.symm.trans hres'
    | goesOn hres' => cases hres.symm.trans hres'
  | done hres hs =>
    cases h' with
    | failed hres' => cases hres.symm.trans hres'
    | done hres' =>
      cases hres.symm.trans hres'
      rfl
    | goesOn hres' hs' =>
      cases hres.symm.trans hres'
      rw [hs] at hs'
      cases hs'
  | goesOn hres hs _ ih =>
    cases h' with
    | failed hres' => cases hres.symm.trans hres'
    | done hres' hs' =>
      cases hres.symm.trans hres'
      rw [hs] at hs'
      cases hs'
    | goesOn hres' _ hrest =>
      cases hres.symm.trans hres'
      rw [ih hrest]

theorem plays_iff (he : EndsIn n e) (hm : n ≤ m) :
    Plays learning t e o total r ↔ r = play learning horizon m t e o total :=
  ⟨fun h => h.unique (plays_play he hm t o total), fun h => h ▸ plays_play he hm t o total⟩

/-- **An episode that ends in time has one outcome**, which its horizon does not change. -/
theorem playsEpisode_iff (he : Timely n e) :
    PlaysEpisode learning t e r ↔ r = t.episode learning e := by
  cases hreset : (reset e).result with
  | error x =>
    rw [t.episode_eq_of_error learning hreset]
    constructor
    · rintro (hres | ⟨hres, -⟩)
      · cases hreset.symm.trans hres
        rfl
      · cases hreset.symm.trans hres
    · rintro rfl
      exact .failed hreset
  | ok o =>
    have hends : EndsIn n (reset e).state := he.endsWithin [] o hreset
    have hroom : n ≤ Environment.horizon (reset e).state := he.le_horizon [.reset]
    rw [t.episode_eq_of_ok learning hreset]
    constructor
    · rintro (hres | ⟨hres, hplays⟩)
      · cases hreset.symm.trans hres
      · cases hreset.symm.trans hres
        rw [(plays_iff hends hroom).1 hplays]
    · rintro rfl
      exact .played hreset (plays_play hends hroom t o 0)

end QTable

end GoalAutomata
