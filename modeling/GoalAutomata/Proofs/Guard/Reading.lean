/-
  Which texts are guards.

  A text is cut into tokens where its words end (`Token.Cut`).  Every text of legal
  characters is cut in one way, and the first character that is not legal is what
  stops the scan otherwise.  A text is a guard if its tokens have a derivation
  (`Guard.Spells`).

  * `Token.scan_eq_error_iff`, `Token.existsUnique_cut_iff`: which texts are cut;
  * `reading_is_exact`: which texts are read, as which guard, and what is said of the
    others.
-/
import GoalAutomata.Error
import GoalAutomata.Proofs.Guard.Grammar
import GoalAutomata.Proofs.Guard.Token
import Mathlib.Data.Set.Subsingleton
import Mathlib.Logic.ExistsUnique

namespace GoalAutomata

namespace Token

variable {c : Char} {read cs : List Char} {ts : List Token}

/-- Whether a character is blank, an operator or part of a word. -/
def isLegal (c : Char) : Bool := Text.isBlank c || (ofOperator? c).isSome || isWordChar c

/-! ## What stops the scan -/

theorem map_eq_error_iff {ε α β : Type} {f : α → β} {x : Except ε α} {e : ε} :
    f <$> x = .error e ↔ x = .error e := by
  cases x with
  | error e' =>
    constructor
    · exact fun h => congrArg _ (Except.error.inj h)
    · exact fun h => congrArg _ (Except.error.inj h)
  | ok a => exact iff_of_false nofun nofun

theorem scanFrom_eq_error_iff : scanFrom read cs = .error c ↔ cs.find? (!isLegal ·) = some c := by
  induction cs generalizing read with
  | nil => exact iff_of_false nofun nofun
  | cons c cs ih =>
    cases hb : Text.isBlank c with
    | true => simp [scanFrom, isLegal, hb, map_eq_error_iff, ih]
    | false =>
      cases ht : ofOperator? c with
      | some t => simp [scanFrom, isLegal, hb, ht, map_eq_error_iff, ih]
      | none =>
        cases hc : isWordChar c with
        | true => simp [scanFrom, isLegal, hb, ht, hc, ih]
        | false => simp [scanFrom, isLegal, hb, ht, hc]

/-- **The scan is stopped by the first character that is not legal.** -/
theorem scan_eq_error_iff : scan cs = .error c ↔ cs.find? (!isLegal ·) = some c :=
  scanFrom_eq_error_iff

/-- A text is cut if all its characters are legal, and in one way only. -/
theorem existsUnique_cut_iff : (∃! ts, Cut cs ts) ↔ ∀ c ∈ cs, isLegal c = true := by
  have hnone : (∀ c ∈ cs, isLegal c = true) ↔ cs.find? (!isLegal ·) = none := by simp
  rw [hnone]
  cases hscan : scan cs with
  | error c =>
    rw [scan_eq_error_iff.1 hscan]
    refine iff_of_false ?_ nofun
    rintro ⟨ts, hts, -⟩
    rw [scan_eq_ok_iff.2 hts] at hscan
    cases hscan
  | ok ts =>
    refine iff_of_true ⟨ts, scan_eq_ok_iff.1 hscan, fun us hus => ?_⟩ ?_
    · exact Except.ok.inj ((scan_eq_ok_iff.2 hus).symm.trans hscan)
    · cases hfind : cs.find? (!isLegal ·) with
      | none => rfl
      | some c => cases (scan_eq_error_iff.2 hfind).symm.trans hscan

end Token

namespace Guard

variable {s : String} {g : Guard} {c : Char} {cause : Failure}

/-- The text `s` spells the guard `g`: it is cut into tokens that stand for `g`. -/
def Spells (s : String) (g : Guard) : Prop :=
  ∃ ts, Token.Cut s.toList ts ∧ Derives .disjunction ts g

theorem parse_eq_ok_iff_spells : parse s = .ok g ↔ Spells s g := by
  simp only [parse_eq_ok_iff, Token.scan_eq_ok_iff, Spells]

/-- An illegal character is what is wrong only if the scan has met one. -/
theorem read_ne_illegal (c : Char) (ts : List Token) (f : Frame) (outer : List Frame) :
    readOperand f outer ts ≠ .error (.illegal c) ∧
      readOperator f outer ts ≠ .error (.illegal c) := by
  induction ts generalizing f outer with
  | nil => cases outer <;> simp [readOperand, readOperator]
  | cons t ts ih =>
    cases t <;> cases outer <;> simp [readOperand, readOperator, ih]

theorem parse_eq_illegal_iff :
    parse s = .error (.illegal c) ↔ s.toList.find? (!Token.isLegal ·) = some c := by
  rw [← Token.scan_eq_error_iff, parse]
  cases Token.scan s.toList with
  | error d => simp
  | ok ts => simp [ofTokens, read_ne_illegal]

theorem read_eq_ok_iff : read s = .ok g ↔ parse s = .ok g := by
  unfold read
  cases parse s <;> simp

theorem read_eq_badGuard_iff : read s = .error (.badGuard s cause) ↔ parse s = .error cause := by
  unfold read
  cases parse s <;> simp

end Guard

/-- **Reading accepts exactly the grammar.**  A text is read as the guard that it spells, which is
    one at most.  It is cut into tokens, and in one way only, if and only if all its characters are
    blank, operators or parts of words.  A text that spells no guard is answered by an error that
    carries the whole text; it names an illegal character if and only if the text has one, and the
    first of them. -/
theorem reading_is_exact (s : String) :
    (∀ g, Guard.read s = .ok g ↔ Guard.Spells s g) ∧
    {g | Guard.Spells s g}.Subsingleton ∧
    ((∃! ts, Token.Cut s.toList ts) ↔ ∀ c ∈ s.toList, Token.isLegal c = true) ∧
    ((∃ g, Guard.Spells s g) ∨
      ∃ cause, Guard.read s = .error (.badGuard s cause) ∧
        ∀ c, cause = .illegal c ↔ s.toList.find? (!Token.isLegal ·) = some c) := by
  have hread : ∀ g, Guard.read s = .ok g ↔ Guard.Spells s g := fun g =>
    Guard.read_eq_ok_iff.trans Guard.parse_eq_ok_iff_spells
  refine ⟨hread, fun g hg h hh => ?_, Token.existsUnique_cut_iff, ?_⟩
  · exact Except.ok.inj (((hread g).2 hg).symm.trans ((hread h).2 hh))
  · cases hparse : Guard.parse s with
    | ok g => exact Or.inl ⟨g, Guard.parse_eq_ok_iff_spells.1 hparse⟩
    | error cause =>
      refine Or.inr ⟨cause, Guard.read_eq_badGuard_iff.2 hparse, fun c => ?_⟩
      rw [← Guard.parse_eq_illegal_iff, hparse, Except.error.injEq]

end GoalAutomata
