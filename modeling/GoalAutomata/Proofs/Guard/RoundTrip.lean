/-
  Guards as text, and back.

  What is read has two operands or more under every conjunction and disjunction,
  and names for atoms (`Guard.Proper 2`).  One operand is enough for a guard to be
  printed so that it can be read (`Guard.Proper 1`).  What is read then is the guard
  without its conjunctions and disjunctions of one operand (`Guard.norm`).

  The parentheses that a parent puts around an operand make a phrase of the kind
  that the grammar has at its place (`Guard.shown_wrap_operand`,
  `Guard.shown_wrap_conjunction`); a phrase of a tighter kind needs none.

  * `Guard.parse_render`: printing and reading leads to the normal form;
  * `Guard.proper_of_parse`: what is read is in normal form;
  * `Guard.parse_inverts_render`: both together, and what they say of the guards
    that can be read.
-/
import GoalAutomata.Guard.Printer
import GoalAutomata.Proofs.Guard.Grammar
import GoalAutomata.Proofs.Guard.Token

namespace GoalAutomata

namespace Guard

/-! ## Normal forms -/

/-- A name is a word that is not the word of a constant. -/
def IsName (s : String) : Prop := Token.IsWord s.toList ∧ s ≠ "true" ∧ s ≠ "false"

instance (s : String) : Decidable (IsName s) :=
  decidable_of_iff
    ((s.toList ≠ [] ∧ s.toList.all Token.isWordChar = true) ∧ s ≠ "true" ∧ s ≠ "false")
    (and_congr_left' (and_congr_right' List.all_eq_true))

/-- Every conjunction and disjunction has at least `n` operands, and every atom a name. -/
inductive Proper (n : Nat) : Guard → Prop where
  | tt : Proper n tt
  | ff : Proper n ff
  | atom {s} : IsName s → Proper n (atom s)
  | not {g} : Proper n g → Proper n (not g)
  | and {gs} : n ≤ gs.length → (∀ g ∈ gs, Proper n g) → Proper n (and gs)
  | or {gs} : n ≤ gs.length → (∀ g ∈ gs, Proper n g) → Proper n (or gs)

variable {g : Guard} {gs : List Guard} {k : Phrase} {ts : List Token} {cs : List Char}

theorem Proper.mono {m n : Nat} (hmn : m ≤ n) (h : g.Proper n) : g.Proper m := by
  induction h with
  | tt => exact .tt
  | ff => exact .ff
  | atom hs => exact .atom hs
  | not _ ih => exact .not ih
  | and hlen _ ih => exact .and (Nat.le_trans hmn hlen) ih
  | or hlen _ ih => exact .or (Nat.le_trans hmn hlen) ih

mutual

/-- The guard with the operand itself for every conjunction and disjunction of one operand. -/
def norm : Guard → Guard
  | tt => tt
  | ff => ff
  | atom s => atom s
  | not g => not (norm g)
  | and gs => combine and (norms gs)
  | or gs => combine or (norms gs)

/-- The normal forms of a list of guards. -/
def norms : List Guard → List Guard
  | [] => []
  | g :: gs => norm g :: norms gs

end

@[simp] theorem norms_eq (gs : List Guard) : norms gs = gs.map norm := by
  induction gs with
  | nil => rfl
  | cons g gs ih => simp [norms, ih]

/-- With two operands everywhere there is nothing to drop. -/
theorem Proper.norm_eq (h : g.Proper 2) : g.norm = g := by
  induction h with
  | tt | ff | atom => rfl
  | not _ ih => rw [norm, ih]
  | and hlen _ ih | or hlen _ ih =>
    rw [norm, norms_eq, List.map_congr_left ih, List.map_id', combine_of_two_le hlen]

/-- What does not tell one operand from itself under an operator does not see `combine`. -/
theorem apply_combine {α : Type} (f : Guard → α) {op : List Guard → Guard}
    (h : ∀ g, f (op [g]) = f g) (gs : List Guard) : f (combine op gs) = f (op gs) := by
  match gs with
  | [] | _ :: _ :: _ => rfl
  | [g] => exact (h g).symm

/-- **The normal form holds where the guard does.** -/
theorem holds_norm (g : Guard) (I : Fluents) : g.norm.holds I = g.holds I := by
  induction g with
  | tt | ff | atom => rfl
  | not g ih => rw [norm, holds_not, holds_not, ih]
  | and gs ih =>
    rw [norm, norms_eq, apply_combine (holds I) (by simp), holds_and, holds_and, List.all_map,
      Bool.eq_iff_iff, List.all_eq_true, List.all_eq_true]
    exact forall₂_congr fun g hg => by rw [Function.comp_apply, ih g hg]
  | or gs ih =>
    rw [norm, norms_eq, apply_combine (holds I) (by simp), holds_or, holds_or, List.any_map,
      Bool.eq_iff_iff, List.any_eq_true, List.any_eq_true]
    exact exists_congr fun g => and_congr_right fun hg => by rw [Function.comp_apply, ih g hg]

/-- The normal form has the same atoms. -/
theorem names_norm (g : Guard) : g.norm.names = g.names := by
  induction g with
  | tt | ff | atom => rfl
  | not g ih => rw [norm, names, names, ih]
  | and gs ih | or gs ih =>
    rw [norm, norms_eq, apply_combine names (by simp [names]), names, names, allNames_eq,
      allNames_eq, List.flatMap_map, List.flatMap_def, List.flatMap_def, List.map_congr_left ih]

/-! ## What is read is in normal form -/

theorem proper_ofWord {w : List Char} (h : Token.IsWord w) (n : Nat) : (ofWord w).Proper n := by
  unfold ofWord
  split_ifs with ht hf
  · exact .tt
  · exact .ff
  · refine .atom ⟨by rwa [String.toList_ofList], fun hs => ht ?_, fun hs => hf ?_⟩
    · rw [← String.toList_ofList (l := w), hs]
      rfl
    · rw [← String.toList_ofList (l := w), hs]
      rfl

theorem mem_joined {sep t : Token} {ps : List Piece} {p : Piece} (hp : p ∈ ps) (ht : t ∈ p.1) :
    t ∈ joined sep ps := by
  cases ps with
  | nil => simp at hp
  | cons q ps =>
    rw [joined_cons, List.mem_append, List.mem_flatMap]
    rcases List.mem_cons.1 hp with rfl | hp
    · exact Or.inl ht
    · exact Or.inr ⟨p, hp, by simp [ht]⟩

theorem proper_combine {op : List Guard → Guard} {sep : Token} {ps : List Piece}
    (hop : ∀ gs : List Guard, 2 ≤ gs.length → (∀ g ∈ gs, g.Proper 2) → (op gs).Proper 2)
    (hne : ps ≠ []) (hps : ∀ p ∈ ps, (∀ w, .word w ∈ p.1 → Token.IsWord w) → p.2.Proper 2)
    (hw : ∀ w, .word w ∈ joined sep ps → Token.IsWord w) :
    (combine op (ps.map (·.2))).Proper 2 := by
  have hall : ∀ p ∈ ps, p.2.Proper 2 := fun p hp =>
    hps p hp fun w hmem => hw w (mem_joined hp hmem)
  match ps, hne with
  | [p], _ => exact hall p (by simp)
  | p :: q :: ps, _ => exact hop _ (by simp) (List.forall_mem_map.2 hall)

theorem Derives.proper (h : Derives k ts g) (hw : ∀ w, .word w ∈ ts → Token.IsWord w) :
    g.Proper 2 := by
  induction h with
  | word w => exact proper_ofWord (hw w (by simp)) 2
  | neg _ ih => exact .not (ih fun w hmem => hw w (by simp [hmem]))
  | parens _ ih => exact ih fun w hmem => hw w (by simp [hmem])
  | conj hne _ ih => exact proper_combine (fun _ => .and) hne ih hw
  | disj hne _ ih => exact proper_combine (fun _ => .or) hne ih hw

/-- **What is read is in normal form.** -/
theorem proper_of_parse {s : String} (h : parse s = .ok g) : g.Proper 2 := by
  obtain ⟨ts, hscan, hder⟩ := parse_eq_ok_iff.1 h
  exact hder.proper fun w hw => (Token.scan_eq_ok_iff.1 hscan).isWord hw

/-! ## What is printed is read -/

/-- The text `cs` is a phrase of kind `k` that stands for the guard `g`. -/
def Shown (k : Phrase) (cs : List Char) (g : Guard) : Prop :=
  ∃ ts, Token.Scans cs ts ∧ Derives k ts g

theorem Shown.conjunction (h : Shown .operand cs g) : Shown .conjunction cs g := by
  obtain ⟨ts, hscan, hder⟩ := h
  exact ⟨ts, hscan, hder.conjunction⟩

/-- The kind of phrase that the text of a guard is without parentheses. -/
def phrase : Guard → Phrase
  | or _ => .disjunction
  | and _ => .conjunction
  | _ => .operand

theorem Shown.disjunction {h : Guard} (hg : Shown g.phrase cs h) : Shown .disjunction cs h := by
  obtain ⟨ts, hscan, hder⟩ := hg
  refine ⟨ts, hscan, ?_⟩
  cases g with
  | or gs => exact hder
  | and gs => exact hder.disjunction
  | _ => exact hder.conjunction.disjunction

/-- Parentheses make an operand of any phrase. -/
theorem Shown.parens (h : Shown .disjunction cs g) : Shown .operand ('(' :: cs ++ [')']) g := by
  obtain ⟨ts, hscan, hder⟩ := h
  refine ⟨.left :: ts ++ [.right], ?_, .parens hder⟩
  refine Token.Scans.operator rfl (hscan.append (Token.scans_nil.operator rfl) ?_)
  exact fun rest _ => Token.boundary_cons (by decide +kernel)

theorem shown_wrap_operand {n : Nat} {h : Guard} (hn : 2 ≤ n) (hg : Shown g.phrase cs h) :
    Shown .operand (wrap n g cs) h := by
  unfold wrap
  split_ifs with hle
  · exact hg.disjunction.parens
  · cases g with
    | and gs => exact absurd hn hle
    | or gs => exact absurd (Nat.le_of_succ_le hn) hle
    | _ => exact hg

theorem shown_wrap_conjunction {n : Nat} {h : Guard} (hn : 1 ≤ n) (hg : Shown g.phrase cs h) :
    Shown .conjunction (wrap n g cs) h := by
  unfold wrap
  split_ifs with hle
  · exact hg.disjunction.parens.conjunction
  · cases g with
    | or gs => exact absurd hn hle
    | and gs => exact hg
    | _ => exact hg.conjunction

theorem boundary_moreChars {n : Nat} {c : Char} {rest : List Char} (h : Token.Boundary rest) :
    Token.Boundary (moreChars n [' ', c, ' '] gs ++ rest) := by
  cases gs with
  | nil => exact h
  | cons g gs => exact Token.boundary_cons (by decide +kernel)

/-- Operands with an operator in front of each are read one by one. -/
theorem exists_pieces_moreChars {n : Nat} {c : Char} {t : Token} (hc : Token.ofOperator? c = some t)
    (hgs : ∀ g ∈ gs, Shown k (wrap n g g.chars) g.norm) :
    ∃ ps : List Piece, ps.map (·.2) = gs.map norm ∧ (∀ p ∈ ps, Derives k p.1 p.2) ∧
      Token.Scans (moreChars n [' ', c, ' '] gs) (ps.flatMap (t :: ·.1)) := by
  induction gs with
  | nil => exact ⟨[], rfl, by simp, Token.scans_nil⟩
  | cons g gs ih =>
    obtain ⟨ts, hscan, hder⟩ := hgs g (by simp)
    obtain ⟨ps, hps, hders, hscans⟩ := ih fun h hh => hgs h (by simp [hh])
    refine ⟨(ts, g.norm) :: ps, by simp [hps], List.forall_mem_cons.2 ⟨hder, hders⟩, ?_⟩
    have hblank : Text.isBlank ' ' = true := by decide
    have happ := hscan.append hscans fun rest => boundary_moreChars
    exact .blank hblank (.operator hc (.blank hblank happ))

theorem exists_pieces_operandChars {n : Nat} {c : Char} {t : Token}
    (hc : Token.ofOperator? c = some t) (hne : gs ≠ [])
    (hgs : ∀ g ∈ gs, Shown k (wrap n g g.chars) g.norm) :
    ∃ ps : List Piece, ps ≠ [] ∧ ps.map (·.2) = gs.map norm ∧ (∀ p ∈ ps, Derives k p.1 p.2) ∧
      Token.Scans (operandChars n [' ', c, ' '] gs) (joined t ps) := by
  cases gs with
  | nil => exact absurd rfl hne
  | cons g gs =>
    obtain ⟨ts, hscan, hder⟩ := hgs g (by simp)
    obtain ⟨ps, hps, hders, hscans⟩ :=
      exists_pieces_moreChars hc fun h hh => hgs h (List.mem_cons_of_mem g hh)
    refine ⟨(ts, g.norm) :: ps, by simp, by simp [hps], List.forall_mem_cons.2 ⟨hder, hders⟩, ?_⟩
    rw [joined_cons]
    exact hscan.append hscans fun rest => boundary_moreChars

theorem shown_ofWord {w : List Char} (h : Token.IsWord w) : Shown .operand w (ofWord w) :=
  ⟨[.word w], h.scans, .word w⟩

theorem ofWord_name {s : String} (h : IsName s) : ofWord s.toList = atom s := by
  have ht : s.toList ≠ ['t', 'r', 'u', 'e'] := fun hs => h.2.1 (String.toList_injective hs)
  have hf : s.toList ≠ ['f', 'a', 'l', 's', 'e'] := fun hs => h.2.2 (String.toList_injective hs)
  rw [ofWord, if_neg ht, if_neg hf, String.ofList_toList]

/-- **The text of a guard is a phrase of its kind, which stands for its normal form.** -/
theorem Proper.shown (h : g.Proper 1) : Shown g.phrase g.chars g.norm := by
  -- an operand of a conjunction is wrapped from level two on, one of a disjunction from level one
  induction h with
  | tt =>
    exact shown_ofWord (w := ['t', 'r', 'u', 'e'])
      ⟨by simp, List.all_eq_true.1 (by decide +kernel)⟩
  | ff =>
    exact shown_ofWord (w := ['f', 'a', 'l', 's', 'e'])
      ⟨by simp, List.all_eq_true.1 (by decide +kernel)⟩
  | @atom s hs =>
    have hword := shown_ofWord hs.1
    rwa [ofWord_name hs] at hword
  | not _ ih =>
    obtain ⟨ts, hscan, hder⟩ := shown_wrap_operand (n := 3) (by decide) ih
    exact ⟨.neg :: ts, hscan.operator rfl, hder.neg⟩
  | @and gs hlen _ ih =>
    obtain ⟨ps, hne, hps, hders, hscan⟩ := exists_pieces_operandChars (c := '&') rfl
      (List.ne_nil_of_length_pos hlen) fun g hg =>
        shown_wrap_operand (n := 2) (Nat.le_refl 2) (ih g hg)
    refine ⟨joined .conj ps, hscan, ?_⟩
    rw [norm, norms_eq, ← hps]
    exact .conj hne hders
  | @or gs hlen _ ih =>
    obtain ⟨ps, hne, hps, hders, hscan⟩ := exists_pieces_operandChars (c := '|') rfl
      (List.ne_nil_of_length_pos hlen) fun g hg =>
        shown_wrap_conjunction (n := 1) (Nat.le_refl 1) (ih g hg)
    refine ⟨joined .disj ps, hscan, ?_⟩
    rw [norm, norms_eq, ← hps]
    exact .disj hne hders

/-- **Printing and reading leads to the normal form.** -/
theorem parse_render (h : g.Proper 1) : parse g.render = .ok g.norm := by
  obtain ⟨ts, hscan, hder⟩ := h.shown.disjunction
  have hall := hscan [] Token.boundary_nil
  rw [List.append_nil] at hall
  refine parse_eq_ok_iff.2 ⟨ts, ?_, hder⟩
  have hnil : Token.scan [] = .ok [] := rfl
  rw [render, String.toList_ofList, hall, hnil]
  exact congrArg Except.ok (List.append_nil ts)

/-- A guard that has been read is printed so that it is read again. -/
theorem parse_render_of_parse {s : String} (h : parse s = .ok g) : parse g.render = .ok g := by
  have hproper := proper_of_parse h
  rw [parse_render (hproper.mono (by decide)), hproper.norm_eq]

end Guard

/-- **Reading undoes printing.**  A guard with operands under every conjunction and disjunction,
    and names for atoms, is printed as a text that is read as its normal form: the guard itself but
    for conjunctions and disjunctions of one operand.  Whatever is read has two operands or more
    everywhere, and names for atoms.  Hence the guards that can be read are those that are printed
    so that they are read again, and reading, printing and reading again changes nothing. -/
theorem parse_inverts_render :
    (∀ g : Guard, g.Proper 1 → Guard.parse g.render = .ok g.norm) ∧
    (∀ s g, Guard.parse s = .ok g → g.Proper 2) ∧
    (∀ g, Guard.parse g.render = .ok g ↔ ∃ s, Guard.parse s = .ok g) ∧
    (∀ s g, Guard.parse s = .ok g → Guard.parse g.render = .ok g) := by
  refine ⟨fun _ => Guard.parse_render, fun _ _ => Guard.proper_of_parse, fun g => ?_,
    fun _ _ => Guard.parse_render_of_parse⟩
  constructor
  · intro h
    exact ⟨g.render, h⟩
  · rintro ⟨s, h⟩
    exact Guard.parse_render_of_parse h

end GoalAutomata
