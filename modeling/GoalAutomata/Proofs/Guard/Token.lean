/-
  Scanning text piece by piece.

  Word characters, blanks and operators are three classes apart, so where a word
  ends is seen from the next character alone.  Text that is cut where no word goes
  on (`Token.Boundary`) is scanned piece by piece (`Token.Scans`).

  * `Token.Cut`: which tokens a text consists of, each word as long as it can be;
  * `Token.scan_eq_ok_iff`: the scan finds these tokens.
-/
import GoalAutomata.Guard.Token
import Mathlib.Tactic.SplitIfs

namespace GoalAutomata

/-! ## The classes of characters -/

theorem Text.CharRanges.not_contains_of_apart {rs bs : CharRanges} {c : Char}
    (h : ∀ r ∈ rs, ∀ b ∈ bs, r.2 < b.1 ∨ b.2 < r.1) (hc : rs.contains c = true) :
    bs.contains c = false := by
  rw [Bool.eq_false_iff]
  intro hb
  obtain ⟨r, hr, hr₁, hr₂⟩ := contains_iff.1 hc
  obtain ⟨b, hb, hb₁, hb₂⟩ := contains_iff.1 hb
  rcases h r hr b hb with hlt | hlt <;> omega

namespace Token

variable {c : Char} {t : Token}

theorem ofOperator?_ne_word {w : List Char} : ofOperator? c ≠ some (word w) := by
  unfold ofOperator?
  split <;> simp

theorem ofOperator?_eq_some (h : ofOperator? c = some t) :
    c ∈ ['~', '!', '&', '|', '(', ')'] := by
  unfold ofOperator? at h
  split at h <;> simp_all

/-- An operator is not blank. -/
theorem isBlank_of_operator (h : ofOperator? c = some t) : Text.isBlank c = false := by
  have hall : ['~', '!', '&', '|', '(', ')'].all (!Text.isBlank ·) = true := by decide
  simpa using List.all_eq_true.1 hall c (ofOperator?_eq_some h)

theorem isWordChar_of_isDigit (h : c.isDigit = true) : isWordChar c = true := by
  have halnum : Text.isAlphanumeric c = true :=
    Text.CharRanges.contains_iff.2 ⟨(0x30, 0x39), List.mem_cons_self, Char.isDigit_iff_toNat.1 h⟩
  rw [isWordChar, halnum, Bool.true_or]

/-- A word character is not blank. -/
theorem isBlank_of_isWordChar (h : isWordChar c = true) : Text.isBlank c = false := by
  simp only [isWordChar, Bool.or_eq_true, beq_iff_eq] at h
  rcases h with h | rfl
  · exact Text.CharRanges.not_contains_of_apart (by decide +kernel) h
  · decide

/-- A word character is no operator. -/
theorem ofOperator?_of_isWordChar (h : isWordChar c = true) : ofOperator? c = none := by
  have hall : ['~', '!', '&', '|', '(', ')'].all (!isWordChar ·) = true := by decide +kernel
  cases ht : ofOperator? c with
  | none => rfl
  | some t =>
    have hc := List.all_eq_true.1 hall c (ofOperator?_eq_some ht)
    simp [h] at hc

/-! ## Words -/

variable {read w cs ds rest : List Char} {ts us : List Token}

/-- A word: some characters, all of which can stand in words. -/
def IsWord (w : List Char) : Prop := w ≠ [] ∧ ∀ c ∈ w, isWordChar c = true

/-- No word goes on with the text `rest`. -/
def Boundary (rest : List Char) : Prop := ∀ c ∈ rest.head?, isWordChar c = false

theorem boundary_nil : Boundary [] := by simp [Boundary]

theorem boundary_cons (h : isWordChar c = false) : Boundary (c :: rest) := by
  simpa [Boundary] using h

/-- At the end of a word the scan goes on as from the start. -/
theorem scanFrom_of_boundary (h : Boundary rest) :
    scanFrom read rest = (endWord read ·) <$> scan rest := by
  cases rest with
  | nil => rfl
  | cons c cs =>
    have hc : isWordChar c = false := by simpa [Boundary] using h
    have hnil : (endWord [] ·) = (id : List Token → List Token) := rfl
    cases hb : Text.isBlank c with
    | true => simp only [scan, scanFrom, hb, if_true, hnil, id_map]
    | false =>
      cases ht : ofOperator? c with
      | some t =>
        simp only [scan, scanFrom, hb, ht, Bool.false_eq_true, if_false, Functor.map_map]
        rfl
      | none =>
        simp only [scan, scanFrom, hb, ht, hc, Bool.false_eq_true, if_false]
        rfl

theorem scanFrom_append (h : ∀ c ∈ w, isWordChar c = true) :
    scanFrom read (w ++ rest) = scanFrom (w.reverse ++ read) rest := by
  induction w generalizing read with
  | nil => rfl
  | cons c w ih =>
    have hc := h c (by simp)
    have hrest : scanFrom (c :: read) (w ++ rest) = _ := ih fun d hd => h d (by simp [hd])
    simpa [scanFrom, isBlank_of_isWordChar hc, ofOperator?_of_isWordChar hc, hc] using hrest

theorem exists_of_map_eq_ok {ε α β : Type} {f : α → β} {x : Except ε α} {b : β}
    (h : f <$> x = .ok b) : ∃ a, x = .ok a ∧ f a = b := by
  cases x with
  | error e => cases h
  | ok a => exact ⟨a, rfl, Except.ok.inj h⟩

/-! ## Scanning piece by piece -/

/-- The text `cs` is scanned as the tokens `ts`, wherever it ends at a boundary. -/
def Scans (cs : List Char) (ts : List Token) : Prop :=
  ∀ rest, Boundary rest → scan (cs ++ rest) = (ts ++ ·) <$> scan rest

theorem scans_nil : Scans [] [] := fun _ _ => (id_map _).symm

theorem Scans.append (h : Scans cs ts) (h' : Scans ds us)
    (hcut : ∀ rest, Boundary rest → Boundary (ds ++ rest)) : Scans (cs ++ ds) (ts ++ us) := by
  intro rest hrest
  rw [List.append_assoc, h _ (hcut rest hrest), h' rest hrest, Functor.map_map]
  simp only [List.append_assoc]

/-- A word is scanned as one token. -/
theorem IsWord.scans (h : IsWord w) : Scans w [word w] := by
  intro rest hrest
  have hend : (endWord w.reverse ·) = ([word w] ++ · : List Token → List Token) := by
    funext us
    cases hw : w.reverse with
    | nil => exact absurd (List.reverse_eq_nil_iff.1 hw) h.1
    | cons c r =>
      rw [← hw, endWord, List.reverse_reverse]
      · rfl
      · simpa using h.1
  rw [scan, scanFrom_append h.2, List.append_nil, scanFrom_of_boundary hrest, hend]

/-- An operator is scanned as its token. -/
theorem Scans.operator (h : ofOperator? c = some t) (hcs : Scans cs ts) :
    Scans (c :: cs) (t :: ts) := by
  intro rest hrest
  have hscan : scan (c :: (cs ++ rest)) = (t :: ·) <$> scan (cs ++ rest) := by
    simp only [scan, scanFrom, isBlank_of_operator h, h, Bool.false_eq_true, if_false]
    rfl
  rw [List.cons_append, hscan, hcs rest hrest, Functor.map_map]
  rfl

/-- A blank is skipped. -/
theorem Scans.blank (h : Text.isBlank c = true) (hcs : Scans cs ts) : Scans (c :: cs) ts := by
  intro rest hrest
  have hscan : scan (c :: (cs ++ rest)) = scan (cs ++ rest) := by
    simp only [scan, scanFrom, h, if_true]
    exact id_map _
  rw [List.cons_append, hscan, hcs rest hrest]

/-! ## Where a text is cut -/

/-- `Cut cs ts`: the text `cs` consists of the tokens `ts` with blanks between them, and every word
    among them is as long as it can be. -/
inductive Cut : List Char → List Token → Prop where
  | nil : Cut [] []
  | blank {c : Char} {cs : List Char} {ts : List Token} :
      Text.isBlank c = true → Cut cs ts → Cut (c :: cs) ts
  | operator {c : Char} {t : Token} {cs : List Char} {ts : List Token} :
      ofOperator? c = some t → Cut cs ts → Cut (c :: cs) (t :: ts)
  | word {w rest : List Char} {ts : List Token} :
      IsWord w → Boundary rest → Cut rest ts → Cut (w ++ rest) (.word w :: ts)

theorem boundary_of_isBlank (h : Text.isBlank c = true) : Boundary (c :: rest) := by
  refine boundary_cons (Bool.eq_false_iff.2 fun hc => ?_)
  simp [isBlank_of_isWordChar hc] at h

theorem boundary_of_operator (h : ofOperator? c = some t) : Boundary (c :: rest) := by
  refine boundary_cons (Bool.eq_false_iff.2 fun hc => ?_)
  simp [ofOperator?_of_isWordChar hc] at h

theorem Boundary.append (h : Boundary cs) (hrest : Boundary rest) : Boundary (cs ++ rest) := by
  cases cs with
  | nil => exact hrest
  | cons c cs => exact h

/-- What is cut into tokens is scanned as these. -/
theorem Cut.scans (h : Cut cs ts) : Scans cs ts := by
  induction h with
  | nil => exact scans_nil
  | blank hc _ ih => exact ih.blank hc
  | operator hc _ ih => exact ih.operator hc
  | word hw hrest _ ih => exact hw.scans.append ih fun _ => hrest.append

/-- The part of a word that has been read is a word, if it is there at all. -/
theorem Cut.endWord (hread : ∀ c ∈ read, isWordChar c = true) (hrest : Boundary rest)
    (h : Cut rest ts) : Cut (read.reverse ++ rest) (endWord read ts) := by
  cases read with
  | nil => exact h
  | cons c read =>
    have hword : IsWord (c :: read).reverse := ⟨by simp, by simpa [or_comm] using hread⟩
    exact .word hword hrest h

theorem cut_of_scanFrom (hread : ∀ c ∈ read, isWordChar c = true) (h : scanFrom read cs = .ok ts) :
    Cut (read.reverse ++ cs) ts := by
  -- the open word `read` ends at a blank or an operator, and takes in a word character
  induction cs generalizing read ts with
  | nil =>
    obtain rfl : Token.endWord read [] = ts := Except.ok.inj h
    exact Cut.nil.endWord hread boundary_nil
  | cons c cs ih =>
    cases hb : Text.isBlank c with
    | true =>
      simp only [scanFrom, hb, if_true] at h
      obtain ⟨us, hus, rfl⟩ := exists_of_map_eq_ok h
      exact (Cut.blank hb (ih (by simp) hus)).endWord hread (boundary_of_isBlank hb)
    | false =>
      cases ht : ofOperator? c with
      | some t =>
        simp only [scanFrom, hb, ht, Bool.false_eq_true, if_false] at h
        obtain ⟨us, hus, rfl⟩ := exists_of_map_eq_ok h
        exact (Cut.operator ht (ih (by simp) hus)).endWord hread (boundary_of_operator ht)
      | none =>
        simp only [scanFrom, hb, ht, Bool.false_eq_true, if_false] at h
        split_ifs at h with hc
        simpa using ih (by simpa [hc] using hread) h

/-- **The scan finds the tokens into which a text is cut.** -/
theorem scan_eq_ok_iff : scan cs = .ok ts ↔ Cut cs ts := by
  constructor
  · exact cut_of_scanFrom (by simp)
  · intro h
    have hscan := h.scans [] boundary_nil
    have hnil : scan [] = .ok [] := rfl
    rw [List.append_nil, hnil] at hscan
    exact hscan.trans (congrArg Except.ok (List.append_nil ts))

/-- **Every word that is found is one.** -/
theorem Cut.isWord (h : Cut cs ts) (hw : .word w ∈ ts) : IsWord w := by
  induction h with
  | nil => cases hw
  | blank _ _ ih => exact ih hw
  | operator hc _ ih =>
    rcases List.mem_cons.1 hw with rfl | hw
    · exact absurd hc ofOperator?_ne_word
    · exact ih hw
  | word hword _ _ ih =>
    rcases List.mem_cons.1 hw with heq | hw
    · cases heq
      exact hword
    · exact ih hw

end Token

end GoalAutomata
