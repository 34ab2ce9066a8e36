/-
  The grammar of guard text, and that tokens are read exactly by it.

  A derivation says for which guard some tokens stand, as an operand, as a
  conjunction or as a disjunction.  The reader does not follow this nesting: it
  keeps one frame for each open parenthesis.  A frame in front of an operand stands
  for the tokens read of its disjunction so far (`Frame.Awaits`), and so does one
  behind an operand (`Frame.Holds`).

  * `Guard.readOperand_of_derives`: a phrase is read, whatever stands around it;
  * `Guard.derives_of_read`: what is read has a derivation;
  * `Guard.ofTokens_eq_ok_iff`: both together, so a list of tokens stands for one
    guard at most (`Guard.Derives.unique`).
-/
import GoalAutomata.Guard.Parser

namespace GoalAutomata

namespace Guard

/-! ## Derivations -/

/-- The kinds of phrases: each consists of phrases of the kind before it. -/
inductive Phrase where
  | operand
  | conjunction
  | disjunction

/-- Some tokens with the guard for which they stand. -/
abbrev Piece := List Token × Guard

/-- The tokens of some pieces, with a separator between the pieces. -/
def joined (sep : Token) (ps : List Piece) : List Token := [sep].intercalate (ps.map (·.1))

/-- One guard itself, or several under a common operator. -/
def combine (op : List Guard → Guard) : List Guard → Guard
  | [g] => g
  | gs => op gs

/-- `Derives k ts g`: the tokens `ts` are a phrase of kind `k` that stands for the guard `g`. -/
inductive Derives : Phrase → List Token → Guard → Prop where
  | word (w : List Char) : Derives .operand [.word w] (ofWord w)
  | neg {ts g} : Derives .operand ts g → Derives .operand (.neg :: ts) (.not g)
  | parens {ts g} : Derives .disjunction ts g → Derives .operand (.left :: ts ++ [.right]) g
  | conj {ps : List Piece} : ps ≠ [] → (∀ p ∈ ps, Derives .operand p.1 p.2) →
      Derives .conjunction (joined .conj ps) (combine and (ps.map (·.2)))
  | disj {ps : List Piece} : ps ≠ [] → (∀ p ∈ ps, Derives .conjunction p.1 p.2) →
      Derives .disjunction (joined .disj ps) (combine or (ps.map (·.2)))

/-! ## Pieces -/

section Pieces

variable {sep : Token} {p q : Piece} {ps : List Piece} {op : List Guard → Guard} {g : Guard}
  {gs : List Guard}

@[simp] theorem joined_singleton : joined sep [p] = p.1 := List.intercalate_singleton

@[simp] theorem joined_cons_cons :
    joined sep (p :: q :: ps) = p.1 ++ sep :: joined sep (q :: ps) := by
  simp [joined, List.intercalate_cons_cons]

theorem joined_cons : joined sep (p :: ps) = p.1 ++ ps.flatMap (sep :: ·.1) := by
  induction ps generalizing p with
  | nil => simp
  | cons q ps ih => simp [ih]

theorem joined_concat : joined sep (ps ++ [p]) = ps.flatMap (·.1 ++ [sep]) ++ p.1 := by
  induction ps with
  | nil => simp
  | cons q ps ih =>
    cases ps with
    | nil => simp
    | cons r ps => simpa using ih

@[simp] theorem combine_singleton : combine op [g] = g := rfl

theorem combine_of_two_le (h : 2 ≤ gs.length) : combine op gs = op gs := by
  match gs, h with
  | _ :: _ :: _, _ => rfl

/-- The reader gathers its operands in reverse. -/
theorem gather_eq : gather op gs = combine op gs.reverse := by
  match gs with
  | [] | [_] => rfl
  | g :: h :: gs => rw [combine_of_two_le (by simp), gather]; simp

theorem negations_not (n : Nat) (g : Guard) : negations n (.not g) = negations (n + 1) g := by
  induction n with
  | zero => rfl
  | succ n ih => rw [negations, ih]; rfl

/-- Negations in front of an operand make an operand. -/
theorem Derives.negations {ts : List Token} (h : Derives .operand ts g) (n : Nat) :
    Derives .operand (List.replicate n .neg ++ ts) (negations n g) := by
  induction n with
  | zero => exact h
  | succ n ih => exact ih.neg

/-- One conjunct is a conjunction. -/
theorem Derives.conjunction {ts : List Token} (h : Derives .operand ts g) :
    Derives .conjunction ts g := by
  simpa using @Derives.conj [(ts, g)] (by simp) (by simpa using h)

/-- One disjunct is a disjunction. -/
theorem Derives.disjunction {ts : List Token} (h : Derives .conjunction ts g) :
    Derives .disjunction ts g := by
  simpa using @Derives.disj [(ts, g)] (by simp) (by simpa using h)

end Pieces

/-! ## What has a derivation is read -/

section Complete

variable {f : Frame} {outer : List Frame} {ts rest : List Token} {g : Guard} {ps : List Piece}

theorem push_eq (h : f.negated = 0) (g : Guard) :
    f.push g = { f with conjuncts := g :: f.conjuncts } := by
  cases f
  subst h
  rfl

/-- The tokens of an operand are read as one operand. -/
def ReadAsOperand (ts : List Token) (g : Guard) : Prop :=
  ∀ f outer rest, readOperand f outer (ts ++ rest) = readOperator (f.push g) outer rest

/-- The tokens of a conjunction are read as the conjuncts of one disjunct. -/
def ReadAsConjunction (ts : List Token) (g : Guard) : Prop :=
  ∀ (ds : List Guard) outer rest, ∃ cs, gather and cs = g ∧
    readOperand ⟨ds, [], 0⟩ outer (ts ++ rest) = readOperator ⟨ds, cs, 0⟩ outer rest

/-- The tokens of a disjunction are read as one frame. -/
def ReadAsDisjunction (ts : List Token) (g : Guard) : Prop :=
  ∀ outer rest, ∃ f : Frame, f.close = g ∧
    readOperand {} outer (ts ++ rest) = readOperator f outer rest

theorem readOperand_conjuncts (hne : ps ≠ []) (hps : ∀ p ∈ ps, ReadAsOperand p.1 p.2)
    (ds cs : List Guard) (outer : List Frame) (rest : List Token) :
    readOperand ⟨ds, cs, 0⟩ outer (joined .conj ps ++ rest) =
      readOperator ⟨ds, (ps.map (·.2)).reverse ++ cs, 0⟩ outer rest := by
  induction ps generalizing cs with
  | nil => exact absurd rfl hne
  | cons p ps ih =>
    have hp := hps p (by simp)
    cases ps with
    | nil =>
      rw [joined_singleton, hp, push_eq rfl]
      simp
    | cons q ps =>
      rw [joined_cons_cons, List.append_assoc, hp, push_eq rfl]
      have hrest := ih (by simp) (fun r hr => hps r (by simp [hr])) (p.2 :: cs)
      simpa [readOperator] using hrest

theorem readOperand_disjuncts (hne : ps ≠ []) (hps : ∀ p ∈ ps, ReadAsConjunction p.1 p.2)
    (ds : List Guard) (outer : List Frame) (rest : List Token) :
    ∃ f : Frame, f.split.disjuncts = (ps.map (·.2)).reverse ++ ds ∧
      readOperand ⟨ds, [], 0⟩ outer (joined .disj ps ++ rest) = readOperator f outer rest := by
  induction ps generalizing ds with
  | nil => exact absurd rfl hne
  | cons p ps ih =>
    have hp := hps p (by simp) ds outer
    cases ps with
    | nil =>
      obtain ⟨cs, hcs, hread⟩ := hp rest
      refine ⟨⟨ds, cs, 0⟩, ?_, ?_⟩
      · simp [Frame.split, hcs]
      · rw [joined_singleton, hread]
    | cons q ps =>
      obtain ⟨cs, hcs, hread⟩ := hp (.disj :: (joined .disj (q :: ps) ++ rest))
      obtain ⟨f, hf, hrest⟩ := ih (by simp) (fun r hr => hps r (by simp [hr])) (p.2 :: ds)
      refine ⟨f, by simpa using hf, ?_⟩
      rw [joined_cons_cons, List.append_assoc, List.cons_append, hread, ← hrest, ← hcs]
      rfl

/-- **A phrase is read as the guard for which it stands, whatever stands around it.** -/
theorem readOperand_of_derives {k : Phrase} (h : Derives k ts g) :
    match k with
    | .operand => ReadAsOperand ts g
    | .conjunction => ReadAsConjunction ts g
    | .disjunction => ReadAsDisjunction ts g := by
  induction h with
  | word w => exact fun _ _ _ => rfl
  | @neg ts g _ ih =>
    intro f outer rest
    have hneg : f.negate.push g = f.push (.not g) := by
      rw [Frame.push, Frame.push, negations_not]
      rfl
    rw [← hneg, ← ih]
    rfl
  | @parens ts g _ ih =>
    intro f outer rest
    -- the frame of the parentheses is closed into an operand of the frame around them
    obtain ⟨inner, hclose, hread⟩ := ih (f :: outer) (.right :: rest)
    calc readOperand f outer (.left :: ts ++ [.right] ++ rest)
        = readOperand {} (f :: outer) (ts ++ .right :: rest) := by simp [readOperand]
      _ = readOperator inner (f :: outer) (.right :: rest) := hread
      _ = readOperator (f.push g) outer rest := by rw [readOperator, hclose]
  | @conj ps hne _ ih =>
    intro ds outer rest
    refine ⟨(ps.map (·.2)).reverse, ?_, ?_⟩
    · rw [gather_eq, List.reverse_reverse]
    · rw [readOperand_conjuncts hne ih, List.append_nil]
  | @disj ps hne _ ih =>
    intro outer rest
    obtain ⟨f, hf, hread⟩ := readOperand_disjuncts hne ih [] outer rest
    refine ⟨f, ?_, hread⟩
    rw [Frame.close, hf, gather_eq, List.append_nil, List.reverse_reverse]

end Complete

/-! ## What is read has a derivation -/

namespace Frame

variable {f : Frame} {cs ts : List Token} {g : Guard}

/-- The frame stands for the tokens `cs` of a disjunction in which an operand is next. -/
def Awaits (f : Frame) (cs : List Token) : Prop :=
  ∃ ds ps : List Piece, (∀ p ∈ ds, Derives .conjunction p.1 p.2) ∧
    (∀ p ∈ ps, Derives .operand p.1 p.2) ∧ f.disjuncts = (ds.map (·.2)).reverse ∧
    f.conjuncts = (ps.map (·.2)).reverse ∧
    cs = ds.flatMap (·.1 ++ [.disj]) ++ ps.flatMap (·.1 ++ [.conj]) ++
      List.replicate f.negated .neg

/-- The frame stands for the tokens `cs` of a disjunction in which an operand has just ended. -/
def Holds (f : Frame) (cs : List Token) : Prop :=
  ∃ ds ps : List Piece, ps ≠ [] ∧ (∀ p ∈ ds, Derives .conjunction p.1 p.2) ∧
    (∀ p ∈ ps, Derives .operand p.1 p.2) ∧ f = ⟨(ds.map (·.2)).reverse, (ps.map (·.2)).reverse, 0⟩ ∧
    cs = ds.flatMap (·.1 ++ [.disj]) ++ joined .conj ps

theorem awaits_nil : Awaits {} [] := ⟨[], [], by simp, by simp, rfl, rfl, rfl⟩

theorem Awaits.negate (h : f.Awaits cs) : f.negate.Awaits (cs ++ [.neg]) := by
  obtain ⟨ds, ps, hds, hps, hd, hc, rfl⟩ := h
  refine ⟨ds, ps, hds, hps, hd, hc, ?_⟩
  simp [Frame.negate, List.replicate_succ']

theorem Awaits.push (h : f.Awaits cs) (hg : Derives .operand ts g) :
    (f.push g).Holds (cs ++ ts) := by
  obtain ⟨ds, ps, hds, hps, hd, hc, rfl⟩ := h
  refine ⟨ds, ps ++ [(List.replicate f.negated .neg ++ ts, negations f.negated g)], by simp, hds,
    ?_, ?_, ?_⟩
  · intro p hp
    rcases List.mem_append.1 hp with hp | hp
    · exact hps p hp
    · rw [List.mem_singleton.1 hp]
      exact hg.negations f.negated
  · simp [Frame.push, hd, hc]
  · simp [joined_concat]

theorem Holds.conj (h : f.Holds cs) : f.Awaits (cs ++ [.conj]) := by
  obtain ⟨ds, ps, hne, hds, hps, rfl, rfl⟩ := h
  refine ⟨ds, ps, hds, hps, rfl, rfl, ?_⟩
  obtain ⟨qs, q, rfl⟩ := List.eq_nil_or_concat ps |>.resolve_left hne
  simp [joined_concat]

/-- The last conjuncts end a disjunct. -/
theorem Holds.exists_disjuncts (h : f.Holds cs) : ∃ (ds : List Piece) (d : Piece),
    (∀ p ∈ ds ++ [d], Derives .conjunction p.1 p.2) ∧
    f.split.disjuncts = ((ds ++ [d]).map (·.2)).reverse ∧ cs = joined .disj (ds ++ [d]) := by
  obtain ⟨ds, ps, hne, hds, hps, rfl, rfl⟩ := h
  refine ⟨ds, (joined .conj ps, combine and (ps.map (·.2))), ?_, ?_, ?_⟩
  · intro p hp
    rcases List.mem_append.1 hp with hp | hp
    · exact hds p hp
    · rw [List.mem_singleton.1 hp]
      exact .conj hne hps
  · simp [Frame.split, gather_eq]
  · rw [joined_concat]

theorem Holds.split (h : f.Holds cs) : f.split.Awaits (cs ++ [.disj]) := by
  obtain ⟨ds, d, hds, hsplit, rfl⟩ := h.exists_disjuncts
  refine ⟨ds ++ [d], [], hds, by simp, hsplit, rfl, ?_⟩
  simp [joined_concat, Frame.split]

theorem Holds.close (h : f.Holds cs) : Derives .disjunction cs f.close := by
  obtain ⟨ds, d, hds, hsplit, rfl⟩ := h.exists_disjuncts
  rw [Frame.close, hsplit, gather_eq, List.reverse_reverse]
  exact .disj (by simp) hds

end Frame

/-- The frames of the open parentheses stand for the tokens in front of the innermost one. -/
def Enclosed : List Frame → List Token → Prop
  | [], pre => pre = []
  | f :: outer, pre => ∃ before cs, Enclosed outer before ∧ f.Awaits cs ∧
      pre = before ++ cs ++ [.left]

/-- **What is read has a derivation**, by the tokens before and after. -/
theorem derives_of_read (rest : List Token) (f : Frame) (outer : List Frame) (pre cs : List Token)
    (g : Guard) (hpre : Enclosed outer pre) :
    (f.Awaits cs → readOperand f outer rest = .ok g →
      Derives .disjunction (pre ++ cs ++ rest) g) ∧
    (f.Holds cs → readOperator f outer rest = .ok g →
      Derives .disjunction (pre ++ cs ++ rest) g) := by
  -- the tokens before are those of the frames outside and of the innermost one, and every token
  -- that is read moves from the rest to them
  induction rest generalizing f outer pre cs with
  | nil =>
    refine ⟨fun _ hread => by simp [readOperand] at hread, fun hf hread => ?_⟩
    cases outer with
    | nil =>
      cases hpre
      obtain rfl : f.close = g := by simpa [readOperator] using hread
      simpa using hf.close
    | cons f' outer => simp [readOperator] at hread
  | cons t rest ih =>
    constructor
    · intro hf hread
      cases t with
      | neg => simpa using (ih _ outer pre _ hpre).1 hf.negate hread
      | left =>
        have hpre' : Enclosed (f :: outer) (pre ++ cs ++ [.left]) := ⟨pre, cs, hpre, hf, rfl⟩
        simpa using (ih _ _ _ _ hpre').1 Frame.awaits_nil hread
      | word w => simpa using (ih _ outer pre _ hpre).2 (hf.push (.word w)) hread
      | conj | disj | right => simp [readOperand] at hread
    · intro hf hread
      cases t with
      | conj => simpa using (ih _ outer pre _ hpre).1 hf.conj hread
      | disj => simpa using (ih _ outer pre _ hpre).1 hf.split hread
      | right =>
        cases outer with
        | nil => simp [readOperator] at hread
        | cons f' outer =>
          obtain ⟨before, cs', hbefore, hf', rfl⟩ := hpre
          simpa using (ih _ outer before _ hbefore).2 (hf'.push hf.close.parens) hread
      | neg | left | word w => cases outer <;> simp [readOperator] at hread

/-! ## Both together -/

/-- **Reading finds exactly the derivations.** -/
theorem ofTokens_eq_ok_iff {ts : List Token} {g : Guard} :
    ofTokens ts = .ok g ↔ Derives .disjunction ts g := by
  constructor
  · intro h
    simpa using (derives_of_read ts {} [] [] [] g rfl).1 Frame.awaits_nil h
  · intro h
    obtain ⟨f, hclose, hread⟩ := readOperand_of_derives h [] []
    rw [List.append_nil] at hread
    rw [ofTokens, hread, readOperator, hclose]

theorem parse_eq_ok_iff {s : String} {g : Guard} :
    parse s = .ok g ↔ ∃ ts, Token.scan s.toList = .ok ts ∧ Derives .disjunction ts g := by
  unfold parse
  cases Token.scan s.toList with
  | error c => simp
  | ok ts => simp [ofTokens_eq_ok_iff]

/-- A list of tokens stands for one guard at most. -/
theorem Derives.unique {ts : List Token} {g h : Guard} (hg : Derives .disjunction ts g)
    (hh : Derives .disjunction ts h) : g = h :=
  Except.ok.inj ((ofTokens_eq_ok_iff.2 hg).symm.trans (ofTokens_eq_ok_iff.2 hh))

end Guard

end GoalAutomata
