/-
  Classes of characters given as ranges of code points.

  * `isBlank`: the Unicode property `White_Space`;
  * `isFiller`: letters that are drawn as nothing, with the Unicode property
    `Default_Ignorable_Code_Point`.  They are the Hangul fillers, which hold the
    place of a missing letter.  Quoted text escapes them, so that they can be seen.
-/

namespace GoalAutomata.Text

/-- A list of ranges of code points, each with its first and its last one. -/
abbrev CharRanges := List (Nat × Nat)

/-- A character belongs to the class if some range holds its code point. -/
def CharRanges.contains (rs : CharRanges) (c : Char) : Bool :=
  rs.any fun r => r.1 ≤ c.toNat && c.toNat ≤ r.2

theorem CharRanges.contains_iff {rs : CharRanges} {c : Char} :
    rs.contains c = true ↔ ∃ r ∈ rs, r.1 ≤ c.toNat ∧ c.toNat ≤ r.2 := by
  simp [CharRanges.contains]

/-- The ranges of the property `White_Space`. -/
def blankRanges : CharRanges :=
  [(0x9, 0xd), (0x20, 0x20), (0x85, 0x85), (0xa0, 0xa0), (0x1680, 0x1680), (0x2000, 0x200a),
   (0x2028, 0x2029), (0x202f, 0x202f), (0x205f, 0x205f), (0x3000, 0x3000)]

/-- Whether a character is blank. -/
def isBlank (c : Char) : Bool := blankRanges.contains c

/-- The ranges of the Hangul fillers, in ascending order. -/
def fillerRanges : CharRanges := [(0x115f, 0x1160), (0x3164, 0x3164), (0xffa0, 0xffa0)]

/-- Whether a letter is drawn as nothing. -/
def isFiller (c : Char) : Bool := fillerRanges.contains c

end GoalAutomata.Text
