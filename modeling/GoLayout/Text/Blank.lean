import GoLayout.Text.CodeRange

/-! # Blank characters

    The characters that count as white space: the ASCII controls from tab to carriage
    return and from file separator to unit separator, the space, and the separators of
    Unicode 14. `toNat_mem_of_isBlank` lists their code points. -/

namespace GoLayout

/-- The blank characters beyond ASCII. -/
def blankRanges : List CodeRange :=
  [(0x85, 0x85), (0xa0, 0xa0), (0x1680, 0x1680), (0x2000, 0x200a), (0x2028, 0x2029),
    (0x202f, 0x202f), (0x205f, 0x205f), (0x3000, 0x3000)]

/-- Is the character white space? -/
def isBlank (c : Char) : Bool :=
  if c.toNat < 128 then
    c == ' ' || (0x09 ≤ c.toNat && c.toNat ≤ 0x0d) || (0x1c ≤ c.toNat && c.toNat ≤ 0x1f)
  else CodeRange.cover blankRanges c.toNat

/-- The code points of the blanks. -/
def blankCodes : List Nat :=
  [9, 10, 11, 12, 13, 28, 29, 30, 31, 32, 0x85, 0xa0, 0x1680, 0x2000, 0x2001, 0x2002, 0x2003,
    0x2004, 0x2005, 0x2006, 0x2007, 0x2008, 0x2009, 0x200a, 0x2028, 0x2029, 0x202f, 0x205f,
    0x3000]

theorem toNat_mem_of_isBlank {c : Char} (h : isBlank c = true) : c.toNat ∈ blankCodes := by
  unfold isBlank at h
  split at h
  · have hs : c = ' ' ↔ c.toNat = 32 := by
      constructor
      · rintro rfl; rfl
      · intro h; exact Char.toNat_inj.1 h
    simp only [Bool.or_eq_true, Bool.and_eq_true, decide_eq_true_eq, beq_iff_eq, hs] at h
    simp only [blankCodes, List.mem_cons, List.not_mem_nil, or_false]
    omega
  · simp only [CodeRange.cover, blankRanges, List.any_cons, List.any_nil, Bool.or_eq_true,
      Bool.and_eq_true, decide_eq_true_eq, Bool.or_false] at h
    simp only [blankCodes, List.mem_cons, List.not_mem_nil, or_false]
    omega

end GoLayout
