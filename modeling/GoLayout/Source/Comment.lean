import GoLayout.Text.Basic

/-! # Comments

    Go source is read line by line. `Comment.strip` takes the comments out of a line: a line
    comment ends the line, a block comment becomes blanks of the same width, so that what is
    left keeps its columns (`strip_length_le`). A block comment that stays open ends the line
    where it starts and hides the lines below until it closes. Comment marks inside string,
    rune and raw string literals are text; a literal ends with its line at the latest. -/

namespace GoLayout

/-- The mark of a raw string literal, in which a backslash has no meaning. -/
def rawQuote : Char := '\x60'

/-- Does the character start a literal? -/
def isQuote (c : Char) : Bool := c == '"' || c == '\'' || c == rawQuote

namespace Comment

/-- What a character of a line belongs to. -/
inductive Mode where
  | code
  | literal (quote : Char)
  | block
  deriving Repr, DecidableEq

/-- Puts characters in front of a stripped line. -/
def keep (cs : Text) (r : Text × Bool) : Text × Bool := (cs ++ r.1, r.2)

/-- Puts a blank in front of a line that starts inside a block comment, if the comment is
    closed on it; otherwise nothing of it is left. -/
def blank (r : Text × Bool) : Text × Bool := (if r.1.isEmpty then [] else ' ' :: r.1, r.2)

/-- The rest of a line without its comments, and whether a block comment is open at its
    end. -/
def stripFrom : Mode → Text → Text × Bool
  | .code, [] => ([], false)
  | .code, '/' :: '/' :: _ => ([], false)
  | .code, '/' :: '*' :: t => keep [' ', ' '] (stripFrom .block t)
  | .code, c :: t => keep [c] (stripFrom (if isQuote c then .literal c else .code) t)
  | .literal _, [] => ([], false)
  | .literal _, [c] => ([c], false)
  | .literal q, c :: d :: t =>
    if c = '\\' ∧ q ≠ rawQuote then keep [c, d] (stripFrom (.literal q) t)
    else keep [c] (stripFrom (if c = q then .code else .literal q) (d :: t))
  | .block, [] => ([], true)
  | .block, '*' :: '/' :: t => keep [' ', ' '] (stripFrom .code t)
  | .block, _ :: t => blank (stripFrom .block t)

/-- A line without its comments, and whether a block comment is open at its end, given
    whether one is open at its start. -/
def strip (line : Text) (inBlock : Bool) : Text × Bool :=
  stripFrom (if inBlock then .block else .code) line

/-- What is put in front of a line that is no longer than its source leaves it so, as long as it is
    no longer than what was read for it. -/
theorem keep_length_le {cs line : Text} {r : Text × Bool} (read : Text)
    (hcs : cs.length = read.length) (h : r.1.length ≤ line.length) :
    (keep cs r).1.length ≤ (read ++ line).length := by
  rw [keep, List.length_append, List.length_append, hcs]
  exact Nat.add_le_add_left h _

theorem blank_length_le (r : Text × Bool) : (blank r).1.length ≤ r.1.length + 1 := by
  rw [blank]
  split
  · exact Nat.zero_le _
  · exact Nat.le_refl _

/-- A line has no more characters than it had with its comments. -/
theorem stripFrom_length_le (m : Mode) (line : Text) :
    (stripFrom m line).1.length ≤ line.length := by
  -- one case for each way to go on: what is read is kept, or left out with blanks in its place
  fun_induction stripFrom m line with
  | case1 => exact Nat.le_refl 0
  | case2 t => exact Nat.zero_le _
  | case3 t ih => exact keep_length_le ['/', '*'] rfl ih
  | case4 c t _ _ ih => exact keep_length_le [c] rfl ih
  | case5 q => exact Nat.le_refl 0
  | case6 q c => exact Nat.le_refl 1
  | case7 q c d t _ ih => exact keep_length_le [c, d] rfl ih
  | case8 q c d t _ ih => exact keep_length_le [c] rfl ih
  | case9 => exact Nat.le_refl 0
  | case10 t ih => exact keep_length_le ['*', '/'] rfl ih
  | case11 c t _ ih => exact Nat.le_trans (blank_length_le _) (Nat.succ_le_succ ih)

/-- Stripping never moves text to the right. -/
theorem strip_length_le (line : Text) (inBlock : Bool) :
    (strip line inBlock).1.length ≤ line.length := stripFrom_length_le _ _

end Comment

end GoLayout
