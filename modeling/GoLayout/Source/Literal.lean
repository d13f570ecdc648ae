import GoLayout.Source.Comment

/-! # Literals

    Brackets and semicolons count only outside string, rune and raw string literals.
    `glyphs` marks each character of a line of code as live (outside literals, and no
    literal's quote) or not; `liveChars` lists the live ones with their columns. Reading a
    line in two parts gives the same marks (`glyphs_append`). -/

namespace GoLayout

/-- Where a reader of code stands: outside literals, in one, or right behind the backslash
    in one. -/
inductive Quoting where
  | outside
  | inside (quote : Char)
  | escaped (quote : Char)
  deriving Repr, DecidableEq

namespace Quoting

/-- Where the reader stands after a character. -/
def next : Quoting → Char → Quoting
  | outside, c => if isQuote c then inside c else outside
  | inside q, c =>
    if c = q then outside
    else if c = '\\' ∧ q ≠ rawQuote then escaped q
    else inside q
  | escaped q, _ => inside q

/-- Where the reader stands after a text. -/
def after (s : Quoting) (t : Text) : Quoting := t.foldl next s

end Quoting

/-- A character of code and whether it stands outside literals and is no quote. -/
structure Glyph where
  char : Char
  live : Bool
  deriving Repr, DecidableEq

namespace Glyph

/-- Is the glyph a given character outside literals? -/
def isLive (g : Glyph) (c : Char) : Bool := g.live && g.char == c

/-- The marked character that a reader sees. -/
def read (s : Quoting) (c : Char) : Glyph := ⟨c, s == .outside && !isQuote c⟩

end Glyph

/-- The marked characters of a text, read from a given place on. -/
def glyphsFrom : Quoting → Text → List Glyph
  | _, [] => []
  | s, c :: t => Glyph.read s c :: glyphsFrom (s.next c) t

/-- The marked characters of a line of code. -/
def glyphs (code : Text) : List Glyph := glyphsFrom .outside code

/-- The characters of a line outside literals, with their columns. -/
def liveChars (code : Text) : List (Nat × Char) :=
  ((glyphs code).zipIdx.filter (·.1.live)).map fun (g, i) => (i, g.char)

@[simp] theorem glyphsFrom_length (s : Quoting) (t : Text) :
    (glyphsFrom s t).length = t.length := by
  induction t generalizing s with
  | nil => rfl
  | cons c t ih => simp [glyphsFrom, ih]

/-- The marks do not change the text. -/
@[simp] theorem map_char_glyphsFrom (s : Quoting) (t : Text) :
    (glyphsFrom s t).map (·.char) = t := by
  induction t generalizing s with
  | nil => rfl
  | cons c t ih => simp [glyphsFrom, Glyph.read, ih]

theorem glyphsFrom_append (s : Quoting) (a b : Text) :
    glyphsFrom s (a ++ b) = glyphsFrom s a ++ glyphsFrom (s.after a) b := by
  induction a generalizing s with
  | nil => rfl
  | cons c a ih => simp [glyphsFrom, Quoting.after, ih]

/-- A line whose first part ends outside literals is marked part by part. -/
theorem glyphs_append {a : Text} (b : Text) (h : Quoting.after .outside a = .outside) :
    glyphs (a ++ b) = glyphs a ++ glyphs b := by
  rw [glyphs, glyphsFrom_append, h, glyphs, glyphs]

end GoLayout
