import GoLayout.Source.Literal

/-! # Segments

    The fields on one line of a struct body are divided by semicolons. A semicolon divides
    only outside literals, outside round and square brackets, and outside braces opened on the
    line. Round and square brackets may stay open at the end of a line; their depth is carried
    to the next one. Joining the segments with semicolons gives the line back
    (`joinWith_cut`). -/

namespace GoLayout

/-- How deep a place on a line is in brackets: in round and square ones, never negative once
    one was closed, and in braces. -/
structure Nesting where
  brackets : Int
  braces : Int
  deriving Repr, DecidableEq

namespace Nesting

/-- The nesting behind a glyph. -/
def next (n : Nesting) (g : Glyph) : Nesting :=
  if g.isLive '[' || g.isLive '(' then { n with brackets := n.brackets + 1 }
  else if g.isLive ']' || g.isLive ')' then { n with brackets := max (n.brackets - 1) 0 }
  else if g.isLive '{' then { n with braces := n.braces + 1 }
  else if g.isLive '}' then { n with braces := n.braces - 1 }
  else n

/-- Does the glyph divide two fields? -/
def divides (n : Nesting) (g : Glyph) : Bool :=
  g.isLive ';' && n.brackets == 0 && n.braces ≤ 0

end Nesting

/-- A part of a line and the column of its first character. -/
structure Segment where
  start : Nat
  text : Text
  deriving Repr, DecidableEq

namespace Segment

/-- The parts of a line between its dividing semicolons, and the nesting at its end. -/
def cut (n : Nesting) : List Glyph → List Text × Nesting
  | [] => ([[]], n)
  | g :: gs =>
    if n.divides g then
      let r := cut n gs
      ([] :: r.1, r.2)
    else
      let r := cut (n.next g) gs
      (Text.glue g.char r.1, r.2)

/-- The parts of a line as segments, the first one starting at a given column. -/
def place (start : Nat) : List Text → List Segment
  | [] => []
  | t :: ts => ⟨start, t⟩ :: place (start + t.length + 1) ts

/-- The segments of a line of code and the depth of round and square brackets at its end,
    given their depth at its start. -/
def split (code : Text) (brackets : Int) : List Segment × Int :=
  let r := cut ⟨brackets, 0⟩ (glyphs code)
  (place 0 r.1, r.2.brackets)

theorem cut_ne_nil (n : Nesting) (gs : List Glyph) : (cut n gs).1 ≠ [] := by
  cases gs with
  | nil => simp [cut]
  | cons g gs =>
    rw [cut]
    split
    · simp
    · dsimp only
      cases (cut (n.next g) gs).1 <;> simp [Text.glue]

/-- Nothing is lost but the dividing semicolons. -/
theorem joinWith_cut (n : Nesting) (gs : List Glyph) :
    Text.joinWith [';'] (cut n gs).1 = gs.map (·.char) := by
  induction gs generalizing n with
  | nil => rfl
  | cons g gs ih =>
    rw [cut]
    split
    · next h =>
      have hc : g.char = ';' := by
        simp only [Nesting.divides, Glyph.isLive, Bool.and_eq_true, beq_iff_eq] at h
        exact h.1.1.2
      dsimp only
      cases hs : (cut n gs).1 with
      | nil => exact absurd hs (cut_ne_nil n gs)
      | cons t ts =>
        have := ih n
        rw [hs] at this
        simp [Text.joinWith, this, hc]
    · simp [Text.joinWith_glue _ _ (cut_ne_nil _ gs), ih]

@[simp] theorem place_map_text (start : Nat) (ts : List Text) :
    (place start ts).map (·.text) = ts := by
  induction ts generalizing start with
  | nil => rfl
  | cons t ts ih => simp [place, ih]

end Segment

end GoLayout
