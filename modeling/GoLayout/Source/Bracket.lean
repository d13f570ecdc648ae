import GoLayout.Source.Literal

/-! # Bracket depth

    Depths are counted along the live characters of a line. Braces stop at the one that
    brings the depth to zero; parentheses are counted to the end of the line, and a line that
    closes more than is open leaves none open. -/

namespace GoLayout.Bracket

/-- What a glyph adds to the brace depth. -/
def brace (g : Glyph) : Int :=
  if g.isLive '{' then 1 else if g.isLive '}' then -1 else 0

/-- What a glyph adds to the depth of parentheses. -/
def paren (g : Glyph) : Int :=
  if g.isLive '(' then 1 else if g.isLive ')' then -1 else 0

/-- The brace depth after a line and the column of the brace that brought it to zero. -/
def closing (depth : Int) : List Glyph → Int × Option Nat
  | [] => (depth, none)
  | g :: gs =>
    if g.isLive '}' ∧ depth = 1 then (0, some 0)
    else
      let r := closing (depth + brace g) gs
      (r.1, r.2.map (· + 1))

/-- The brace depth after a line of code, and the column of the brace that brought it to
    zero, where the count stops. -/
def scanBraces (code : Text) (depth : Int) : Int × Option Nat := closing depth (glyphs code)

/-- What some glyphs add to the depth of parentheses. -/
def parenSum : List Glyph → Int
  | [] => 0
  | g :: gs => paren g + parenSum gs

/-- The depth of parentheses after a line of code, at least zero. -/
def scanParens (code : Text) (depth : Int) : Int := max (depth + parenSum (glyphs code)) 0

end GoLayout.Bracket
