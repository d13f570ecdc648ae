import GoLayout.Position
import GoLayout.Text.Basic

/-! # Declarations

    What is known of a struct once its source has been read: its name, its place and its
    fields in order. -/

namespace GoLayout

/-- A field as it is written: name, type expression and the place of the name. -/
structure Field where
  name : Text
  type : Text
  location : Location
  deriving Repr, DecidableEq

/-- A struct declaration. It is terminated if its closing brace was found; otherwise its span
    ends with the last line that belongs to it. -/
structure Declaration where
  name : Text
  fields : List Field
  span : Span
  nameLocation : Location
  terminated : Bool
  deriving Repr, DecidableEq

/-- The line of the header. -/
def Declaration.line (d : Declaration) : Nat := d.span.startLine

end GoLayout
