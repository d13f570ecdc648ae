import GoLayout.Source.CodeLine
import GoLayout.Text.Identifier

/-! # Headers

    A struct declaration starts with its name, optional type parameters in square brackets
    and the word `struct`. Outside a type group the word `type` stands in front of the name,
    anywhere on the line; inside a group the name may be the first thing on the line. -/

namespace GoLayout

/-- A header on a line of code: the text from its name on, the name, and the text behind the
    word `struct`. -/
structure Header where
  fromName : Text
  name : Text
  behind : Text
  deriving Repr, DecidableEq

namespace Header

/-- What follows the whole word `struct` behind at least one blank. -/
def afterStruct? : Text → Option Text
  | [] => none
  | c :: t =>
    if isBlank c then
      match Text.after? "struct" (Text.trimLeft t) with
      | some rest => if rest.head?.any isWord then none else some rest
      | none => none
    else none

/-- What follows `struct` behind the last closing bracket that it follows. -/
def afterBrackets? : Text → Option Text
  | [] => none
  | c :: t =>
    match afterBrackets? t with
    | some rest => some rest
    | none => if c = ']' then afterStruct? t else none

/-- What follows `struct` behind a name, with type parameters in between if a bracket
    follows the name. -/
def afterName? (t : Text) : Option Text :=
  match Text.trimLeft t with
  | '[' :: rest => afterBrackets? rest
  | _ => afterStruct? t

/-- The header at the start of a text, which is its name. -/
def atName? (t : Text) : Option Header := do
  let (name, rest) ← Identifier.leading? t
  let behind ← afterName? rest
  return ⟨t, name, behind⟩

/-- The header at the start of a text, which is the word `type`. -/
def atKeyword? (t : Text) : Option Header :=
  match Text.after? "type" t with
  | some (c :: rest) => if isBlank c then atName? (Text.trimLeft rest) else none
  | _ => none

/-- The first header with the whole word `type` in a text behind a given character. -/
def search? (previous : Option Char) : Text → Option Header
  | [] => none
  | c :: t =>
    (if previous.any isWord then none else atKeyword? (c :: t)) <|> search? (some c) t

/-- The header on a line that starts with the word `type`. -/
def leading? (code : Text) : Option Header := atKeyword? (Text.trimLeft code)

/-- The header on a line of code, inside or outside a type group. -/
def find? (inGroup : Bool) (code : Text) : Option Header :=
  search? none code <|> if inGroup then atName? (Text.trimLeft code) else none

/-- Does the line open a type group and do nothing else? -/
def opensGroup (code : Text) : Bool :=
  match Text.after? "type" (Text.trimLeft code) with
  | some rest =>
    match Text.trimLeft rest with
    | '(' :: rest => Text.isBlankText rest
    | _ => false
  | none => false

/-- The column of the name on the line that the header was found on. -/
def nameColumn (h : Header) (code : Text) : Nat := code.length - h.fromName.length

/-- The line behind the header. -/
def rest (h : Header) (l : CodeLine) : CodeLine :=
  { l with column := l.column + (l.code.length - h.behind.length), code := h.behind }

end Header

end GoLayout
