import GoLayout.Analysis

/-! # JSON reports

    The same facts for other programs: JSON values and their layout over several lines. -/

namespace GoLayout

/-- A JSON value without fractions; the members of an object keep their order. -/
inductive JsonValue where
  | bool (b : Bool)
  | int (n : Int)
  | text (t : Text)
  | list (items : List JsonValue)
  | object (members : List (Text × JsonValue))
  deriving Repr

namespace JsonValue

/-- A character as it stands in a JSON string. -/
def escapeChar (c : Char) : Text :=
  if c = '"' then ['\\', '"']
  else if c = '\\' then ['\\', '\\']
  else if c = '\n' then ['\\', 'n']
  else if c = '\r' then ['\\', 'r']
  else if c = '\t' then ['\\', 't']
  else if c.toNat = 8 then ['\\', 'b']
  else if c.toNat = 12 then ['\\', 'f']
  else if c.toNat < 0x20 then '\\' :: 'u' :: Text.padLeft 4 '0' (Nat.toDigits 16 c.toNat)
  else [c]

/-- A JSON string. -/
def string (t : Text) : Text := '"' :: t.flatMap escapeChar ++ ['"']

/-- A line break and the blanks that start the next line at a given depth. -/
def newline (depth : Nat) : Text := '\n' :: List.replicate (2 * depth) ' '

mutual

/-- The text of a value that stands at a given depth. -/
def print (depth : Nat) : JsonValue → Text
  | .bool b => if b then "true" else "false"
  | .int n => Decimal.ofInt n
  | .text t => string t
  | .list [] => "[]"
  | .list (item :: items) =>
    Text.concat [['['], newline (depth + 1), print (depth + 1) item, printItems depth items,
      newline depth, [']']]
  | .object [] => ['{', '}']
  | .object ((key, value) :: members) =>
    Text.concat [['{'], newline (depth + 1), string key, ": ", print (depth + 1) value,
      printMembers depth members, newline depth, ['}']]

/-- The further items of a list. -/
def printItems (depth : Nat) : List JsonValue → Text
  | [] => []
  | item :: items =>
    Text.concat [[','], newline (depth + 1), print (depth + 1) item, printItems depth items]

/-- The further members of an object. -/
def printMembers (depth : Nat) : List (Text × JsonValue) → Text
  | [] => []
  | (key, value) :: members =>
    Text.concat [[','], newline (depth + 1), string key, ": ", print (depth + 1) value,
      printMembers depth members]

end

end JsonValue

/-- The facts about a region. -/
def Span.toJson (s : Span) : JsonValue :=
  .object [("start_line", .int s.startLine), ("start_column", .int s.startColumn),
    ("end_line", .int s.endLine), ("end_column", .int s.endColumn)]

/-- The facts about a field and its place. -/
def Placement.toJson (f : Field) (p : Placement) : JsonValue :=
  .object [("name", .text p.name), ("type", .text p.type), ("line", .int f.location.line),
    ("column", .int f.location.startColumn), ("size", .int p.size),
    ("alignment", .int p.alignment), ("offset", .int p.offset),
    ("padding_before", .int p.paddingBefore)]

/-- The facts about the best order. -/
def Optimality.toJson (o : Optimality) : JsonValue :=
  .object [("current_size", .int o.currentSize), ("optimal_size", .int o.optimalSize),
    ("is_optimizable", .bool o.isOptimizable), ("savings", .int o.savings),
    ("optimal_field_order", .list (o.order.map .text))]

/-- The facts about a struct. -/
def Analysis.toJson (a : Analysis) : JsonValue :=
  .object [("name", .text a.name), ("span", a.declaration.span.toJson),
    ("terminated", .bool a.declaration.terminated), ("total_size", .int a.layout.totalSize),
    ("alignment", .int a.layout.alignment), ("total_padding", .int a.layout.totalPadding),
    ("fields", .list ((a.declaration.fields.zip a.layout.fields).map fun (f, p) =>
      Placement.toJson f p)),
    ("optimality", a.optimality.toJson)]

end GoLayout
