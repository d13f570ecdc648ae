import GoLayout.FieldLine.Tag
import GoLayout.Log.Record
import GoLayout.Text.Identifier
import GoLayout.Text.Quoted

/-! # Field lines

    A field is written in one of three shapes: a name and a type, several names divided by
    commas and a type, or an embedded type, which is named after its base type. Of several
    ways to read a list of names the one with the most names counts. A type fills one line. -/

namespace GoLayout

/-- How a field is written. -/
inductive FieldShape where
  | named
  | multiName
  | embedded
  deriving Repr, DecidableEq

/-- What a field line declares. -/
structure FieldLine where
  names : List Text
  type : Text
  shape : FieldShape
  deriving Repr, DecidableEq

namespace FieldLine

/-- The type after a name: behind at least one blank, not empty, and on one line. -/
def typeAfter? : Text → Option Text
  | [] => none
  | c :: t =>
    let type := Text.trimLeft t
    if isBlank c && !type.isEmpty && !type.contains '\n' then some type else none

/-- The name and the type of a line with one name. -/
def named? (line : Text) : Option FieldLine := do
  let (name, rest) ← Identifier.leading? line
  let type ← typeAfter? rest
  if type.head? = some ',' then none else return ⟨[name], type.trim, .named⟩

/-- The names at the start of a line that commas divide, each with what follows it. -/
def nameChain (line : Text) : List (Text × Text) :=
  match _h : Identifier.leading? line with
  | none => []
  | some (name, rest) =>
    (name, rest) ::
      match _hr : Text.trimLeft rest with
      | ',' :: more => nameChain (Text.trimLeft more)
      | _ => []
termination_by line.length
decreasing_by
  have h1 := Identifier.leading?_length _h
  have h2 := Text.trimLeft_length_le rest
  have h3 := Text.trimLeft_length_le more
  rw [_hr] at h2
  simp only [List.length_cons] at h2
  omega

/-- The longest list of names that a type follows, and that type, given the names before. -/
def longest? (before : List Text) : List (Text × Text) → Option (List Text × Text)
  | [] => none
  | (name, rest) :: more =>
    match longest? (before ++ [name]) more with
    | some found => some found
    | none => (typeAfter? rest).map fun type => (before ++ [name], type)

/-- The names and the type of a line with several names. -/
def multiName? (line : Text) : Option FieldLine :=
  match nameChain line with
  | [] => none
  | (name, _) :: more =>
    (longest? [name] more).map fun (names, type) => ⟨names, type.trim, .multiName⟩

/-- Is there nothing after a name, or type arguments in brackets up to the end of one line? -/
def isBaseEnd : Text → Bool
  | [] => true
  | '[' :: t => t.getLast? == some ']' && !t.contains '\n'
  | _ => false

/-- The base type of an embedded field: behind an optional star and an optional package. -/
def baseName? (line : Text) : Option Text := do
  let line := if line.head? = some '*' then line.tail else line
  let (first, rest) ← Identifier.leading? line
  match rest with
  | '.' :: t => do
    let (base, rest) ← Identifier.leading? t
    if isBaseEnd rest then return base else none
  | _ => if isBaseEnd rest then return first else none

/-- The name and type of an embedded field. -/
def embedded? (line : Text) : Option FieldLine :=
  (baseName? line).map fun base => ⟨[base], line, .embedded⟩

/-- What a line without tag and outer blanks declares. -/
def ofClean? (line : Text) : Option FieldLine :=
  named? line <|> multiName? line <|> embedded? line

/-- What a field line declares, its tag left aside. -/
def classify (text : Text) : Option FieldLine := ofClean? (Tag.strip text)

/-- What is reported of a line that declares nothing. -/
def records (text : Text) : List Log.Record :=
  if (Tag.strip text).isEmpty || (classify text).isSome then []
  else [.debug .fieldLines ["Unrecognized field line: ", (Tag.strip text).quoted]]

end FieldLine

end GoLayout
