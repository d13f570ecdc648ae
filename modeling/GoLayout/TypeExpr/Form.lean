import GoLayout.Log.Record
import GoLayout.Text.Quoted
import GoLayout.TypeExpr.ArrayLength
import GoLayout.TypeExpr.Footprint

/-! # The form of a type expression

    A type is sized by its outermost form alone: what it points to, maps or carries has no
    influence, and only an array looks at its element. `Form.read` finds the form of any
    text, well formed or not; `Form.footprint` sizes it. A text without a recognised form
    counts as one word. -/

namespace GoLayout

/-- What the size of a type depends on. -/
inductive Form where
  | sized (measure : Measure)
  | array (length : Nat) (element : Form)
  | badLength (expr : Text)
  | unresolved (expr : Text)
  deriving Repr, DecidableEq

namespace Form

/-- The text between an opening parenthesis at its start and a closing one at its end. -/
def unparen? : Text → Option Text
  | '(' :: t => if t.getLast? = some ')' then some t.dropLast else none
  | _ => none

theorem unparen?_length {t inner : Text} (h : unparen? t = some inner) :
    inner.length < t.length := by
  unfold unparen? at h
  split at h
  · split at h
    · obtain rfl := Option.some.inj h
      simp only [List.length_dropLast, List.length_cons]
      omega
    · contradiction
  · contradiction

/-- The text without outer blanks and outer parentheses. -/
def peel (t : Text) : Text :=
  match _h : unparen? t.trim with
  | some inner => peel inner
  | none => t.trim
termination_by t.length
decreasing_by exact Nat.lt_of_lt_of_le (unparen?_length _h) (Text.trim_length_le t)

theorem peel_length_le (t : Text) : (peel t).length ≤ t.length := by
  induction h : t.length using Nat.strongRecOn generalizing t with
  | ind n ih =>
    subst h
    rw [peel]
    split
    · next inner hi =>
      have hlt := Nat.lt_of_lt_of_le (unparen?_length hi) (Text.trim_length_le t)
      exact Nat.le_trans (ih _ hlt inner rfl) (Nat.le_of_lt hlt)
    · exact Text.trim_length_le t

/-- Does the text start with a keyword, blanks and an opening bracket? -/
def opensWith (keyword : Text) (bracket : Char) (t : Text) : Bool :=
  match Text.after? keyword t with
  | some rest => (Text.trimLeft rest).head? == some bracket
  | none => false

/-- Does the text start with a whole word? -/
def startsWithWord (word t : Text) : Bool :=
  match Text.after? word t with
  | some rest => !(rest.head?.any isWord)
  | none => false

/-- Is the text a slice type: brackets with nothing between them at its start? -/
def isSlice : Text → Bool
  | '[' :: t => (Text.trimLeft t).head? == some ']'
  | _ => false

/-- Is the text a channel type, with or without a receive arrow? -/
def isChannel (t : Text) : Bool :=
  startsWithWord "chan" t ||
    match t with
    | '<' :: '-' :: rest => startsWithWord "chan" (Text.trimLeft rest)
    | _ => false

/-- Is the text a type whose values are a single pointer? -/
def isPointerLike (t : Text) : Bool :=
  t.head? == some '*' || opensWith "map" '[' t || isChannel t || opensWith "func" '(' t

/-- The length literal and the element of an array type. The element is not blank and fills
    one line. -/
def arrayParts? : Text → Option (Text × Text)
  | '[' :: t =>
    let inner := Text.trimLeft t
    let literal := inner.takeWhile fun c => c.isAlphanum || c == '_'
    match Text.trimLeft (inner.drop literal.length) with
    | ']' :: rest =>
      let element := Text.trimLeft rest
      if ArrayLength.isLiteral literal && !element.isEmpty && !element.contains '\n' then
        some (literal, element)
      else none
    | _ => none
  | _ => none

theorem arrayParts?_length {t literal element : Text}
    (h : arrayParts? t = some (literal, element)) : element.length < t.length := by
  unfold arrayParts? at h
  split at h
  · next t =>
    dsimp only at h
    split at h
    · next rest hr =>
      split at h
      · simp only [Option.some.injEq, Prod.mk.injEq] at h
        obtain ⟨-, rfl⟩ := h
        have h1 := Text.trimLeft_length_le rest
        have h2 := Text.trimLeft_length_le
          ((Text.trimLeft t).drop
            ((Text.trimLeft t).takeWhile fun c => c.isAlphanum || c == '_').length)
        have h3 := Text.trimLeft_length_le t
        rw [hr] at h2
        simp only [List.length_drop, List.length_cons] at h2 ⊢
        omega
      · contradiction
    · contradiction
  · contradiction

/-- The form of a text without outer blanks and parentheses that is no array. -/
def ofSimple (expr : Text) : Form :=
  if isSlice expr then .sized (.words 3)
  else if isPointerLike expr then .sized (.words 1)
  else if opensWith "interface" '{' expr then .sized (.words 2)
  else
    match Predeclared.measure? expr with
    | some measure => .sized measure
    | none => .unresolved expr

/-- The form of a text. -/
def read (t : Text) : Form :=
  match _h : arrayParts? (peel t) with
  | some (literal, element) =>
    match ArrayLength.value? literal with
    | some length => .array length (read element)
    | none => .badLength (peel t)
  | none => ofSimple (peel t)
termination_by t.length
decreasing_by exact Nat.lt_of_lt_of_le (arrayParts?_length _h) (peel_length_le t)

/-- The footprint of a form on a target. -/
def footprint (w : WordSize) : Form → Footprint
  | sized measure => measure.footprint w
  | array length element =>
    ⟨length * (element.footprint w).size, (element.footprint w).alignment⟩
  | badLength _ => (Measure.words 1).footprint w
  | unresolved _ => (Measure.words 1).footprint w

/-- The record of a text that counts as one word for want of a form. -/
def unresolvedRecord (w : WordSize) (expr : Text) : Log.Record :=
  .debug .sizing ["Unresolved type ", expr.quoted, ", assuming ", Decimal.ofNat w.bytes,
    "-byte word"]

/-- What is reported while a form is sized. -/
def records (w : WordSize) : Form → List Log.Record
  | sized _ => []
  | array _ element => element.records w
  | badLength expr =>
    [.debug .sizing ["Invalid array length in ", expr.quoted], unresolvedRecord w expr]
  | unresolved expr => [unresolvedRecord w expr]

end Form

/-- The footprint of a type expression on a target. -/
def footprintOf (w : WordSize) (t : Text) : Footprint := (Form.read t).footprint w

end GoLayout
