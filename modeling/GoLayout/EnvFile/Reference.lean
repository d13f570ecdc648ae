import GoLayout.Text.Basic

/-! # References in values

    The value of an environment file may refer to a variable as `${NAME}`, or as
    `${NAME:-DEFAULT}` with a text for the case that there is no such variable. -/

namespace GoLayout.EnvFile

/-- A reference to a variable, with the text that stands for a missing one. -/
structure Reference where
  name : Text
  default : Text
  deriving Repr, DecidableEq

namespace Reference

/-- Can the character be part of the name? -/
def isNameChar (c : Char) : Bool := c != '}' && c != ':'

/-- Reads what stands behind the opening brace of a reference, and the closing brace. -/
def read? (t : Text) : Option (Reference × Text) :=
  match t.dropWhile isNameChar with
  | '}' :: rest => some (⟨t.takeWhile isNameChar, []⟩, rest)
  | ':' :: '-' :: u =>
    match u.dropWhile (· != '}') with
    | _ :: rest => some (⟨t.takeWhile isNameChar, u.takeWhile (· != '}')⟩, rest)
    | [] => none
  | _ => none

/-- A reference takes the text that it is read from, its closing brace included. -/
theorem read?_length_lt {t rest : Text} {r : Reference} (h : read? t = some (r, rest)) :
    rest.length < t.length := by
  have hname := (List.dropWhile_suffix isNameChar (l := t)).length_le
  rw [read?] at h
  split at h
  · next after hclosed =>
    obtain ⟨-, rfl⟩ := Prod.mk.inj (Option.some.inj h)
    rw [hclosed] at hname
    exact hname
  · next u hdefault =>
    have htext := (List.dropWhile_suffix (· != '}') (l := u)).length_le
    rw [hdefault, List.length_cons, List.length_cons] at hname
    split at h
    · next c after hclosed =>
      obtain ⟨-, rfl⟩ := Prod.mk.inj (Option.some.inj h)
      rw [hclosed, List.length_cons] at htext
      omega
    · exact nomatch h
  · exact nomatch h

end Reference

/-- The text with every reference replaced; a reference that cannot be read stays. -/
def expand (value : Reference → Text) : Text → Text
  | [] => []
  | '$' :: '{' :: t =>
    match _h : Reference.read? t with
    | some (r, rest) => value r ++ expand value rest
    | none => '$' :: expand value ('{' :: t)
  | c :: t => c :: expand value t
termination_by t => t.length
decreasing_by
  · have := Reference.read?_length_lt _h
    simp only [List.length_cons]
    omega
  · simp
  · simp

/-- The references in a text. -/
def references : Text → List Reference
  | [] => []
  | '$' :: '{' :: t =>
    match _h : Reference.read? t with
    | some (r, rest) => r :: references rest
    | none => references ('{' :: t)
  | _ :: t => references t
termination_by t => t.length
decreasing_by
  · have := Reference.read?_length_lt _h
    simp only [List.length_cons]
    omega
  · simp
  · simp

end GoLayout.EnvFile
