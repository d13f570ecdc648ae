import GoLayout.Text.Basic

/-! # Statements of environment files

    An environment file is a list of statements: `NAME=value`, a name alone, or nothing but
    blanks and a comment. Values stand between quotes, in which some escapes are known, or
    reach to the end of the line or to a comment behind a blank. What cannot be read costs
    the rest of its line. Reading ends because every statement leaves less text
    (`Statement.read_length`). -/

namespace GoLayout.EnvFile

/-- A statement: nothing, a name with its value, if it has one, or unreadable text. -/
inductive Statement where
  | empty
  | assignment (name : Text) (value : Option Text)
  | unreadable
  deriving Repr, DecidableEq

/-- Is the character a blank that does not end a line? -/
def isInlineBlank (c : Char) : Bool := isBlank c && c != '\n'

/-- The text behind the blanks of the line. -/
def skipInline (t : Text) : Text := t.dropWhile isInlineBlank

/-- The text behind the line. -/
def skipLine (t : Text) : Text := (t.dropWhile (· != '\n')).drop 1

/-- What is read from the start of a text, if reading succeeds, and the text behind it, or
    where reading failed. -/
abbrev Reading (α : Type) := Option α × Text

/-- The text behind the word that marks a name for export, if it stands there. -/
def skipExport (t : Text) : Text :=
  match Text.after? "export" t with
  | some (c :: rest) => if isInlineBlank c then skipInline rest else t
  | _ => t

/-- Can the character be part of a name without quotes? -/
def isNameChar (c : Char) : Bool := c != '=' && c != '#' && !isBlank c

/-- Reads a name; between quotes it may hold anything, but not nothing. -/
def readName (t : Text) : Reading Text :=
  match t with
  | '\'' :: rest =>
    match Text.cutAt? '\'' rest with
    | some (c :: name, rest) => (some (c :: name), rest)
    | _ => (none, t)
  | _ =>
    if (t.takeWhile isNameChar).isEmpty then (none, t)
    else (some (t.takeWhile isNameChar), t.dropWhile isNameChar)

/-- The text up to the closing quote, and the text behind it. A backslash and the character
    behind it belong together, so that neither of them closes. -/
def readQuoted? (quote : Char) : Text → Option (Text × Text)
  | [] => none
  | '\\' :: c :: t => (readQuoted? quote t).map fun (value, rest) => ('\\' :: c :: value, rest)
  | c :: t =>
    if c = quote then some ([], t)
    else (readQuoted? quote t).map fun (value, rest) => (c :: value, rest)

/-- What stands for an escape between single quotes. -/
def singleEscape? (c : Char) : Option Char := if c = '\\' || c = '\'' then some c else none

/-- What stands for an escape between double quotes. -/
def doubleEscape? (c : Char) : Option Char :=
  [('\\', '\\'), ('\'', '\''), ('"', '"'), ('a', '\x07'), ('b', '\x08'), ('f', '\x0c'),
    ('n', '\n'), ('r', '\r'), ('t', '\t'), ('v', '\x0b')].lookup c

/-- The text with its escapes resolved; a backslash in front of anything else stays. -/
def unescape (escape? : Char → Option Char) : Text → Text
  | [] => []
  | '\\' :: c :: t =>
    match escape? c with
    | some d => d :: unescape escape? t
    | none => '\\' :: unescape escape? (c :: t)
  | c :: t => c :: unescape escape? t

/-- The text up to the first comment; a comment follows a blank, which may stand in front of
    the text. -/
def beforeComment (afterBlank : Bool) : Text → Text
  | [] => []
  | c :: t => if c = '#' && afterBlank then [] else c :: beforeComment (isBlank c) t

/-- The value on a line, without quotes. -/
def bareValue (afterBlank : Bool) (line : Text) : Text :=
  (beforeComment afterBlank line).trimRight

/-- Reads a value, given whether a blank stands in front of it. -/
def readValue (afterBlank : Bool) (t : Text) : Reading Text :=
  match t with
  | '\'' :: rest =>
    match readQuoted? '\'' rest with
    | some (value, rest) => (some (unescape singleEscape? value), rest)
    | none => (none, t)
  | '"' :: rest =>
    match readQuoted? '"' rest with
    | some (value, rest) => (some (unescape doubleEscape? value), rest)
    | none => (none, t)
  | _ => (some (bareValue afterBlank (t.takeWhile (· != '\n'))), t.dropWhile (· != '\n'))

/-- Reads the value behind a name, if an equals sign follows the name. -/
def readBinding (t : Text) : Reading (Option Text) :=
  match t with
  | '=' :: rest =>
    let value := readValue (rest.head?.any isInlineBlank) (skipInline rest)
    (value.1.map some, value.2)
  | _ => (some none, t)

/-- The text behind a comment, if there is one. -/
def skipComment (t : Text) : Text :=
  match skipInline t with
  | '#' :: rest => rest.dropWhile (· != '\n')
  | _ => t

/-- Reads the end of a line. -/
def readEnd (t : Text) : Reading Unit :=
  match skipInline t with
  | [] => (some (), [])
  | '\n' :: rest => (some (), rest)
  | _ => (none, t)

namespace Statement

/-- Reads an assignment. -/
def readAssignment (t : Text) : Reading Statement :=
  match readName t with
  | (none, rest) => (none, rest)
  | (some name, rest) =>
    match readBinding (skipInline rest) with
    | (none, rest) => (none, rest)
    | (some value, rest) =>
      match readEnd (skipComment rest) with
      | (none, rest) => (none, rest)
      | (some _, rest) => (some (.assignment name value), rest)

/-- Reads a statement from a text that does not start with a blank. -/
def readHere (t : Text) : Reading Statement :=
  match skipExport t with
  | '#' :: rest => (some .empty, skipLine rest)
  | start => readAssignment start

/-- Reads a statement and what is left of its last line. -/
def read (t : Text) : Statement × Text :=
  if (t.dropWhile isBlank).isEmpty then (.empty, [])
  else
    match readHere (t.dropWhile isBlank) with
    | (some s, rest) => (s, rest)
    | (none, rest) => (.unreadable, skipLine rest)

end Statement

/-! ## Every statement leaves less text -/

theorem dropWhile_length_le (p : Char → Bool) (t : Text) : (t.dropWhile p).length ≤ t.length :=
  (List.dropWhile_suffix p).length_le

theorem skipInline_length_le (t : Text) : (skipInline t).length ≤ t.length :=
  dropWhile_length_le _ t

theorem skipExport_length_le (t : Text) : (skipExport t).length ≤ t.length := by
  unfold skipExport
  split
  · next c rest h =>
    have ht := congrArg List.length (Text.after?_eq_some.1 h)
    have hs := skipInline_length_le rest
    simp only [List.length_append, List.length_cons] at ht
    split <;> omega
  · exact Nat.le_refl _

theorem cutAt?_length_lt {c : Char} {t before rest : Text}
    (h : Text.cutAt? c t = some (before, rest)) : rest.length < t.length := by
  have ht := congrArg List.length (Text.cutAt?_eq_some.1 h).1
  simp only [List.length_append, List.length_cons] at ht
  omega

theorem readName_length_le (t : Text) : (readName t).2.length ≤ t.length := by
  fun_cases readName t
  · next h => have := cutAt?_length_lt h; simp only [List.length_cons]; omega
  · exact Nat.le_refl _
  · next h _ => exact Nat.le_of_eq (by rw [if_pos h])
  · next h _ => rw [if_neg h]; exact dropWhile_length_le _ _

/-- A name takes some text. -/
theorem readName_length_lt {t name rest : Text} (h : readName t = (some name, rest)) :
    rest.length < t.length := by
  unfold readName at h
  split at h
  · next u =>
    split at h
    · next c more after hcut =>
      obtain ⟨-, rfl⟩ := Prod.mk.inj h
      exact Nat.lt_succ_of_lt (cutAt?_length_lt hcut)
    · exact nomatch (Prod.mk.inj h).1
  · split at h
    · exact nomatch (Prod.mk.inj h).1
    · next hne =>
      obtain ⟨-, rfl⟩ := Prod.mk.inj h
      have ht := congrArg List.length (List.takeWhile_append_dropWhile (p := isNameChar) (l := t))
      have hl : 0 < (t.takeWhile isNameChar).length :=
        List.length_pos_iff.2 fun hnil => hne (by rw [hnil]; rfl)
      rw [List.length_append] at ht
      omega

/-- What stands behind the closing quote is no longer than what the quoted text starts with. -/
theorem readQuoted?_length_le {quote : Char} {t value rest : Text}
    (h : readQuoted? quote t = some (value, rest)) : rest.length ≤ t.length := by
  fun_induction readQuoted? quote t generalizing value rest with
  | case1 => exact nomatch h
  | case2 c t ih =>
    obtain ⟨⟨v, r⟩, hr, hv⟩ := Option.map_eq_some_iff.1 h
    obtain ⟨-, rfl⟩ := Prod.mk.inj hv
    exact Nat.le_trans (ih hr) (Nat.le_add_right _ 2)
  | case3 t _ =>
    obtain ⟨-, rfl⟩ := Prod.mk.inj (Option.some.inj h)
    exact Nat.le_succ _
  | case4 c t _ _ ih =>
    obtain ⟨⟨v, r⟩, hr, hv⟩ := Option.map_eq_some_iff.1 h
    obtain ⟨-, rfl⟩ := Prod.mk.inj hv
    exact Nat.le_succ_of_le (ih hr)

theorem readValue_length_le (afterBlank : Bool) (t : Text) :
    (readValue afterBlank t).2.length ≤ t.length := by
  fun_cases readValue afterBlank t
  · next h => have := readQuoted?_length_le h; simp only [List.length_cons]; omega
  · exact Nat.le_refl _
  · next h => have := readQuoted?_length_le h; simp only [List.length_cons]; omega
  · exact Nat.le_refl _
  · exact dropWhile_length_le _ _

theorem readBinding_length_le (t : Text) : (readBinding t).2.length ≤ t.length := by
  fun_cases readBinding t
  · next rest value =>
    have h1 : value.2.length ≤ (skipInline rest).length := readValue_length_le _ _
    have h2 := skipInline_length_le rest
    simp only [List.length_cons]
    omega
  · exact Nat.le_refl _

theorem skipComment_length_le (t : Text) : (skipComment t).length ≤ t.length := by
  fun_cases skipComment t
  · next u h =>
    have h1 := congrArg List.length h
    have h2 := skipInline_length_le t
    have h3 := dropWhile_length_le (· != '\n') u
    simp only [List.length_cons] at h1
    omega
  · exact Nat.le_refl _

theorem readEnd_length_le (t : Text) : (readEnd t).2.length ≤ t.length := by
  have hs := skipInline_length_le t
  fun_cases readEnd t
  · exact Nat.zero_le _
  · next rest h =>
    have := congrArg List.length h
    show rest.length ≤ t.length
    simp only [List.length_cons] at this
    omega
  · exact Nat.le_refl _

/-- Reading an assignment leaves no more text, and less if it succeeds: then there is a name. -/
theorem Statement.readAssignment_length (t : Text) :
    (readAssignment t).2.length ≤ t.length ∧
      ((readAssignment t).1.isSome → (readAssignment t).2.length < t.length) := by
  have hname := readName_length_le t
  fun_cases readAssignment t with
  | case1 rest hread =>
    rw [hread] at hname
    exact ⟨hname, fun h => nomatch h⟩
  | case2 name behind hread rest hbinding =>
    have hvalue := readBinding_length_le (skipInline behind)
    have hskip := skipInline_length_le behind
    rw [hbinding] at hvalue
    rw [hread] at hname
    exact ⟨Nat.le_trans hvalue (Nat.le_trans hskip hname), fun h => nomatch h⟩
  | case3 name behind hread value left hbinding rest hend =>
    have hvalue := readBinding_length_le (skipInline behind)
    have hskip := skipInline_length_le behind
    have hcomment := skipComment_length_le left
    have hline := readEnd_length_le (skipComment left)
    rw [hbinding] at hvalue
    rw [hend] at hline
    rw [hread] at hname
    dsimp only at hvalue hline hname ⊢
    exact ⟨by omega, fun h => nomatch h⟩
  | case4 name behind hread value left hbinding u rest hend =>
    have htaken := readName_length_lt hread
    have hvalue := readBinding_length_le (skipInline behind)
    have hskip := skipInline_length_le behind
    have hcomment := skipComment_length_le left
    have hline := readEnd_length_le (skipComment left)
    rw [hbinding] at hvalue
    rw [hend] at hline
    dsimp only at hvalue hline ⊢
    exact ⟨by omega, fun _ => by omega⟩

theorem skipLine_length_le (t : Text) : (skipLine t).length ≤ t.length := by
  have h := dropWhile_length_le (· != '\n') t
  simp only [skipLine, List.length_drop]
  omega

theorem skipLine_length_lt {rest t : Text} (hr : rest.length ≤ t.length) (ht : t ≠ []) :
    (skipLine rest).length < t.length := by
  have h := dropWhile_length_le (· != '\n') rest
  have hp := List.length_pos_iff.2 ht
  simp only [skipLine, List.length_drop]
  omega

/-- Reading a statement leaves no more text, and less if it succeeds. -/
theorem Statement.readHere_length (t : Text) :
    (readHere t).2.length ≤ t.length ∧
      ((readHere t).1.isSome → (readHere t).2.length < t.length) := by
  have hexport := skipExport_length_le t
  fun_cases readHere t with
  | case1 rest hcomment =>
    have hline := skipLine_length_le rest
    rw [hcomment, List.length_cons] at hexport
    dsimp only
    exact ⟨by omega, fun _ => by omega⟩
  | case2 _ =>
    obtain ⟨hle, hlt⟩ := readAssignment_length (skipExport t)
    exact ⟨Nat.le_trans hle hexport, fun h => Nat.lt_of_lt_of_le (hlt h) hexport⟩

/-- A statement takes some text. -/
theorem Statement.read_length {t : Text} (ht : t ≠ []) : (read t).2.length < t.length := by
  have hblank := dropWhile_length_le isBlank t
  obtain ⟨hle, hlt⟩ := readHere_length (t.dropWhile isBlank)
  fun_cases read t with
  | case1 => exact List.length_pos_iff.2 ht
  | case2 _ s rest hread =>
    rw [hread] at hlt
    exact Nat.lt_of_lt_of_le (hlt rfl) hblank
  | case3 _ rest hread =>
    rw [hread] at hle
    exact skipLine_length_lt (Nat.le_trans hle hblank) ht

end GoLayout.EnvFile
