import GoLayout.Text.Blank

/-! # Text

    A text is a list of characters, so that every length and column counts code points.
    `splitOn` and `joinWith` undo each other (`joinWith_splitOn`), and `cutAt?` finds the
    first occurrence of a character (`cutAt?_eq_some`). -/

namespace GoLayout

/-- A sequence of characters; columns are positions in it. -/
abbrev Text := List Char

instance : Coe String Text := ⟨String.toList⟩

namespace Text

/-- The text as a string. -/
def toStr (t : Text) : String := String.ofList t

/-- The text without the blanks at its start. -/
def trimLeft (t : Text) : Text := t.dropWhile isBlank

/-- The text without the blanks at its end. -/
def trimRight (t : Text) : Text := (t.reverse.dropWhile isBlank).reverse

/-- The text without the blanks at its two ends. -/
def trim (t : Text) : Text := trimRight (trimLeft t)

/-- Is there nothing but blanks in the text? -/
def isBlankText (t : Text) : Bool := t.all isBlank

/-- The text without the repetitions of one character at its end. -/
def dropTrailing (c : Char) (t : Text) : Text := (t.reverse.dropWhile (· == c)).reverse

/-- Puts a character in front of the first part. -/
def glue (c : Char) : List Text → List Text
  | [] => [[c]]
  | part :: parts => (c :: part) :: parts

/-- The parts of a text between the occurrences of a separator; there is always one. -/
def splitOn (sep : Char) (t : Text) : List Text :=
  t.foldr (fun c parts => if c = sep then [] :: parts else glue c parts) [[]]

/-- The parts in order with a separator between neighbours. -/
def joinWith (sep : Text) : List Text → Text
  | [] => []
  | [part] => part
  | part :: parts => part ++ sep ++ joinWith sep parts

/-- The parts in order, one after the other. -/
def concat (parts : List Text) : Text := parts.flatten

/-- The text before and after the first occurrence of a character. -/
def cutAt? (c : Char) : Text → Option (Text × Text)
  | [] => none
  | d :: t =>
    if d = c then some ([], t)
    else (cutAt? c t).map fun (before, after) => (d :: before, after)

/-- What follows a given start, if the text has that start. -/
def after? : Text → Text → Option Text
  | [], t => some t
  | _ :: _, [] => none
  | c :: p, d :: t => if c = d then after? p t else none

/-- Pads with blanks on the right up to a width. -/
def padRight (width : Nat) (t : Text) : Text := t ++ List.replicate (width - t.length) ' '

/-- Fills up on the left to a width. -/
def padLeft (width : Nat) (fill : Char) (t : Text) : Text :=
  List.replicate (width - t.length) fill ++ t

/-- The position of the first place where a text starts inside another. -/
def find? (p : Text) : Text → Option Nat
  | [] => if p = [] then some 0 else none
  | c :: t => if (after? p (c :: t)).isSome then some 0 else (find? p t).map (· + 1)

theorem trimLeft_length_le (t : Text) : t.trimLeft.length ≤ t.length :=
  (List.dropWhile_suffix _).length_le

theorem trimRight_length_le (t : Text) : t.trimRight.length ≤ t.length := by
  have h := trimLeft_length_le t.reverse
  simpa only [trimRight, trimLeft, List.length_reverse] using h

theorem trim_length_le (t : Text) : t.trim.length ≤ t.length :=
  Nat.le_trans (trimRight_length_le _) (trimLeft_length_le t)

@[simp] theorem splitOn_nil (sep : Char) : splitOn sep [] = [[]] := rfl

theorem splitOn_cons (sep c : Char) (t : Text) :
    splitOn sep (c :: t) =
      if c = sep then [] :: splitOn sep t else glue c (splitOn sep t) := rfl

theorem splitOn_ne_nil (sep : Char) (t : Text) : splitOn sep t ≠ [] := by
  induction t with
  | nil => simp
  | cons c t ih =>
    rw [splitOn_cons]
    split
    · simp
    · cases h : splitOn sep t with
      | nil => exact absurd h ih
      | cons part parts => simp [glue]

theorem joinWith_glue (sep : Text) (c : Char) {parts : List Text} (h : parts ≠ []) :
    joinWith sep (glue c parts) = c :: joinWith sep parts := by
  cases parts with
  | nil => exact absurd rfl h
  | cons part parts => cases parts <;> simp [glue, joinWith]

/-- Joining the parts with the separator gives the text back. -/
theorem joinWith_splitOn (sep : Char) (t : Text) : joinWith [sep] (splitOn sep t) = t := by
  induction t with
  | nil => rfl
  | cons c t ih =>
    rw [splitOn_cons]
    split
    · next h =>
      subst h
      cases hs : splitOn c t with
      | nil => exact absurd hs (splitOn_ne_nil c t)
      | cons part parts => simpa [joinWith, hs] using ih
    · rw [joinWith_glue _ _ (splitOn_ne_nil sep t), ih]

/-- The cut is at the first occurrence, and nothing is lost but that character. -/
theorem cutAt?_eq_some {c : Char} {t before after : Text} :
    cutAt? c t = some (before, after) ↔ t = before ++ c :: after ∧ c ∉ before := by
  induction t generalizing before with
  | nil => simp [cutAt?]
  | cons d t ih =>
    rw [cutAt?]
    split
    · next h =>
      -- the text is cut at once, so that nothing can stand before the cut
      subst h
      constructor
      · intro hcut
        obtain ⟨rfl, rfl⟩ := Prod.mk.inj (Option.some.inj hcut)
        exact ⟨rfl, List.not_mem_nil⟩
      · rintro ⟨hsplit, hnot⟩
        cases before with
        | nil =>
          obtain ⟨-, rfl⟩ := List.cons.inj hsplit
          rfl
        | cons e before =>
          obtain ⟨rfl, -⟩ := List.cons.inj hsplit
          exact absurd List.mem_cons_self hnot
    · next h =>
      constructor
      · intro hcut
        obtain ⟨⟨b, a⟩, hrest, hpair⟩ := Option.map_eq_some_iff.1 hcut
        obtain ⟨rfl, rfl⟩ := Prod.mk.inj hpair
        obtain ⟨rfl, hnot⟩ := ih.1 hrest
        exact ⟨rfl, List.not_mem_cons_of_ne_of_not_mem (Ne.symm h) hnot⟩
      · rintro ⟨hsplit, hnot⟩
        cases before with
        | nil => exact absurd (List.cons.inj hsplit).1 h
        | cons e before =>
          obtain ⟨rfl, hrest⟩ := List.cons.inj hsplit
          rw [ih.2 ⟨hrest, fun hmem => hnot (List.mem_cons_of_mem _ hmem)⟩]
          rfl

theorem after?_eq_some {p t rest : Text} : after? p t = some rest ↔ t = p ++ rest := by
  induction p generalizing t with
  | nil => simp [after?]
  | cons c p ih =>
    cases t with
    | nil => simp [after?]
    | cons d t =>
      rw [after?]
      split
      · next h => subst h; simp [ih]
      · next h => simp; intro hd; exact absurd hd.symm h

end Text

end GoLayout
