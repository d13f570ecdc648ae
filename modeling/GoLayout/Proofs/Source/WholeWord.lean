import GoLayout.Proofs.Source.Spelling
import GoLayout.Source.Comment

/-! # Whole words

    A name stands in a text as a whole word where no word character is next to it
    (`Text.IsWordAt`).  Comments become blanks or end the line, and every comment starts and ends
    with characters that belong to no word.  So the code of a line keeps the words of the line
    that it has (`Comment.strip_keepsWords`), and a whole word of the code is one of the line
    (`KeepsWords.isWordAt`). -/

namespace GoLayout

theorem Identifier.length_pos {name : Text} (h : isIdentifier name = true) : 0 < name.length := by
  obtain ⟨c, t, rfl, -⟩ := exists_cons h
  exact Nat.succ_pos t.length

namespace Text

/-- Does the text start with a word character? -/
def startsInWord (t : Text) : Bool := t.head?.any isWord

/-- Does the text end with a word character? -/
def endsInWord (t : Text) : Bool := t.getLast?.any isWord

/-- Is there a word character at the column? -/
def wordAt (t : Text) (column : Nat) : Bool := t[column]?.any isWord

/-- The name stands in the text at the column, and no word character is next to it. -/
def IsWordAt (t name : Text) (column : Nat) : Prop :=
  ∃ before behind, t = before ++ (name ++ behind) ∧ before.length = column ∧
    endsInWord before = false ∧ startsInWord behind = false

variable {a b : Text}

theorem startsInWord_append_of_ne_nil (h : a ≠ []) (b : Text) :
    startsInWord (a ++ b) = startsInWord a := by
  cases a with
  | nil => exact absurd rfl h
  | cons c a => rfl

theorem endsInWord_append_of_ne_nil (a : Text) (h : b ≠ []) :
    endsInWord (a ++ b) = endsInWord b := by
  rw [endsInWord, endsInWord, List.getLast?_append_of_ne_nil _ h]

/-- A text starts in no word if none of its parts does. -/
theorem startsInWord_append (ha : startsInWord a = false) (hb : startsInWord b = false) :
    startsInWord (a ++ b) = false := by
  cases a with
  | nil => exact hb
  | cons c a => exact ha

theorem endsInWord_append (ha : endsInWord a = false) (hb : endsInWord b = false) :
    endsInWord (a ++ b) = false := by
  cases b with
  | nil => rwa [List.append_nil]
  | cons c b => rwa [endsInWord_append_of_ne_nil _ (List.cons_ne_nil c b)]

theorem startsInWord_of_allBlank (h : AllBlank a) : startsInWord a = false := by
  cases a with
  | nil => rfl
  | cons c a => exact Identifier.not_isWord_of_isBlank (h c List.mem_cons_self)

theorem endsInWord_of_allBlank (h : AllBlank a) : endsInWord a = false := by
  cases hlast : a.getLast? with
  | none => rw [endsInWord, hlast]; rfl
  | some c =>
      rw [endsInWord, hlast]
      exact Identifier.not_isWord_of_isBlank (h c (List.mem_of_getLast? hlast))

theorem startsInWord_drop (t : Text) (column : Nat) :
    startsInWord (t.drop column) = wordAt t column := by
  rw [startsInWord, wordAt, List.head?_drop]

theorem endsInWord_take_succ {t : Text} {column : Nat} (h : column < t.length) :
    endsInWord (t.take (column + 1)) = wordAt t column := by
  rw [endsInWord, wordAt, List.take_add_one, List.getElem?_eq_getElem h, Option.toList_some,
    List.getLast?_concat]

theorem wordAt_last (c : Char) (t rest : Text) :
    wordAt ((c :: t) ++ rest) t.length = endsInWord (c :: t) := by
  rw [wordAt, endsInWord, List.getElem?_append_left (Nat.lt_succ_self _),
    List.getLast?_eq_getElem?, List.length_cons, Nat.add_sub_cancel]

theorem getElem?_between {name : Text} {j : Nat} (before behind : Text) (hj : j < name.length) :
    (before ++ (name ++ behind))[before.length + j]? = name[j]? := by
  rw [List.getElem?_append_right (Nat.le_add_right _ _), Nat.add_sub_cancel_left,
    List.getElem?_append_left hj]

namespace IsWordAt

variable {t name : Text} {column j : Nat}

theorem getElem? (h : IsWordAt t name column) (hj : j < name.length) :
    t[column + j]? = name[j]? := by
  obtain ⟨before, behind, rfl, rfl, -⟩ := h
  exact getElem?_between before behind hj

/-- Where an identifier stands there are word characters. -/
theorem wordAt (h : IsWordAt t name column) (hname : Identifier.isIdentifier name = true)
    (hj : j < name.length) : Text.wordAt t (column + j) = true := by
  rw [Text.wordAt, h.getElem? hj, List.getElem?_eq_getElem hj]
  exact Identifier.isWord_of_mem hname _ (List.getElem_mem hj)

/-- No letter stands in front of a whole word. -/
theorem wordAt_previous (h : IsWordAt t name (column + 1)) : Text.wordAt t column = false := by
  obtain ⟨before, behind, rfl, hlength, hbefore, -⟩ := h
  cases before with
  | nil => exact absurd hlength (Nat.succ_ne_zero column).symm
  | cons c before =>
      obtain rfl : before.length = column := Nat.succ.inj hlength
      rw [wordAt_last, hbefore]

theorem wordAt_next (h : IsWordAt t name column) :
    Text.wordAt t (column + name.length) = false := by
  obtain ⟨before, behind, rfl, rfl, -, hbehind⟩ := h
  rw [← startsInWord_drop, ← List.length_append, ← List.append_assoc, List.drop_left, hbehind]

/-- Right behind a whole word there is no other one. -/
theorem not_adjacent {next : Text} (h : IsWordAt t name column)
    (hnext : Identifier.isIdentifier next = true) : ¬ IsWordAt t next (column + name.length) := by
  intro h'
  have hword := h'.wordAt hnext (Identifier.length_pos hnext)
  rw [Nat.add_zero, h.wordAt_next] at hword
  cases hword

end IsWordAt

/-- A word starts within its line. -/
theorem lt_length_of_getElem? {t name : Text} {column : Nat} (hpos : 0 < name.length)
    (hchars : ∀ j, j < name.length → t[column + j]? = name[j]?) : column < t.length := by
  have hfirst := hchars 0 hpos
  rw [List.getElem?_eq_getElem hpos] at hfirst
  exact (List.getElem?_eq_some_iff.mp hfirst).1

/-- A name stands in a text where its characters do. -/
theorem split_of_getElem? {t name : Text} {column : Nat}
    (hchars : ∀ j, j < name.length → t[column + j]? = name[j]?) :
    t = t.take column ++ (name ++ t.drop (column + name.length)) := by
  have hmid : (t.drop column).take name.length = name := by
    refine List.ext_getElem? fun j => ?_
    by_cases hj : j < name.length
    · rw [List.getElem?_take_of_lt hj, List.getElem?_drop, hchars j hj]
    · rw [List.getElem?_eq_none (by rw [List.length_take]; omega),
        List.getElem?_eq_none (by omega)]
  calc t
      = t.take column ++ ((t.drop column).take name.length ++ (t.drop column).drop name.length) := by
        rw [List.take_append_drop, List.take_append_drop]
    _ = t.take column ++ (name ++ t.drop (column + name.length)) := by rw [hmid, List.drop_drop]

/-- A name stands as a whole word where its characters do and no word character is next to
    them. -/
theorem isWordAt_of_getElem? {t name : Text} {column : Nat} (hpos : 0 < name.length)
    (hchars : ∀ j, j < name.length → t[column + j]? = name[j]?)
    (hprevious : ∀ p, p + 1 = column → wordAt t p = false)
    (hnext : wordAt t (column + name.length) = false) : IsWordAt t name column := by
  have hlen := lt_length_of_getElem? hpos hchars
  refine ⟨t.take column, t.drop (column + name.length), split_of_getElem? hchars,
    List.length_take_of_le hlen.le, ?_, ?_⟩
  · cases column with
    | zero => rfl
    | succ p =>
        rw [endsInWord_take_succ (Nat.lt_of_succ_lt hlen)]
        exact hprevious p rfl
  · rw [startsInWord_drop]
    exact hnext

end Text

/-! ## The words of a line and of its code -/

open Text

/-- Every word character of the code stands in the line, and no word of the code goes on in the
    line beyond its ends. -/
structure KeepsWords (raw code : Text) : Prop where
  kept : ∀ p, wordAt code p = true → raw[p]? = code[p]?
  next : ∀ p, wordAt code p = true → wordAt raw (p + 1) = true → wordAt code (p + 1) = true
  previous : ∀ p, wordAt code (p + 1) = true → wordAt raw p = true → wordAt code p = true

namespace KeepsWords

variable {raw code name : Text}

theorem nil (raw : Text) : KeepsWords raw [] := by
  have hnone : ∀ p, wordAt [] p = false := fun p => rfl
  refine ⟨fun p hp => ?_, fun p hp _ => ?_, fun p hp _ => ?_⟩
  all_goals
    rw [hnone] at hp
    exact nomatch hp

/-- A character in front of the line and of the code, if a word goes on behind it in both. -/
theorem cons (h : KeepsWords raw code) (c : Char)
    (hnext : isWord c = true → wordAt raw 0 = true → wordAt code 0 = true) :
    KeepsWords (c :: raw) (c :: code) := by
  -- only the first character is new, and only what stands behind it may matter to it
  refine ⟨fun p hp => ?_, fun p hp hline => ?_, fun p hp hline => ?_⟩
  · cases p with
    | zero => rfl
    | succ p => exact h.kept p hp
  · cases p with
    | zero => exact hnext hp hline
    | succ p => exact h.next p hp hline
  · cases p with
    | zero => exact hline
    | succ p => exact h.previous p hp hline

/-- A character in front of the line and a blank in front of the code, if no word of the code
    starts behind it. -/
theorem blank (h : KeepsWords raw code) (c : Char)
    (hcode : wordAt code 0 = true → isWord c = false) : KeepsWords (c :: raw) (' ' :: code) := by
  -- a blank is no letter, so that nothing is asked of it
  have hblank : wordAt (' ' :: code) 0 = false := show isWord ' ' = false by decide
  refine ⟨fun p hp => ?_, fun p hp hline => ?_, fun p hp hline => ?_⟩
  · cases p with
    | zero => rw [hblank] at hp; exact nomatch hp
    | succ p => exact h.kept p hp
  · cases p with
    | zero => rw [hblank] at hp; exact nomatch hp
    | succ p => exact h.next p hp hline
  · cases p with
    | zero =>
        have hc : isWord c = true := hline
        rw [hcode hp] at hc
        exact nomatch hc
    | succ p => exact h.previous p hp hline

/-- An identifier of the code stands in the line. -/
theorem exists_split {before behind : Text} (h : KeepsWords raw (before ++ (name ++ behind)))
    (hname : Identifier.isIdentifier name = true) :
    ∃ before' behind', raw = before' ++ (name ++ behind') ∧ before'.length = before.length := by
  have hchars : ∀ j, j < name.length → raw[before.length + j]? = name[j]? := by
    intro j hj
    have hcode := getElem?_between before behind hj
    have hword : wordAt (before ++ (name ++ behind)) (before.length + j) = true := by
      rw [wordAt, hcode, List.getElem?_eq_getElem hj]
      exact Identifier.isWord_of_mem hname _ (List.getElem_mem hj)
    rw [h.kept _ hword, hcode]
  have hlen := lt_length_of_getElem? (Identifier.length_pos hname) hchars
  exact ⟨_, _, split_of_getElem? hchars, List.length_take_of_le hlen.le⟩

/-- A whole word of the code is one of the line. -/
theorem isWordAt (h : KeepsWords raw code) {column : Nat}
    (hname : Identifier.isIdentifier name = true) (hword : IsWordAt code name column) :
    IsWordAt raw name column := by
  have hpos : 0 < name.length := Identifier.length_pos hname
  have hlast : column + (name.length - 1) + 1 = column + name.length := by omega
  refine isWordAt_of_getElem? hpos (fun j hj => ?_) ?_ ?_
  · exact (h.kept _ (hword.wordAt hname hj)).trans (hword.getElem? hj)
  · rintro p rfl
    refine eq_false_of_ne_true fun hraw => ?_
    have hcode := h.previous p (hword.wordAt hname hpos) hraw
    rw [hword.wordAt_previous] at hcode
    cases hcode
  · refine eq_false_of_ne_true fun hraw => ?_
    have hcode := h.next (column + (name.length - 1)) (hword.wordAt hname (by omega))
      (by rw [hlast]; exact hraw)
    rw [hlast, hword.wordAt_next] at hcode
    cases hcode

end KeepsWords

/-! ## Comments -/

namespace Comment

/-- Outside of block comments the first character of a line stays if a word starts with it. -/
theorem wordAt_stripFrom {mode : Mode} (hmode : mode ≠ .block) {line : Text}
    (h : wordAt line 0 = true) : wordAt (stripFrom mode line).1 0 = true := by
  have hslash : isWord '/' = false := by decide
  fun_cases stripFrom mode line with
  | case2 t => exact absurd h (by rw [wordAt]; exact ne_true_of_eq_false hslash)
  | case3 t => exact absurd h (by rw [wordAt]; exact ne_true_of_eq_false hslash)
  | case9 => exact absurd rfl hmode
  | case10 t => exact absurd rfl hmode
  | case11 c t => exact absurd rfl hmode
  | _ => exact h

/-- In a block comment no word of the code starts. -/
theorem wordAt_stripFrom_block {mode : Mode} (hmode : mode = .block) (line : Text) :
    wordAt (stripFrom mode line).1 0 = false := by
  have hblank : isWord ' ' = false := by decide
  fun_cases stripFrom mode line with
  | case9 => rfl
  | case10 t => exact hblank
  | case11 c t =>
      rw [blank]
      split
      · rfl
      · exact hblank
  | _ => cases hmode

theorem stripFrom_keepsWords (mode : Mode) (line : Text) :
    KeepsWords line (stripFrom mode line).1 := by
  have hslash : isWord '/' = false := by decide
  have hstar : isWord '*' = false := by decide
  fun_induction stripFrom mode line with
  | case1 => exact .nil _
  | case2 t => exact .nil _
  | case3 t ih => exact (ih.blank '*' fun _ => hstar).blank '/' fun _ => hslash
  | case4 c t _ _ ih =>
      refine ih.cons c fun _ h => wordAt_stripFrom ?_ h
      split <;> simp
  | case5 => exact .nil _
  | case6 q c => exact (KeepsWords.nil []).cons c fun _ h => absurd h Bool.false_ne_true
  | case7 q c d t _ ih =>
      have hliteral : Mode.literal q ≠ .block := by simp
      exact (ih.cons d fun _ h => wordAt_stripFrom hliteral h).cons c fun _ h => h
  | case8 q c d t _ ih =>
      refine ih.cons c fun _ h => wordAt_stripFrom ?_ h
      split <;> simp
  | case9 => exact .nil _
  | case10 t ih => exact (ih.blank '/' fun _ => hslash).blank '*' fun _ => hstar
  | case11 c t _ ih =>
      -- a comment that stays open leaves nothing, and one that ends leaves a blank here
      rw [blank]
      split
      · exact .nil _
      · refine ih.blank c fun h => ?_
        rw [wordAt_stripFrom_block rfl] at h
        cases h

/-- The code of a line keeps its words. -/
theorem strip_keepsWords (line : Text) (inBlock : Bool) :
    KeepsWords line (strip line inBlock).1 := stripFrom_keepsWords _ line

end Comment

end GoLayout
