import GoLayout.Proofs.Source.Plain
import GoLayout.Source.Header

/-! # Headers as they are printed

    A header is found on the line that prints it: `type N struct {` anywhere
    (`find?_typeLine`), and `N struct {` behind blanks inside a type group
    (`find?_groupLine`), whatever identifier `N` is. -/

namespace GoLayout

namespace Identifier

/-- An identifier is read up to where the word ends. -/
theorem leading?_of_isIdentifier {name rest : Text} (h : isIdentifier name = true)
    (hrest : rest.head?.any isWord = false) : leading? (name ++ rest) = some (name, rest) := by
  cases name with
  | nil => exact nomatch h
  | cons c t =>
      rw [isIdentifier, Bool.and_eq_true, List.all_eq_true] at h
      have htake : (t ++ rest).takeWhile isWord = t ∧ (t ++ rest).dropWhile isWord = rest := by
        rw [List.takeWhile_append_of_pos h.2, List.dropWhile_append_of_pos h.2]
        cases rest with
        | nil => exact ⟨List.append_nil t, rfl⟩
        | cons d rest =>
            have hd : ¬ isWord d = true := by
              intro hword
              have hany : isWord d = false := hrest
              rw [hword] at hany
              exact nomatch hany
            rw [List.takeWhile_cons_of_neg hd, List.dropWhile_cons_of_neg hd]
            exact ⟨List.append_nil t, rfl⟩
      rw [List.cons_append, leading?, if_pos h.1, htake.1, htake.2]

theorem exists_cons {name : Text} (h : isIdentifier name = true) :
    ∃ c t, name = c :: t ∧ isIdentStart c = true ∧ ∀ d ∈ t, isWord d = true := by
  cases name with
  | nil => exact nomatch h
  | cons c t =>
      rw [isIdentifier, Bool.and_eq_true, List.all_eq_true] at h
      exact ⟨c, t, rfl, h.1, h.2⟩

theorem isWord_of_isIdentStart {c : Char} (h : isIdentStart c = true) : isWord c = true := by
  rw [isIdentStart, Bool.and_eq_true] at h
  exact h.1

/-- An identifier is made of letters. -/
theorem isWord_of_mem {name : Text} (h : isIdentifier name = true) :
    ∀ c ∈ name, isWord c = true := by
  obtain ⟨c, t, rfl, hc, ht⟩ := exists_cons h
  intro d hd
  rcases List.mem_cons.mp hd with rfl | hmem
  · exact isWord_of_isIdentStart hc
  · exact ht d hmem

theorem notMem_of_not_isWord {name : Text} (h : isIdentifier name = true) {c : Char}
    (hc : isWord c = false) : c ∉ name := by
  intro hmem
  rw [isWord_of_mem h c hmem] at hc
  exact nomatch hc

theorem plain {name : Text} (h : isIdentifier name = true) : Plain name :=
  fun c hc => isPlain_of_isWord (isWord_of_mem h c hc)

theorem not_isBlank_of_isWord {c : Char} (h : isWord c = true) : isBlank c = false := by
  cases hb : isBlank c with
  | false => rfl
  | true => rw [not_isWord_of_isBlank hb] at h; exact nomatch h

/-- No blank stands in an identifier. -/
theorem solid {name : Text} (h : isIdentifier name = true) : Text.Solid name := by
  have hword := isWord_of_mem h
  constructor
  · obtain ⟨c, t, rfl, hc, -⟩ := exists_cons h
    exact ⟨c, t, rfl, not_isBlank_of_isWord (isWord_of_isIdentStart hc)⟩
  · have hne : name ≠ [] := by rintro rfl; exact nomatch h
    exact ⟨name.dropLast, name.getLast hne, (List.dropLast_append_getLast hne).symm,
      not_isBlank_of_isWord (hword _ (List.getLast_mem hne))⟩

end Identifier

namespace Header

/-- What stands behind the name in a printed header. -/
def structTail : Text := [' ', 's', 't', 'r', 'u', 'c', 't', ' ', '{']

/-- A header outside of groups. -/
def typeLine (name : Text) : Text := ['t', 'y', 'p', 'e', ' '] ++ name ++ structTail

/-- A header inside a group. -/
def groupLine (margin name : Text) : Text := margin ++ name ++ structTail

/-- The header that both print. -/
def printed (name : Text) : Header := ⟨name ++ structTail, name, [' ', '{']⟩

theorem structTail_plain : Plain structTail := by decide

/-- No carriage return stands at the end of a header. -/
theorem dropTrailing_structTail (t : Text) :
    Text.dropTrailing '\r' (t ++ structTail) = t ++ structTail := by
  have hlast : t ++ structTail =
      (t ++ [' ', 's', 't', 'r', 'u', 'c', 't', ' ']) ++ ['{'] := by
    rw [List.append_assoc]
    rfl
  rw [hlast]
  exact Text.dropTrailing_concat (by decide) _

/-- A header is on one line if what stands in front of the name is. -/
theorem notMem_header {before name : Text} (hbefore : '\n' ∉ before)
    (h : Identifier.isIdentifier name = true) : '\n' ∉ before ++ name ++ structTail := by
  have hname : '\n' ∉ name := Identifier.notMem_of_not_isWord h (by decide)
  have htail : '\n' ∉ structTail := by decide
  simp [hbefore, hname, htail]

theorem typeLine_plain {name : Text} (h : Identifier.isIdentifier name = true) :
    Plain (typeLine name) :=
  (Plain.append (by decide) (Identifier.plain h)).append structTail_plain

theorem groupLine_plain {margin name : Text} (hm : Text.AllBlank margin)
    (h : Identifier.isIdentifier name = true) : Plain (groupLine margin name) :=
  ((Plain.of_allBlank hm).append (Identifier.plain h)).append structTail_plain

/-- At its name a printed header is found. -/
theorem atName?_printed {name : Text} (h : Identifier.isIdentifier name = true) :
    atName? (name ++ structTail) = some (printed name) := by
  rw [atName?, Identifier.leading?_of_isIdentifier h (by decide)]
  rfl

theorem find?_typeLine {name : Text} (inGroup : Bool)
    (h : Identifier.isIdentifier name = true) :
    find? inGroup (typeLine name) = some (printed name) := by
  have hkeyword : atKeyword? (typeLine name) = some (printed name) := by
    show atName? (Text.trimLeft (name ++ structTail)) = _
    rw [(Identifier.solid h).trimLeft, atName?_printed h]
  have hsearch : search? none (typeLine name) = some (printed name) := by
    show (atKeyword? (typeLine name) <|> _) = _
    rw [hkeyword]
    rfl
  rw [find?, hsearch]
  rfl

/-! ## Inside a group -/

theorem search?_cons (previous : Option Char) (c : Char) (t : Text) :
    search? previous (c :: t) =
      ((if previous.any isWord then none else atKeyword? (c :: t)) <|> search? (some c) t) := rfl

/-- Where no header starts, the search goes on behind the character. -/
theorem search?_skip {previous : Option Char} {c : Char} {t : Text}
    (h : previous.any isWord = true ∨ atKeyword? (c :: t) = none) :
    search? previous (c :: t) = search? (some c) t := by
  rw [search?_cons]
  rcases h with hword | hnone
  · rw [if_pos hword]
    rfl
  · rw [hnone, ite_self]
    rfl

theorem atKeyword?_of_ne {c : Char} (h : c ≠ 't') (t : Text) : atKeyword? (c :: t) = none := by
  have hafter : Text.after? "type" (c :: t) = none := if_neg (Ne.symm h)
  rw [atKeyword?, hafter]

/-- No header starts among blanks. -/
theorem search?_margin {margin : Text} (h : Text.AllBlank margin) (rest : Text) :
    ∀ previous, ∃ behind, search? previous (margin ++ rest) = search? behind rest := by
  induction margin with
  | nil => intro previous; exact ⟨previous, rfl⟩
  | cons c margin ih =>
      intro previous
      have hc := h c List.mem_cons_self
      have ht : c ≠ 't' := by rintro rfl; exact absurd hc (by decide)
      -- a blank is no letter of the keyword, so that the search goes on behind it
      obtain ⟨behind, hsearch⟩ := ih (fun d hd => h d (List.mem_cons_of_mem _ hd)) (some c)
      refine ⟨behind, ?_⟩
      rw [List.cons_append, search?_skip (Or.inr (atKeyword?_of_ne ht _)), hsearch]

/-- No header starts behind a word character. -/
theorem search?_word {t : Text} (h : ∀ c ∈ t, isWord c = true) (rest : Text) :
    ∀ previous, isWord previous = true →
      ∃ behind, search? (some previous) (t ++ rest) = search? (some behind) rest := by
  induction t with
  | nil => intro previous _; exact ⟨previous, rfl⟩
  | cons c t ih =>
      intro previous hp
      obtain ⟨behind, hsearch⟩ := ih (fun d hd => h d (List.mem_cons_of_mem _ hd)) c
        (h c List.mem_cons_self)
      refine ⟨behind, ?_⟩
      have hany : (some previous).any isWord = true := hp
      rw [List.cons_append, search?_skip (Or.inl hany), hsearch]

/-- What stands behind the name of a header holds no other one. -/
theorem search?_structTail (previous : Option Char) : search? previous structTail = none := by
  have hhead : atKeyword? structTail = none := by decide
  have htail : search? (some ' ') structTail.tail = none := by decide
  exact (search?_skip (Or.inr hhead)).trans htail

/-- Only the identifier `type` in front of a blank is a keyword. -/
theorem atKeyword?_of_isIdentifier {name rest : Text} (h : Identifier.isIdentifier name = true)
    (hrest : rest.head?.any isWord = false)
    (hname : name = ['t', 'y', 'p', 'e'] → atKeyword? (name ++ rest) = none) :
    atKeyword? (name ++ rest) = none := by
  cases hafter : Text.after? "type" (name ++ rest) with
  | none => rw [atKeyword?, hafter]
  | some behind =>
      cases behind with
      | nil => rw [atKeyword?, hafter]
      | cons c behind =>
          cases hc : isBlank c with
          | false => rw [atKeyword?, hafter]; show (if isBlank c then _ else _) = _; rw [hc]; rfl
          | true =>
              -- the keyword and a blank are read, and so the identifier is the keyword itself
              have hsplit : name ++ rest = ['t', 'y', 'p', 'e'] ++ (c :: behind) :=
                Text.after?_eq_some.mp hafter
              have hword : (c :: behind).head?.any isWord = false :=
                Identifier.not_isWord_of_isBlank hc
              have hleading := Identifier.leading?_of_isIdentifier h hrest
              rw [hsplit, Identifier.leading?_of_isIdentifier (by decide) hword] at hleading
              exact hname (congrArg Prod.fst (Option.some.inj hleading)).symm

/-- A name in front of `struct` is no keyword with a header behind it: the only candidate is
    the name `type`, and then the header has no name. -/
theorem atKeyword?_structTail {name : Text} (h : Identifier.isIdentifier name = true) :
    atKeyword? (name ++ structTail) = none := by
  refine atKeyword?_of_isIdentifier h (by decide) ?_
  rintro rfl
  decide

/-- Behind an identifier that no other one follows, no header starts. -/
theorem atKeyword?_of_alone {name rest : Text} (h : Identifier.isIdentifier name = true)
    (hrest : rest.head?.any isWord = false)
    (halone : ∀ c u, rest = c :: u → isBlank c = true →
      Identifier.leading? (Text.trimLeft u) = none) :
    atKeyword? (name ++ rest) = none := by
  refine atKeyword?_of_isIdentifier h hrest ?_
  rintro rfl
  cases rest with
  | nil => rfl
  | cons c u =>
      show (if isBlank c then atName? (Text.trimLeft u) else none) = none
      -- only a blank behind the keyword lets a name follow
      cases hc : isBlank c with
      | false => rfl
      | true =>
          rw [if_pos rfl, atName?, halone c u rfl hc]
          rfl

/-- Behind an identifier without a blank behind it, no header starts. -/
theorem atKeyword?_of_not_isBlank {name rest : Text} (h : Identifier.isIdentifier name = true)
    (hrest : rest.head?.any isWord = false) (hblank : rest.head?.any isBlank = false) :
    atKeyword? (name ++ rest) = none := by
  refine atKeyword?_of_alone h hrest fun c u hcons hc => ?_
  rw [hcons] at hblank
  exact absurd hc (Bool.eq_false_iff.mp hblank)

/-- In a group a line with a name is a header. -/
theorem find?_groupLine {margin name : Text} (hm : Text.AllBlank margin)
    (h : Identifier.isIdentifier name = true) :
    find? true (groupLine margin name) = some (printed name) := by
  have hsearch : search? none (groupLine margin name) = none := by
    rw [groupLine, List.append_assoc]
    -- the keyword stands nowhere: not among the blanks, not in the name, not in the tail
    obtain ⟨behind, hmargin⟩ := search?_margin hm (name ++ structTail) none
    obtain ⟨c, t, rfl, hc, ht⟩ := Identifier.exists_cons h
    obtain ⟨last, hword⟩ := search?_word ht structTail c (Identifier.isWord_of_isIdentStart hc)
    have hkeyword : atKeyword? (c :: (t ++ structTail)) = none := atKeyword?_structTail h
    rw [hmargin, List.cons_append, search?_skip (Or.inr hkeyword), hword, search?_structTail]
  have hname : atName? (Text.trimLeft (groupLine margin name)) = some (printed name) := by
    rw [groupLine, List.append_assoc, Text.trimLeft_append hm, (Identifier.solid h).trimLeft,
      atName?_printed h]
  rw [find?, hsearch, if_pos rfl, hname]
  rfl

/-! ## Lines without a header -/

/-- Code without a word character at which `type` could start holds no header. -/
theorem search?_of_notMem {t : Text} (h : 't' ∉ t) :
    ∀ previous, search? previous t = none := by
  induction t with
  | nil => intro previous; rfl
  | cons c t ih =>
      intro previous
      obtain ⟨hc, ht⟩ := not_or.mp (mt List.mem_cons.mpr h)
      rw [search?_skip (Or.inr (atKeyword?_of_ne (Ne.symm hc) t)), ih ht]

theorem find?_of_allBlank {t : Text} (inGroup : Bool) (h : Text.AllBlank t) :
    find? inGroup t = none := by
  have ht : 't' ∉ t := fun hmem => absurd (h _ hmem) (by decide)
  rw [find?, search?_of_notMem ht, Text.trimLeft_of_allBlank h]
  cases inGroup with
  | false => rfl
  | true => rfl

theorem opensGroup_of_allBlank {t : Text} (h : Text.AllBlank t) : opensGroup t = false := by
  rw [opensGroup, Text.trimLeft_of_allBlank h]
  rfl

end Header

end GoLayout
