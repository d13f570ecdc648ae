import Mathlib.Data.Option.Basic
import GoLayout.Proofs.Source.Header

/-! # Headers as they are found

    Whatever header is found in a line of code, the line spells it: an identifier, and behind it
    and a blank the word `struct` (`find?_spelled`).  Each reader of a header has a lemma that
    says what its success tells of the text. -/

namespace GoLayout

theorem Text.cutAt?_eq_none {c : Char} {t : Text} (h : Text.cutAt? c t = none) : c ∉ t := by
  induction t with
  | nil => exact List.not_mem_nil
  | cons d t ih =>
      rw [Text.cutAt?] at h
      split at h
      · cases h
      · next hne =>
        rintro (_ | ⟨_, hmem⟩)
        · exact hne rfl
        · exact ih (Option.map_eq_none_iff.mp h) hmem

theorem Text.cutAt?_of_notMem {c : Char} {t : Text} (h : c ∉ t) : cutAt? c t = none := by
  cases hcut : cutAt? c t with
  | none => rfl
  | some parts =>
      refine absurd ?_ h
      rw [(cutAt?_eq_some.mp hcut).1]
      exact List.mem_append_right _ List.mem_cons_self

namespace Identifier

/-- An identifier at the start of a text is a whole word. -/
theorem leading?_eq_some {t name rest : Text} (h : leading? t = some (name, rest)) :
    t = name ++ rest ∧ isIdentifier name = true ∧ rest.head?.any isWord = false := by
  refine ⟨leading?_append h, ?_⟩
  cases t with
  | nil => cases h
  | cons c t =>
      rw [leading?] at h
      split at h
      · next hc =>
        obtain ⟨rfl, rfl⟩ := Prod.mk.inj (Option.some.inj h)
        constructor
        · rw [isIdentifier, hc, Bool.true_and, List.all_eq_true]
          exact fun d hd => List.mem_takeWhile_imp hd
        · have hhead := List.head?_dropWhile_not isWord t
          cases hd : (t.dropWhile isWord).head? with
          | none => rfl
          | some d =>
              rw [hd] at hhead
              exact hhead
      · cases h

end Identifier

namespace Header

/-- The word that opens a declaration of types. -/
def typeWord : Text := ['t', 'y', 'p', 'e']

/-- The word that makes a declaration a struct. -/
def structWord : Text := ['s', 't', 'r', 'u', 'c', 't']

/-- The code has a struct header with the given name at the given column: an identifier, and
    behind it, whatever type parameters stand in between, a blank and the whole word
    `struct`. -/
def Spelled (code name : Text) (column : Nat) : Prop :=
  Identifier.isIdentifier name = true ∧ ∃ before between behind,
    code = before ++ name ++ between ++ structWord ++ behind ∧ before.length = column ∧
      between.head?.any isWord = false ∧ between.getLast?.any isBlank = true ∧
      behind.head?.any isWord = false

/-- What stands between the code in front of a header and the name in it: the word `type` and blanks,
    or, where a type group lets a name start the line, nothing but blanks. -/
inductive Lead (inGroup : Bool) : Text → Text → Prop where
  | keyword {before blanks : Text} : blanks ≠ [] → Text.AllBlank blanks →
      Lead inGroup before (typeWord ++ blanks)
  | grouped {blanks : Text} : inGroup = true → Text.AllBlank blanks → Lead inGroup [] blanks

/-- Between a name and what follows stands the keyword, with a blank in front of it. -/
theorem afterStruct?_eq_some {t behind : Text} (h : afterStruct? t = some behind) :
    ∃ between, t = between ++ structWord ++ behind ∧ between.head?.any isWord = false ∧
      between.getLast?.any isBlank = true ∧ behind.head?.any isWord = false := by
  cases t with
  | nil => exact nomatch h
  | cons c t =>
      rw [afterStruct?] at h
      split at h
      · next hc =>
        split at h
        · next rest hafter =>
          split at h
          · exact nomatch h
          · next hword =>
            obtain rfl := Option.some.inj h
            obtain ⟨margin, hmargin, ht⟩ := Text.exists_trimLeft t
            rw [Text.after?_eq_some.mp hafter] at ht
            refine ⟨c :: margin, ?_, Identifier.not_isWord_of_isBlank hc, ?_, ?_⟩
            · rw [ht, ← List.append_assoc]
              rfl
            · rw [List.getLast?_eq_some_getLast (List.cons_ne_nil c margin)]
              -- the first blank and the margin are all that stands in front of the keyword
              have hall : Text.AllBlank (c :: margin) := by
                intro d hd
                rcases List.mem_cons.mp hd with rfl | hmem
                · exact hc
                · exact hmargin d hmem
              exact hall _ (List.getLast_mem _)
            · exact eq_false_of_ne_true hword
        · exact nomatch h
      · exact nomatch h

/-- The brackets of type parameters end at a closing one with the keyword behind it. -/
theorem afterBrackets?_eq_some {t behind : Text} (h : afterBrackets? t = some behind) :
    ∃ before rest, t = before ++ ']' :: rest ∧ afterStruct? rest = some behind := by
  induction t with
  | nil => exact nomatch h
  | cons c t ih =>
      rw [afterBrackets?] at h
      -- the last closing bracket with the keyword behind it is taken
      split at h
      · next rest hrest =>
        obtain ⟨before, rest, rfl, hstruct⟩ := ih (hrest.trans h)
        exact ⟨c :: before, rest, rfl, hstruct⟩
      · split at h
        · next hc => exact ⟨[], t, by rw [hc]; rfl, h⟩
        · exact nomatch h

/-- Behind the name of a header stand type parameters at most, a blank and the keyword. -/
theorem afterName?_eq_some {t behind : Text} (h : afterName? t = some behind) :
    ∃ between, t = between ++ structWord ++ behind ∧
      (t.head?.any isWord = false → between.head?.any isWord = false) ∧
      between.getLast?.any isBlank = true ∧ behind.head?.any isWord = false := by
  rw [afterName?] at h
  split at h
  · next rest htrim =>
    obtain ⟨before, rest, rfl, hstruct⟩ := afterBrackets?_eq_some h
    obtain ⟨between, rfl, -, hblank, hbehind⟩ := afterStruct?_eq_some hstruct
    obtain ⟨margin, -, ht⟩ := Text.exists_trimLeft t
    rw [htrim] at ht
    -- a blank stands in front of the keyword, so that the brackets are not the last thing there
    have hne : between ≠ [] := by
      rintro rfl
      exact nomatch hblank
    refine ⟨(margin ++ '[' :: (before ++ [']'])) ++ between, ?_, ?_, ?_, hbehind⟩
    · rw [ht]
      simp only [List.append_assoc, List.cons_append, List.nil_append]
    · intro hhead
      rw [ht] at hhead
      cases margin with
      | nil => exact show isWord '[' = false by decide
      | cons c margin => exact hhead
    · rw [List.getLast?_append_of_ne_nil _ hne]
      exact hblank
  · obtain ⟨between, ht, hhead, hblank, hbehind⟩ := afterStruct?_eq_some h
    exact ⟨between, ht, fun _ => hhead, hblank, hbehind⟩

/-- A header that is read from its name is spelled there. -/
theorem atName?_eq_some {t : Text} {h : Header} (hname : atName? t = some h) :
    h.fromName = t ∧ ∀ before, Spelled (before ++ t) h.name before.length := by
  rw [atName?] at hname
  obtain ⟨⟨name, rest⟩, hleading, hname⟩ := Option.bind_eq_some_iff.mp hname
  obtain ⟨behind, hafter, hname⟩ := Option.bind_eq_some_iff.mp hname
  obtain rfl := Option.some.inj hname
  obtain ⟨ht, hidentifier, hrest⟩ := Identifier.leading?_eq_some hleading
  obtain ⟨between, hrest', hhead, hblank, hbehind⟩ := afterName?_eq_some hafter
  refine ⟨rfl, fun before => ⟨hidentifier, before, between, behind, ?_, rfl, hhead hrest, hblank,
    hbehind⟩⟩
  rw [ht, hrest']
  simp only [List.append_assoc]

/-- Its name is an identifier, and stands in front. -/
theorem exists_name {t : Text} {h : Header} (hname : atName? t = some h) :
    ∃ rest, t = h.name ++ rest ∧ Identifier.isIdentifier h.name = true := by
  obtain ⟨-, hspelled⟩ := atName?_eq_some hname
  obtain ⟨hidentifier, before, between, behind, ht, hlength, -⟩ := hspelled []
  rw [List.eq_nil_of_length_eq_zero hlength, List.append_assoc, List.append_assoc] at ht
  exact ⟨_, ht, hidentifier⟩

/-- Between the keyword and the name of a header stand blanks. -/
theorem atKeyword?_eq_some {t : Text} {h : Header} (hword : atKeyword? t = some h) :
    ∃ blanks, t = typeWord ++ (blanks ++ h.fromName) ∧ blanks ≠ [] ∧ Text.AllBlank blanks ∧
      atName? h.fromName = some h := by
  rw [atKeyword?] at hword
  split at hword
  · next c rest hkeyword =>
    split at hword
    · next hc =>
      obtain ⟨margin, hblank, hmargin⟩ := Text.exists_trimLeft rest
      obtain ⟨hfrom, -⟩ := atName?_eq_some hword
      refine ⟨c :: margin, ?_, List.cons_ne_nil c margin, ?_, by rw [hfrom]; exact hword⟩
      · rw [hfrom, Text.after?_eq_some.mp hkeyword, List.cons_append, ← hmargin]
        rfl
      · intro d hd
        rcases List.mem_cons.mp hd with rfl | hmem
        · exact hc
        · exact hblank d hmem
    · cases hword
  · cases hword

/-- Where a header is found in a text, the text from the word `type` on is the end of it. -/
theorem search?_eq_some {h : Header} (t : Text) :
    ∀ {previous}, search? previous t = some h →
      ∃ before blanks, t = before ++ (typeWord ++ (blanks ++ h.fromName)) ∧ blanks ≠ [] ∧
        Text.AllBlank blanks ∧ atName? h.fromName = some h := by
  induction t with
  | nil => intro previous hsearch; exact nomatch hsearch
  | cons c t ih =>
      intro previous hsearch
      rw [search?] at hsearch
      rcases (Option.orElse_eq_some _ _ _).mp hsearch with hhere | ⟨-, hlater⟩
      · split at hhere
        · exact nomatch hhere
        · obtain ⟨blanks, ht, hne, hblank, hname⟩ := atKeyword?_eq_some hhere
          exact ⟨[], blanks, ht, hne, hblank, hname⟩
      · obtain ⟨before, blanks, rfl, hne, hblank, hname⟩ := ih hlater
        exact ⟨c :: before, blanks, rfl, hne, hblank, hname⟩

/-- Where a header is found on a line, the line ends with its lead and its text from the name
    on. -/
theorem find?_lead {inGroup : Bool} {code : Text} {h : Header}
    (hfind : find? inGroup code = some h) :
    ∃ before lead, code = before ++ (lead ++ h.fromName) ∧ Lead inGroup before lead ∧
      atName? h.fromName = some h := by
  -- the keyword leads to the name, or in a group the margin of the line
  rcases (Option.orElse_eq_some _ _ _).mp hfind with hsearch | ⟨-, hgroup⟩
  · obtain ⟨before, blanks, hcode, hne, hblank, hname⟩ := search?_eq_some code hsearch
    exact ⟨before, typeWord ++ blanks, by rw [hcode, List.append_assoc], .keyword hne hblank, hname⟩
  · split at hgroup
    · next hin =>
      obtain ⟨margin, hblank, hmargin⟩ := Text.exists_trimLeft code
      obtain ⟨hfrom, -⟩ := atName?_eq_some hgroup
      exact ⟨[], margin, by rw [hfrom]; exact hmargin, .grouped hin hblank, by rw [hfrom]; exact hgroup⟩
    · exact nomatch hgroup

theorem find?_eq_some {inGroup : Bool} {code : Text} {h : Header}
    (hfind : find? inGroup code = some h) :
    ∃ before, code = before ++ h.fromName ∧ atName? h.fromName = some h := by
  obtain ⟨before, lead, hcode, -, hname⟩ := find?_lead hfind
  exact ⟨before ++ lead, by rw [hcode, List.append_assoc], hname⟩

/-- A header that is found on a line is spelled at its column. -/
theorem find?_spelled {inGroup : Bool} {code : Text} {h : Header}
    (hfind : find? inGroup code = some h) : Spelled code h.name (h.nameColumn code) := by
  obtain ⟨before, hcode, hname⟩ := find?_eq_some hfind
  have hcolumn : h.nameColumn code = before.length := by
    rw [nameColumn, hcode, List.length_append, Nat.add_sub_cancel]
  rw [hcolumn, hcode]
  exact (atName?_eq_some hname).2 before

/-- What stands behind a header is the end of its line. -/
theorem exists_behind {inGroup : Bool} {code : Text} {h : Header}
    (hfind : find? inGroup code = some h) : ∃ before, code = before ++ h.behind := by
  obtain ⟨before, hcode, hname⟩ := find?_eq_some hfind
  rw [hcode]
  generalize h.fromName = t at hname
  rw [atName?] at hname
  obtain ⟨⟨name, rest⟩, hleading, hname⟩ := Option.bind_eq_some_iff.mp hname
  obtain ⟨behind, hafter, hname⟩ := Option.bind_eq_some_iff.mp hname
  obtain rfl := Option.some.inj hname
  obtain ⟨ht, -⟩ := Identifier.leading?_eq_some hleading
  obtain ⟨between, hrest, -⟩ := afterName?_eq_some hafter
  refine ⟨before ++ (name ++ (between ++ structWord)), ?_⟩
  rw [ht, hrest]
  simp only [List.append_assoc]

end Header

end GoLayout
