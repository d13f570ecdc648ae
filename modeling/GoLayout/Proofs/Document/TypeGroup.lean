import Mathlib.Data.List.Infix
import GoLayout.Proofs.Document.OutsideBodies
import GoLayout.Proofs.Source.WholeWord

/-! # Declarations in type groups

    In a type group a name and the word `struct` at the start of a line are a header.  Bodies of
    structs are passed over as a whole, so nothing that they nest is taken for one.  Bodies of
    other types are not: the group counts parentheses only.  So a declaration is nested in a brace
    of its group exactly if the code outside of struct bodies leaves one open in front of its
    header (`nestedInGroup_iff`), as the body of a map type does (`groupedMap_nestedInGroup`). -/

namespace GoLayout

open GoLayout.Bracket

/-! ## Groups -/

namespace Header

/-- The code opens a type group outside of literals: the whole word `type`, and behind blanks a
    parenthesis with the rest of the line behind it. -/
def OpensGroupBefore (code behind : Text) : Prop :=
  ∃ before blanks, code = before ++ (typeWord ++ (blanks ++ '(' :: behind)) ∧
    Text.AllBlank blanks ∧ Text.endsInWord before = false ∧
    Quoting.after .outside before = .outside

end Header

/-- Does a struct go on from the given line to the next one? -/
def Finding.goesOnBelow (number : Nat) : Finding → Bool
  | .struct src => decide (src.headerLine ≤ number ∧ number < src.body.last.number)
  | .noBrace _ => false

/-- What some lines hold from below one of them to the front of another one. -/
def linesBetween {α : Type} (first last : Nat) (lines : List (List α)) : List α :=
  ((lines.take last).drop (first + 1)).flatten

/-- The code of a document from behind a place on a line to the front of another line. -/
def codeBetween (source : Text) (first : Nat) (behind : Text) (last : Nat) : List Glyph :=
  glyphs behind ++
    linesBetween first last ((Comment.codes false (sourceLines source)).map glyphs)

/-- The part of that code that is outside of the closed bodies of structs. -/
def outerBetween (source : Text) (first : Nat) (behind : Text) (last : Nat) : List Glyph :=
  glyphs behind ++ linesBetween first last (Document.outside .start (sourceLines source))

/-- A line is in a type group: the group is opened on a line above, outside of structs, with the
    given text behind its parenthesis, and what comes then does not close the parenthesis. -/
structure InTypeGroup (source : Text) (first : Nat) (behind : Text) (line : Nat) : Prop where
  opens : ∃ code, (Comment.codes false (sourceLines source))[first]? = some code ∧
    Header.OpensGroupBefore code behind
  outsideStructs : ∀ f ∈ Document.findings source, f.goesOnBelow first = false
  above : first < line
  unclosed : ∀ p, p <+: codeBetween source first behind line → 0 ≤ parenSum p

/-- The header line of the declaration is in a type group, and inside of a brace that the group
    opens above it and does not close there. -/
def Declaration.NestedInGroup (source : Text) (d : Declaration) : Prop :=
  ∃ first behind, InTypeGroup source first behind d.line ∧
    0 < leftOpen 0 (codeBetween source first behind d.line)

/-- The usual opening of a group, alone on its line. -/
theorem InTypeGroup.of_alone {source : Text} {first line : Nat}
    (hcode : (Comment.codes false (sourceLines source))[first]? =
      some (Header.typeWord ++ [' ', '(']))
    (houtside : ∀ f ∈ Document.findings source, f.goesOnBelow first = false)
    (habove : first < line)
    (hunclosed : ∀ p ∈ (codeBetween source first [] line).inits, 0 ≤ parenSum p) :
    InTypeGroup source first [] line where
  opens := ⟨_, hcode, [], [' '], rfl, by decide, rfl, rfl⟩
  outsideStructs := houtside
  above := habove
  unclosed p hp := hunclosed p ((List.mem_inits p _).mpr hp)

/-! ## Reading passes over struct bodies -/

/-- The lines between two numbers are those behind the first and in front of the second. -/
theorem linesBetween_append {α : Type} {first last : Nat} {front middle : List (List α)}
    (back : List (List α)) (hfront : front.length = first + 1)
    (hmiddle : (front ++ middle).length = last) :
    linesBetween first last (front ++ middle ++ back) = middle.flatten := by
  rw [linesBetween, ← hmiddle, List.take_left, ← hfront, List.drop_left]

open Document in
/-- From below a line that is outside of structs on, the code and what is outside of bodies leave
    as many braces open. -/
theorem leftOpen_linesBetween {doc lines : List Text} {s : ReadState} {found : List Finding}
    (hrun : Run .start doc found s lines) (hfound : ∀ name, .noBrace name ∉ found) {first : Nat}
    (habove : first < s.number) (houtside : ∀ f ∈ found, f.goesOnBelow first = false) {count : Int}
    (hcount : 0 ≤ count) :
    leftOpen count (linesBetween first s.number ((Comment.codes false doc).map glyphs)) =
      leftOpen count (linesBetween first s.number (outside .start doc)) := by
  obtain ⟨before, u, middle, behind, rfl, hu, hbefore, hbehind⟩ :=
    hrun.exists_at (first + 1) (Nat.zero_le _) habove fun src hmem hinside =>
      of_decide_eq_false (houtside _ hmem) ⟨Nat.le_of_lt_succ hinside.1, hinside.2⟩
  obtain ⟨passed, outer, hpasses⟩ :=
    hbefore.passes fun name hmem => hfound name (List.mem_append_left _ hmem)
  obtain ⟨more, outerMore, hmore⟩ :=
    hbehind.passes fun name hmem => hfound name (List.mem_append_right _ hmem)
  have hboth := hpasses.trans hmore
  have hpassed : passed.length = first + 1 := by
    rw [← hu, ← hpasses.number_eq]
    exact (Nat.zero_add _).symm
  have hlength : (passed ++ more).length = s.number := by
    rw [← hboth.number_eq]
    exact (Nat.zero_add _).symm
  have hcodes : (Comment.codes false doc).map glyphs =
      passed.map glyphs ++ more.map glyphs ++ (Comment.codes s.inBlock lines).map glyphs := by
    rw [← List.map_append, ← List.map_append]
    exact congrArg _ hboth.codes_eq
  -- whole structs between the lines leave no parenthesis open, so that they can be left out
  rw [hcodes, hboth.outside_eq, linesBetween_append, linesBetween_append, ← List.flatMap_def,
    hmore.leftOpen_eq count hcount]
  · rw [hpasses.length_eq, hpassed]
  · rw [hboth.length_eq, hlength]
  · rw [List.length_map, hpassed]
  · rw [← List.map_append, List.length_map, hlength]

open Document in
/-- Up to the first header that is discarded, a declaration is nested in a brace of its type group
    exactly if the code outside of the closed bodies of structs leaves one open. -/
theorem nestedInGroup_iff (allNames : Bool) {source : Text} {src : StructSource}
    {before behind : List Finding} (hsplit : findings source = before ++ .struct src :: behind)
    (hdiscard : ∀ name, .noBrace name ∉ before) :
    (src.declaration allNames).NestedInGroup source ↔
      ∃ first rest, InTypeGroup source first rest src.headerLine ∧
        0 < leftOpen 0 (outerBetween source first rest src.headerLine) := by
  obtain ⟨s, lines, t, left, hrun, hstep⟩ :=
    (scan_run .start (sourceLines source)).exists_step hsplit
  cases hstep with
  | struct hfind hopen =>
      refine exists_congr fun first => exists_congr fun rest => and_congr_right fun hgroup => ?_
      -- no struct above goes on into the group, since the group is opened outside of structs
      have houtside : ∀ f ∈ before, f.goesOnBelow first = false := by
        intro f hf
        refine hgroup.outsideStructs f ?_
        rw [hsplit]
        exact List.mem_append_left _ hf
      show 0 < leftOpen 0 (codeBetween source first rest s.number) ↔
        0 < leftOpen 0 (outerBetween source first rest s.number)
      rw [codeBetween, outerBetween, leftOpen_append, leftOpen_append,
        leftOpen_linesBetween hrun hdiscard hgroup.above houtside
          (leftOpen_nonneg _ (Int.le_refl 0))]

/-- A group with a struct in the body of a struct, and a struct below it. -/
def groupedNested : Text :=
  "type (\n\tA struct \x7b\n\t\tInner struct \x7b\n\t\t\tX int\n\t\t\x7d\n\t\x7d\n\tB struct \x7b\n\t\x7d\n)"

open Document in
/-- A struct behind another one in a group is not nested in anything of it. -/
theorem nestedInGroup_iff_groupedNested :
    ∃ d ∈ declarations true groupedNested, d.name = ['B'] ∧
      InTypeGroup groupedNested 0 [] d.line ∧
      leftOpen 0 (outerBetween groupedNested 0 [] d.line) = 0 ∧
      (d.NestedInGroup groupedNested ↔ ∃ first rest, InTypeGroup groupedNested first rest d.line ∧
        0 < leftOpen 0 (outerBetween groupedNested first rest d.line)) := by
  have hdeclared : ∃ d ∈ declarations true groupedNested, d.name = ['B'] ∧ d.line = 6 := by
    decide +kernel
  have hstructs : ∀ f ∈ findings groupedNested, (f.declaration? true).isSome = true := by
    decide +kernel
  have hgroup : InTypeGroup groupedNested 0 [] 6 :=
    .of_alone (by decide +kernel) (by decide +kernel) (by decide) (by decide +kernel)
  have houter : leftOpen 0 (outerBetween groupedNested 0 [] 6) = 0 := by decide +kernel
  obtain ⟨d, hd, hname, hline⟩ := hdeclared
  obtain ⟨f, hf, hdeclaration⟩ := List.mem_filterMap.mp hd
  obtain ⟨before, behind, hsplit⟩ := List.append_of_mem hf
  cases f with
  | noBrace name => exact nomatch hdeclaration
  | struct src =>
      obtain rfl := Option.some.inj hdeclaration
      refine ⟨_, hd, hname, hline ▸ hgroup, hline ▸ houter,
        nestedInGroup_iff true hsplit fun name hmem => ?_⟩
      have hsome := hstructs (.noBrace name) (by rw [hsplit]; exact List.mem_append_left _ hmem)
      exact nomatch hsome

/-- A group with a map of structs, whose body has a field of another struct type. -/
def groupedMap : Text :=
  "type (\n\tM map[string]struct \x7b\n\t\tInner struct \x7b\n\t\t\tX int\n\t\t\x7d\n\t\x7d\n)"

/-- The field of the map's struct is declared as a struct of its own. -/
theorem groupedMap_nestedInGroup :
    ∃ d ∈ Document.declarations false groupedMap, d.NestedInGroup groupedMap := by
  have hdeclared : ∃ d ∈ Document.declarations false groupedMap, d.line = 2 := by decide +kernel
  have hgroup : InTypeGroup groupedMap 0 [] 2 :=
    .of_alone (by decide +kernel) (by decide +kernel) (by decide) (by decide +kernel)
  have hopen : 0 < leftOpen 0 (codeBetween groupedMap 0 [] 2) := by decide +kernel
  obtain ⟨d, hd, hline⟩ := hdeclared
  exact ⟨d, hd, 0, [], hline ▸ hgroup, hline ▸ hopen⟩

end GoLayout
