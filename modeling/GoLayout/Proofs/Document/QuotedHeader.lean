import GoLayout.Proofs.Document.Spans

/-! # Headers in literals

    Brackets and semicolons count outside of literals only, but a header is looked for anywhere in
    the code of a line.  So the name of a declaration stands in a literal exactly if the code in
    front of its header leaves one open (`nameInLiteral_iff`), as the value of a string may
    (`declared_quotedStruct`).  The route:

    * text without quotes and backslashes is read from one state only: it is code all along, or it
      is literal all along (`Quoting.live_of_inert`);
    * from the word `type` to the end of the name there is only such text
      (`Header.Lead.inert`). -/

namespace GoLayout

/-! ## Text that opens and closes no literal -/

/-- Neither quotes nor backslashes stand in the text. -/
def Inert (t : Text) : Prop := ∀ c ∈ t, isQuote c = false ∧ c ≠ '\\'

namespace Inert

theorem append {a b : Text} (ha : Inert a) (hb : Inert b) : Inert (a ++ b) := by
  intro c hc
  rcases List.mem_append.mp hc with hca | hcb
  · exact ha c hca
  · exact hb c hcb

theorem of_allBlank {t : Text} (h : Text.AllBlank t) : Inert t := by
  intro c hc
  refine ⟨(isPlain_iff.mp (isPlain_of_isBlank (h c hc))).2, ?_⟩
  rintro rfl
  exact absurd (h _ hc) (by decide)

/-- Names are inert. -/
theorem of_isIdentifier {name : Text} (h : Identifier.isIdentifier name = true) : Inert name := by
  intro c hc
  have hword := Identifier.isWord_of_mem h c hc
  refine ⟨(isPlain_iff.mp (isPlain_of_isWord hword)).2, ?_⟩
  rintro rfl
  exact absurd hword (by decide)

end Inert

namespace Quoting

/-- The literal that the reader is in, if it is in one, was opened by a quote. -/
def ByQuote : Quoting → Prop
  | outside => True
  | inside q => isQuote q = true
  | escaped q => isQuote q = true

/-- A literal that is open was opened by a quote, and so is the one behind the next character. -/
theorem ByQuote.next {s : Quoting} (h : s.ByQuote) (c : Char) : (s.next c).ByQuote := by
  cases s with
  | outside =>
      rw [Quoting.next]
      -- a quote opens a literal of its own, and only it closes that one
      split
      · next hc => exact hc
      · exact trivial
  | inside q =>
      rw [Quoting.next]
      split
      · exact trivial
      · split
        · exact h
        · exact h
  | escaped q => exact h

theorem ByQuote.after {s : Quoting} (h : s.ByQuote) (t : Text) : (s.after t).ByQuote := by
  induction t generalizing s with
  | nil => exact h
  | cons c t ih => exact ih (h.next c)

/-- A character that is no quote and no backslash leads neither into a literal nor out of one. -/
theorem next_eq_outside_iff {s : Quoting} (h : s.ByQuote) {c : Char} (hquote : isQuote c = false)
    (hslash : c ≠ '\\') : s.next c = outside ↔ s = outside := by
  cases s with
  | outside => simp only [Quoting.next, hquote, Bool.false_eq_true, if_false]
  | inside q =>
      have hne : c ≠ q := by
        rintro rfl
        exact ne_true_of_eq_false hquote h
      simp only [Quoting.next, if_neg hne, hslash, false_and, if_false]
  | escaped q => simp only [Quoting.next, reduceCtorEq]

/-- Inert text is live all along, or not at all, by the state in front of it. -/
theorem live_of_inert {s : Quoting} (h : s.ByQuote) {t : Text} (ht : Inert t) :
    ∀ g ∈ glyphsFrom s t, g.live = true ↔ s = outside := by
  induction t generalizing s with
  | nil => exact nofun
  | cons c t ih =>
      intro g hg
      obtain ⟨hquote, hslash⟩ := ht c List.mem_cons_self
      rcases List.mem_cons.mp hg with rfl | hmem
      · show (s == outside && !isQuote c) = true ↔ s = outside
        rw [hquote, Bool.not_false, Bool.and_true, beq_iff_eq]
      · exact (ih (h.next c) (fun d hd => ht d (List.mem_cons_of_mem _ hd)) g hmem).trans
          (next_eq_outside_iff h hquote hslash)

end Quoting

/-- Text without quotes and backslashes is as live as the place where it starts. -/
theorem glyphs_of_inert {before t : Text} (ht : Inert t) (behind : Text) {column : Nat}
    (hstart : before.length ≤ column) (hend : column < before.length + t.length) :
    ∃ g, (glyphs (before ++ (t ++ behind)))[column]? = some g ∧
      (g.live = true ↔ Quoting.after .outside before = .outside) := by
  have hbound : column - before.length < (glyphsFrom (Quoting.after .outside before) t).length := by
    rw [glyphsFrom_length]
    omega
  have hquote : (Quoting.after .outside before).ByQuote :=
    Quoting.ByQuote.after (s := .outside) trivial before
  refine ⟨_, ?_, Quoting.live_of_inert hquote ht _ (List.getElem_mem hbound)⟩
  rw [glyphs, glyphsFrom_append, glyphsFrom_append,
    List.getElem?_append_right (by rw [glyphsFrom_length]; exact hstart), glyphsFrom_length,
    List.getElem?_append_left hbound, List.getElem?_eq_getElem hbound]

/-! ## Headers -/

/-- What stands between the start of a header and its name is inert. -/
theorem Header.Lead.inert {inGroup : Bool} {before lead : Text} (h : Lead inGroup before lead) :
    Inert lead := by
  cases h with
  | keyword _ hblank =>
      refine Inert.append ?_ (Inert.of_allBlank hblank)
      exact Inert.of_isIdentifier (by decide)
  | grouped _ hblank => exact Inert.of_allBlank hblank

namespace Declaration

variable {allNames : Bool} {source before code : Text} {d : Declaration}

/-- Reading comes to the header of the declaration in the given code of a line, and has the given
    text in front of it. -/
def HeaderBehind (source : Text) (d : Declaration) (before code : Text) : Prop :=
  ∃ found s raw below h lead, Document.Run .start (sourceLines source) found s (raw :: below) ∧
    code = (s.line raw).code ∧ Header.find? (s.group = 1) code = some h ∧
    d.name = h.name ∧ d.span.startLine = s.number ∧
    d.nameLocation = ⟨s.number, h.nameColumn code, h.nameColumn code + h.name.length⟩ ∧
    code = before ++ (lead ++ h.fromName) ∧ Header.Lead (s.group = 1) before lead

/-- Every character of the name stands in a literal of the code. -/
def NameInLiteral (d : Declaration) (code : Text) : Prop :=
  ∀ column, d.nameLocation.startColumn ≤ column → column < d.nameLocation.endColumn →
    ∃ g, (glyphs code)[column]? = some g ∧ g.live = false

/-- Every declaration has code in front of its header. -/
theorem exists_headerBehind (hd : d ∈ Document.declarations allNames source) :
    ∃ before code, d.HeaderBehind source before code := by
  obtain ⟨codes, -, -, -, -, hcodes, -⟩ := exists_reading hd
  obtain ⟨found, s, raw, below, h, hrun, hfind, hname, hnumber, hlocation, -⟩ := hcodes
  obtain ⟨before, lead, hcode, hlead, -⟩ := Header.find?_lead hfind
  exact ⟨before, _, found, s, raw, below, h, lead, hrun, rfl, hfind, hname, hnumber, hlocation,
    hcode, hlead⟩

/-- The name is an identifier, as live as the place where the header starts. -/
theorem HeaderBehind.name (h : d.HeaderBehind source before code) :
    d.nameLocation.startColumn < d.nameLocation.endColumn ∧
      ∀ column, d.nameLocation.startColumn ≤ column → column < d.nameLocation.endColumn →
        ∃ g, (glyphs code)[column]? = some g ∧
          (g.live = true ↔ Quoting.after .outside before = .outside) := by
  obtain ⟨found, s, raw, below, h, lead, -, -, hfind, -, -, hlocation, hcode, hlead⟩ := h
  obtain ⟨-, -, hname⟩ := Header.find?_eq_some hfind
  obtain ⟨rest, hfrom, hidentifier⟩ := Header.exists_name hname
  have hcolumn : h.nameColumn code = (before ++ lead).length := by
    rw [Header.nameColumn, hcode, ← List.append_assoc, List.length_append, Nat.add_sub_cancel]
  rw [hlocation, hcolumn]
  refine ⟨Nat.lt_add_of_pos_right (Identifier.length_pos hidentifier), fun column hstart hend => ?_⟩
  dsimp only at hstart hend
  rw [List.length_append] at hstart hend
  -- the lead and the name are one piece without quotes
  rw [hcode, hfrom, ← List.append_assoc lead]
  refine glyphs_of_inert (hlead.inert.append (.of_isIdentifier hidentifier)) rest ?_ ?_
  · exact Nat.le_of_add_right_le hstart
  · rw [List.length_append]
    omega

end Declaration

/-- The name of a declaration stands in a literal of its header line exactly if the code in front
    of the header, which is found anywhere on the line, leaves a literal open. -/
theorem nameInLiteral_iff {allNames : Bool} {source : Text} {d : Declaration}
    (hd : d ∈ Document.declarations allNames source) :
    (∃ before code, d.HeaderBehind source before code) ∧
      ∀ before code, d.HeaderBehind source before code →
        (d.NameInLiteral code ↔ Quoting.after .outside before ≠ .outside) := by
  refine ⟨d.exists_headerBehind hd, fun before code h => ?_⟩
  obtain ⟨hpos, hname⟩ := h.name
  constructor
  · intro hliteral houtside
    obtain ⟨g, hg, hdead⟩ := hliteral _ (Nat.le_refl _) hpos
    -- the first character of the name decides for all of them
    obtain ⟨g', hg', hlive⟩ := hname _ (Nat.le_refl _) hpos
    obtain rfl : g = g' := Option.some.inj (hg.symm.trans hg')
    rw [hlive.mpr houtside] at hdead
    exact nomatch hdead
  · intro hopen column hstart hend
    obtain ⟨g, hg, hlive⟩ := hname column hstart hend
    exact ⟨g, hg, eq_false_of_ne_true fun h => hopen (hlive.mp h)⟩

/-- A struct behind a rune that is a quote, and behind a string that ends with an escaped one. -/
def structBehindLiterals : Text :=
  "var q, s = '\"', \"type \\\"\"; type A struct \x7b a int \x7d"

/-- The name behind two literals is in none of them, since both are closed. -/
theorem nameInLiteral_iff_behindLiterals :
    ∃ d ∈ Document.declarations true structBehindLiterals, d.nameLocation = ⟨0, 32, 33⟩ ∧
      (∃ before code, d.HeaderBehind structBehindLiterals before code) ∧
        ∀ before code, d.HeaderBehind structBehindLiterals before code →
          (d.NameInLiteral code ↔ Quoting.after .outside before ≠ .outside) := by
  have hdeclared : ∃ d ∈ Document.declarations true structBehindLiterals,
      d.nameLocation = ⟨0, 32, 33⟩ := by decide +kernel
  obtain ⟨d, hd, hlocation⟩ := hdeclared
  exact ⟨d, hd, hlocation, nameInLiteral_iff hd⟩

/-- A struct that is the text of a string. -/
def quotedStruct : Text := "var s = \"type A struct \x7b\x7d\""

/-- It is declared. -/
theorem declared_quotedStruct : ∃ d ∈ Document.declarations false quotedStruct,
    d.HeaderBehind quotedStruct ("var s = \"" : String).toList quotedStruct ∧
      d.NameInLiteral quotedStruct := by
  have hmem : (⟨['A'], [], ⟨0, 0, 0, 26⟩, ⟨0, 14, 15⟩, true⟩ : Declaration) ∈
      Document.declarations false quotedStruct := by decide +kernel
  have hlines : sourceLines quotedStruct = [quotedStruct] := by decide +kernel
  have hcode : (ReadState.start.line quotedStruct).code = quotedStruct := by decide +kernel
  refine ⟨_, hmem, ?_, ?_⟩
  · refine ⟨[], .start, quotedStruct, [],
      ⟨("A struct \x7b\x7d\"" : String).toList, ['A'], (" \x7b\x7d\"" : String).toList⟩,
      Header.typeWord ++ [' '], ?_, hcode.symm, by decide +kernel, rfl, rfl, by decide +kernel,
      by decide +kernel, .keyword (by decide) (by decide)⟩
    rw [hlines]
    exact .done _ _
  · intro column hstart hend
    obtain rfl : column = 14 := Nat.le_antisymm (Nat.le_of_lt_succ hend) hstart
    exact ⟨⟨'A', false⟩, by decide +kernel, rfl⟩

end GoLayout
