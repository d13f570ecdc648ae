import GoLayout.Proofs.Document.BodyLines
import GoLayout.Proofs.Document.Lookup

/-! # Regions of declarations

    The region of a declaration runs from its header line to the line where its braces say that it
    ends (`declarations_enclosed`).  The route:

    * every declaration is read from a header that reading comes to, and the code from behind the
      header on opens its body and carries it (`Declaration.exists_reading`);
    * the lines of a body are those along which the depth stays at one or more
      (`Body.Extends.staysOpen_take`, `Body.Extends.closes`, `Body.Extends.staysOpen`);
    * regions have no line in common, since reading goes on below each of them
      (`Document.declarations_located`). -/

namespace GoLayout

open GoLayout.Bracket

/-- Every line has its code. -/
theorem Comment.length_codes (lines : List Text) :
    ∀ isOpen, (codes isOpen lines).length = lines.length := by
  induction lines with
  | nil => intro isOpen; rfl
  | cons raw below ih => intro isOpen; exact congrArg (· + 1) (ih _)

namespace Declaration

/-- The code of a document from behind the header of the declaration on, line by line.  Whether a
    comment is open is what reading says where it comes to the header line. -/
def IsCodeBehind (source : Text) (d : Declaration) (codes : List Text) : Prop :=
  ∃ found s raw below h, Document.Run .start (sourceLines source) found s (raw :: below) ∧
    Header.find? (s.group = 1) (s.line raw).code = some h ∧
    d.name = h.name ∧ d.span.startLine = s.number ∧
    d.nameLocation = ⟨s.number, h.nameColumn (s.line raw).code,
      h.nameColumn (s.line raw).code + h.name.length⟩ ∧
    codes = h.behind :: Comment.codes (s.line raw).inBlock below

/-- The declaration is read over the code behind its header: the lines in front of the one with
    the opening brace, the code behind that brace, the lines below it that belong to the body, and
    the ending. -/
structure ReadOver (d : Declaration) (codes : List Text) (skipped : Nat) (body : List Text)
    (count : Nat) (ending : Ending) : Prop where
  opens : OpensOn codes skipped body
  lines : Body.Extends 1 body count ending
  endLine_eq : d.span.endLine = d.span.startLine + skipped + count
  terminated_iff : d.terminated = true ↔ ending = .closed

variable {allNames : Bool} {source : Text} {d : Declaration}

/-- Every declaration is read over some lines from its header on. -/
theorem exists_reading (hd : d ∈ Document.declarations allNames source) :
    ∃ codes skipped body count ending, d.IsCodeBehind source codes ∧
      d.ReadOver codes skipped body count ending := by
  obtain ⟨f, hf, hdeclaration⟩ := List.mem_filterMap.mp hd
  obtain ⟨before, behind, hsplit⟩ := List.append_of_mem hf
  obtain ⟨s, lines, t, rest, hrun, hstep⟩ :=
    (Document.scan_run .start (sourceLines source)).exists_step hsplit
  cases hstep with
  | discard _ _ => exact nomatch hdeclaration
  | @struct raw below rest h first hfind hopen =>
      obtain rfl := Option.some.inj hdeclaration
      obtain ⟨skipped, hfirst, hopens⟩ := Body.opening?_opensOn hopen
      obtain ⟨count, hlast, hextends⟩ := Body.readFrom_extends rest 1 first
      refine ⟨_, skipped, _, count, _, ⟨before, s, raw, below, h, hrun, hfind, rfl, rfl, rfl, rfl⟩,
        hopens, hextends, ?_, decide_eq_true_iff⟩
      show (Body.readFrom 1 first rest).last.number = s.number + skipped + count
      rw [hlast, hfirst]
      rfl

/-- The code behind a header has a line for each line of the document from the header's on. -/
theorem IsCodeBehind.length_eq {codes : List Text} (h : d.IsCodeBehind source codes) :
    d.span.startLine + codes.length = (sourceLines source).length := by
  obtain ⟨found, s, raw, below, h, hrun, -, -, hnumber, -, rfl⟩ := h
  obtain ⟨above, hdoc, habove⟩ := hrun.standsAt (StandsAt.start _)
  rw [hdoc, List.length_append, List.length_cons, Comment.length_codes, List.length_cons, habove,
    hnumber]

/-- The region of the declaration lies in the document: it starts with the first column of the
    header line, which spells the name at its place, and ends with the last line's last column. -/
structure LiesIn (doc : List Text) (d : Declaration) : Prop where
  startColumn_eq : d.span.startColumn = 0
  startLine_le : d.span.startLine ≤ d.span.endLine
  lastLine : ∃ raw, doc[d.span.endLine]? = some raw ∧ d.span.endColumn = raw.length
  name : ∃ before behind, doc[d.span.startLine]? = some (before ++ (d.name ++ behind)) ∧
    d.nameLocation = ⟨d.span.startLine, before.length, before.length + d.name.length⟩

/-- The region of the declaration ends where the braces say: counted from behind the opening brace
    on, the depth stays at one or more in front of the last line, and comes to zero on it exactly
    if the declaration is terminated. -/
def Encloses (d : Declaration) (codes : List Text) : Prop :=
  ∃ skipped body count, OpensOn codes skipped body ∧
    d.span.endLine = d.span.startLine + skipped + count ∧
    StaysOpen 1 (body.take count) ∧
    (d.terminated = true → Closes 1 (body.take (count + 1))) ∧
    (d.terminated = false → StaysOpen 1 (body.take (count + 1)))

/-- The braces of what is read match from behind the opening one. -/
theorem ReadOver.encloses {codes body : List Text} {skipped count : Nat} {ending : Ending}
    (h : d.ReadOver codes skipped body count ending) : d.Encloses codes := by
  refine ⟨skipped, body, count, h.opens, h.endLine_eq, h.lines.staysOpen_take (by decide),
    fun hclosed => ?_, fun hopen => ?_⟩
  · exact h.lines.closes (by decide) (h.terminated_iff.mp hclosed)
  · refine h.lines.staysOpen (by decide) fun hclosed => ?_
    rw [h.terminated_iff.mpr hclosed] at hopen
    exact nomatch hopen

/-- The header line of a declaration spells its name. -/
theorem IsCodeBehind.name_spelled {codes : List Text} (h : d.IsCodeBehind source codes) :
    ∃ before behind, (sourceLines source)[d.span.startLine]? =
        some (before ++ (d.name ++ behind)) ∧
      d.nameLocation = ⟨d.span.startLine, before.length, before.length + d.name.length⟩ := by
  obtain ⟨found, s, raw, below, h, hrun, hfind, hname, hnumber, hlocation, -⟩ := h
  have hraw := (hrun.standsAt (StandsAt.start _)).getElem?
  obtain ⟨hidentifier, before, between, behind, hcode, hcolumn, -⟩ := Header.find?_spelled hfind
  -- comments leave no word in the code that the line does not have
  have hkeeps : KeepsWords raw (s.line raw).code := Comment.strip_keepsWords raw s.inBlock
  rw [hcode] at hkeeps
  simp only [List.append_assoc] at hkeeps
  obtain ⟨before', behind', hsplit, hlength⟩ := hkeeps.exists_split hidentifier
  rw [hname, hnumber, hlocation, ← hcolumn, ← hlength]
  exact ⟨before', behind', by rw [← hsplit]; exact hraw, rfl⟩

/-- A declaration lies within the lines of its document. -/
theorem liesIn (hd : d ∈ Document.declarations allNames source) :
    d.LiesIn (sourceLines source) := by
  have hlocated := (Document.declarations_located allNames source).1 d hd
  obtain ⟨codes, skipped, body, count, ending, hcodes, hread⟩ := exists_reading hd
  have hend := hread.endLine_eq
  exact ⟨hlocated.startColumn_eq, by omega, hlocated.getElem?_endLine, hcodes.name_spelled⟩

end Declaration

/-- The regions of declarations are in order and have no line in common, they lie in the document,
    and each of them ends where the braces behind its header say. -/
theorem declarations_enclosed (allNames : Bool) (source : Text) :
    (Document.declarations allNames source).Pairwise Declaration.Above ∧
      ∀ d ∈ Document.declarations allNames source, d.LiesIn (sourceLines source) ∧
        ∃ codes, d.IsCodeBehind source codes ∧ d.Encloses codes := by
  refine ⟨(Document.declarations_located allNames source).2, fun d hd => ⟨d.liesIn hd, ?_⟩⟩
  obtain ⟨codes, skipped, body, count, ending, hcodes, hread⟩ := d.exists_reading hd
  exact ⟨codes, hcodes, hread.encloses⟩

/-- A struct whose opening brace stands below its header and whose braces in a comment and in a
    tag count for nothing, and one that is not terminated. -/
def bracesBelow : Text :=
  "type A struct // \x7b\n\t\x7b a int /* \x7d\n */ `\x7d`; b struct \x7b\n\t\x7d\n\x7d\ntype B struct \x7b c int"

/-- A struct whose opening brace stands below its header, with braces in a comment and a literal. -/
theorem declarations_enclosed_below : ∃ d ∈ Document.declarations true bracesBelow,
    d.span = ⟨0, 0, 4, 1⟩ ∧ d.terminated = true ∧ d.LiesIn (sourceLines bracesBelow) ∧
      ∃ codes, d.IsCodeBehind bracesBelow codes ∧ d.Encloses codes := by
  have hdeclared : ∃ d ∈ Document.declarations true bracesBelow,
      d.span = ⟨0, 0, 4, 1⟩ ∧ d.terminated = true := by decide +kernel
  obtain ⟨d, hd, hspan, hclosed⟩ := hdeclared
  exact ⟨d, hd, hspan, hclosed, (declarations_enclosed true bracesBelow).2 d hd⟩

end GoLayout
