import GoLayout.Proofs.Document.Commented
import GoLayout.Proofs.Document.Spans

/-! # Declarations without a closing brace

    A body without a closing brace ends in front of the first line below its opening brace that
    starts at depth one and starts with a header, or with the document
    (`unterminated_endsAtHeader`).  Other headers do not end it: one inside of a nested body is
    opaque like all text there, and one between the header and the opening brace is passed over in
    search of the brace (`headers_passedOver`). -/

namespace GoLayout

open GoLayout.Bracket

/-- Of some lines of code behind an opening brace the one with the given number starts at depth one
    and starts with a header. -/
def HeaderAtDepthOne (body : List Text) (k : Nat) : Prop :=
  depthBelow 1 (body.take k) = 1 ∧
    ∃ code, body[k]? = some code ∧ (Header.leading? code).isSome = true

/-- The region of a declaration that is not terminated holds no header at depth one below the line
    of its opening brace, and ends in front of the first one or with the document. -/
theorem unterminated_endsAtHeader {allNames : Bool} {source : Text} {d : Declaration}
    (hd : d ∈ Document.declarations allNames source) (hopen : d.terminated = false) :
    ∃ codes skipped body, d.IsCodeBehind source codes ∧ OpensOn codes skipped body ∧
      d.span.startLine + skipped ≤ d.span.endLine ∧
      (∀ k, 0 < k → d.span.startLine + skipped + k ≤ d.span.endLine →
        ¬ HeaderAtDepthOne body k) ∧
      ((∃ k, d.span.startLine + skipped + k = d.span.endLine + 1 ∧ HeaderAtDepthOne body k) ∨
        d.span.endLine + 1 = (sourceLines source).length) := by
  obtain ⟨codes, skipped, body, count, ending, hcodes, hread⟩ := d.exists_reading hd
  have hend := hread.endLine_eq
  have hending : ending ≠ .closed := by
    intro hclosed
    rw [hread.terminated_iff.mpr hclosed] at hopen
    exact nomatch hopen
  refine ⟨codes, skipped, body, hcodes, hread.opens, by omega, ?_, ?_⟩
  · rintro (_ | k) hpos hle ⟨hone, code, hcode, hsome⟩
    · exact absurd hpos (Nat.lt_irrefl 0)
    · rw [hread.lines.noHeader (by decide) k code (by omega) hcode hone] at hsome
      exact nomatch hsome
  · -- a body that is not closed ends with the lines of the document, or above a header
    rcases hread.lines.stops (by decide) hending with hlength | hheader
    · have hcodesLength := hread.opens.length_eq
      have hdocument := hcodes.length_eq
      exact .inr (by omega)
    · exact .inl ⟨count + 1, by omega, hheader⟩

/-- A header in a nested body, and behind that body one at depth one. -/
def headersBelowBrace : Text :=
  "type A struct \x7b\n\tx struct \x7b\ntype C struct \x7b\n\t\x7d\x7d\ntype B struct \x7b\x7d"

/-- The struct goes on over the header in its nested body, and ends above the one at depth one. -/
theorem unterminated_endsAtHeader_below :
    ∃ d ∈ Document.declarations false headersBelowBrace,
      d.terminated = false ∧ d.span = ⟨0, 0, 3, 3⟩ ∧
      ∃ codes skipped body, d.IsCodeBehind headersBelowBrace codes ∧ OpensOn codes skipped body ∧
        ((∃ k, d.span.startLine + skipped + k = d.span.endLine + 1 ∧ HeaderAtDepthOne body k) ∨
          d.span.endLine + 1 = (sourceLines headersBelowBrace).length) := by
  have hdeclared : ∃ d ∈ Document.declarations false headersBelowBrace,
      d.terminated = false ∧ d.span = ⟨0, 0, 3, 3⟩ := by decide +kernel
  obtain ⟨d, hd, hopen, hspan⟩ := hdeclared
  obtain ⟨codes, skipped, body, hcodes, hopens, -, -, hend⟩ := unterminated_endsAtHeader hd hopen
  exact ⟨d, hd, hopen, hspan, codes, skipped, body, hcodes, hopens, hend⟩

/-- The declaration is not terminated, and below its header line a line of its region has code
    that starts with a header. -/
def Declaration.PassesHeader (source : Text) (d : Declaration) : Prop :=
  d.terminated = false ∧ ∃ line code, d.span.startLine < line ∧ line ≤ d.span.endLine ∧
    Comment.codeAt? (sourceLines source) line = some code ∧ (Header.leading? code).isSome = true

/-- A header in a nested body that is left open. -/
def headerInNested : Text :=
  "type A struct \x7b\n\tx struct \x7b\ntype B struct \x7b\n\ty int\n\x7d"

/-- A header in front of the opening brace of the header above it. -/
def headerAboveBrace : Text := "type A struct\ntype B struct \x7b\n\ty int"

/-- Neither a header in a nested body nor one in front of the opening brace ends the region. -/
theorem headers_passedOver :
    (∃ d ∈ Document.declarations false headerInNested, d.PassesHeader headerInNested) ∧
      ∃ d ∈ Document.declarations false headerAboveBrace, d.PassesHeader headerAboveBrace := by
  have hnested : ∃ d ∈ Document.declarations false headerInNested,
      d.terminated = false ∧ d.span = ⟨0, 0, 4, 1⟩ := by decide +kernel
  have habove : ∃ d ∈ Document.declarations false headerAboveBrace,
      d.terminated = false ∧ d.span = ⟨0, 0, 2, 6⟩ := by decide +kernel
  have hnestedLine : Comment.codeAt? (sourceLines headerInNested) 2 =
      some ("type B struct \x7b" : String) := by decide +kernel
  have haboveLine : Comment.codeAt? (sourceLines headerAboveBrace) 1 =
      some ("type B struct \x7b" : String) := by decide +kernel
  have hheader : (Header.leading? ("type B struct \x7b" : String)).isSome = true := by
    decide +kernel
  -- the first header stands in a nested body that is left open, the second one above the opening
  -- brace
  constructor
  · obtain ⟨d, hd, hopen, hspan⟩ := hnested
    exact ⟨d, hd, hopen, 2, _, by rw [hspan]; decide, by rw [hspan]; decide, hnestedLine, hheader⟩
  · obtain ⟨d, hd, hopen, hspan⟩ := habove
    exact ⟨d, hd, hopen, 1, _, by rw [hspan]; decide, by rw [hspan]; decide, haboveLine, hheader⟩

end GoLayout
