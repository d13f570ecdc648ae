import GoLayout.Proofs.FieldLine.Tag
import GoLayout.Proofs.Source.Header

/-! # What stands behind a field

    Behind a field its line may go on with a tag and a line comment.  The comment is stripped,
    the tag is code that divides and nests nothing (`Trailer.still`), and the field without
    both is the field as it was printed (`Trailer.strip_append`).  Reading a line takes carriage
    returns from its end, which are part of the comment (`Trailer.dropTrailing_append`). -/

namespace GoLayout

/-- A tag, which is a raw string, and a line comment; each of them may be missing. -/
structure Trailer where
  tag : Option Text
  comment : Option Text
  tag_line : ∀ t ∈ tag, rawQuote ∉ t ∧ '\n' ∉ t
  comment_line : ∀ c ∈ comment, '\n' ∉ c

namespace Trailer

/-- The tag as it is printed behind a blank. -/
def tagText : Option Text → Text
  | none => []
  | some t => ' ' :: rawString t

/-- The comment as it is printed behind a blank. -/
def commentText : Option Text → Text
  | none => []
  | some c => ' ' :: '/' :: '/' :: c

/-- What is left of the comment when it is stripped. -/
def gap : Option Text → Text
  | none => []
  | some _ => [' ']

/-- Tag and comment as they are printed. -/
def text (e : Trailer) : Text := tagText e.tag ++ commentText e.comment

/-- The part that is code. -/
def code (e : Trailer) : Text := tagText e.tag ++ gap e.comment

/-- Tag and comment as they are read, without the carriage returns at the end. -/
def read (e : Trailer) : Trailer where
  tag := e.tag
  comment := e.comment.map (Text.dropTrailing '\r')
  tag_line := e.tag_line
  comment_line := by
    intro c hc
    obtain ⟨d, hd, rfl⟩ := Option.map_eq_some_iff.mp hc
    exact fun hmem => e.comment_line d hd ((Text.dropTrailing_prefix '\r' d).subset hmem)

theorem gap_allBlank (comment : Option Text) : Text.AllBlank (gap comment) := by
  cases comment with
  | none => exact Text.allBlank_nil
  | some c =>
      intro d hd
      rw [List.mem_singleton.mp hd]
      rfl

/-- A comment is taken away, and the blank in front of it stays. -/
theorem stripFrom_commentText (comment : Option Text) :
    Comment.stripFrom .code (commentText comment) = (gap comment, false) := by
  cases comment with
  | none => rfl
  | some c => rfl

theorem blank_plain : Plain [' '] := by decide

/-- The comment is stripped, the tag is not. -/
theorem stripFrom_text (e : Trailer) : Comment.stripFrom .code e.text = (e.code, false) := by
  obtain ⟨tag, comment, htag, hcomment⟩ := e
  show Comment.stripFrom .code (tagText tag ++ commentText comment) = (tagText tag ++ gap comment, _)
  cases tag with
  | none => exact stripFrom_commentText comment
  | some t =>
      show Comment.stripFrom .code ([' '] ++ (rawString t ++ commentText comment)) = _
      rw [blank_plain.stripFrom_append, stripFrom_rawString (htag t rfl).1, stripFrom_commentText]
      rfl

/-- Nothing behind the field divides or nests. -/
theorem still (e : Trailer) : Still (glyphs e.code) := by
  obtain ⟨tag, comment, htag, hcomment⟩ := e
  have hgap : Still (glyphs (gap comment)) := by
    rw [(Plain.of_allBlank (gap_allBlank comment)).glyphs_eq]
    exact still_of_allBlank (gap_allBlank comment)
  show Still (glyphs (tagText tag ++ gap comment))
  cases tag with
  | none => exact hgap
  | some t =>
      show Still (glyphs ([' '] ++ (rawString t ++ gap comment)))
      rw [blank_plain.glyphs_append, glyphs_rawString (htag t rfl).1]
      exact (still_of_allBlank (by decide)).append ((still_deadGlyphs _).append hgap)

/-- The field is what stands in front. -/
theorem strip_append (e : Trailer) {margin field : Text} (hmargin : Text.AllBlank margin)
    (hplain : Plain field) (hsolid : Text.Solid field) :
    Tag.strip (margin ++ field ++ e.code) = field := by
  obtain ⟨tag, comment, htag, hcomment⟩ := e
  show Tag.strip (margin ++ field ++ (tagText tag ++ gap comment)) = field
  cases tag with
  | none => exact Tag.strip_untagged hmargin hplain hsolid (gap_allBlank comment)
  | some t =>
      have hshape : margin ++ field ++ (tagText (some t) ++ gap comment) =
          margin ++ field ++ [' '] ++ (rawString t ++ gap comment) := by
        rw [List.append_assoc _ [' ']]
        rfl
      rw [hshape]
      exact Tag.strip_tagged hmargin hplain hsolid (htag t rfl).1 (gap_allBlank comment)

/-- No identifier follows the blank behind the field. -/
theorem code_alone (e : Trailer) : e.code.head?.any isWord = false ∧
    ∀ c u, e.code = c :: u → isBlank c = true → Identifier.leading? (Text.trimLeft u) = none := by
  obtain ⟨tag, comment, htag, hcomment⟩ := e
  show (tagText tag ++ gap comment).head?.any isWord = false ∧
    ∀ c u, tagText tag ++ gap comment = c :: u → isBlank c = true →
      Identifier.leading? (Text.trimLeft u) = none
  have hblank : isWord ' ' = false := by decide
  -- what stands behind the field is blank, or a blank and a back quote, and no name starts with
  -- either
  cases tag with
  | none =>
      cases comment with
      | none => exact ⟨rfl, fun c u hcode => nomatch hcode⟩
      | some d =>
          refine ⟨hblank, fun c u hcode _ => ?_⟩
          obtain ⟨rfl, rfl⟩ := List.cons.inj hcode
          rfl
  | some t =>
      refine ⟨hblank, fun c u hcode _ => ?_⟩
      obtain ⟨rfl, rfl⟩ := List.cons.inj hcode
      have hquote : isBlank rawQuote = false ∧ isIdentStart rawQuote = false := by decide
      show Identifier.leading? (Text.trimLeft (rawQuote :: (t ++ [rawQuote] ++ gap comment))) = none
      rw [Text.trimLeft_cons hquote.1, Identifier.leading?, hquote.2]
      rfl

/-- What stands behind a field does not go on with its last word. -/
theorem text_head (e : Trailer) : e.text.head?.any isWord = false := by
  obtain ⟨tag, comment, htag, hcomment⟩ := e
  have hblank : isWord ' ' = false := by decide
  cases tag with
  | none =>
      cases comment with
      | none => rfl
      | some d => exact hblank
  | some t => exact hblank

/-- Nothing behind a field breaks the line. -/
theorem noBreak (e : Trailer) : '\n' ∉ e.text := by
  obtain ⟨tag, comment, htag, hcomment⟩ := e
  have htagText : '\n' ∉ tagText tag := by
    cases tag with
    | none => exact List.not_mem_nil
    | some t =>
        have ht := (htag t rfl).2
        have hquote : '\n' ≠ rawQuote := by decide
        simp [tagText, rawString, ht, hquote]
  have hcommentText : '\n' ∉ commentText comment := by
    cases comment with
    | none => exact List.not_mem_nil
    | some c =>
        have hc := hcomment c rfl
        simp [commentText, hc]
  intro hmem
  rcases List.mem_append.mp hmem with hleft | hright
  · exact htagText hleft
  · exact hcommentText hright

/-- Reading the line takes carriage returns from the comment only. -/
theorem dropTrailing_append (e : Trailer) {field : Text} (hsolid : Text.Solid field) (margin : Text) :
    Text.dropTrailing '\r' (margin ++ field ++ e.text) = margin ++ field ++ e.read.text := by
  obtain ⟨tag, comment, htag, hcomment⟩ := e
  show Text.dropTrailing '\r' (margin ++ field ++ (tagText tag ++ commentText comment)) =
    margin ++ field ++ (tagText tag ++ commentText (comment.map (Text.dropTrailing '\r')))
  -- the carriage returns at the end are those of the comment, or there are none
  cases comment with
  | some c =>
      have hshape : ∀ d, margin ++ field ++ (tagText tag ++ commentText (some d)) =
          (margin ++ field ++ (tagText tag ++ [' ', '/'])) ++ '/' :: d := by
        intro d
        rw [List.append_assoc (margin ++ field), List.append_assoc (tagText tag)]
        rfl
      rw [Option.map_some, hshape, hshape, Text.dropTrailing_append_cons (by decide)]
  | none =>
      show Text.dropTrailing '\r' (margin ++ field ++ (tagText tag ++ [])) = _ ++ (tagText tag ++ [])
      rw [List.append_nil]
      cases tag with
      | none =>
          obtain ⟨before, c, rfl, hc⟩ := hsolid.last
          have hne : c ≠ '\r' := by
            rintro rfl
            exact absurd hc (by decide)
          show Text.dropTrailing '\r' (margin ++ (before ++ [c]) ++ []) = _ ++ []
          rw [List.append_nil, ← List.append_assoc]
          exact Text.dropTrailing_concat hne _
      | some t =>
          have hshape : margin ++ field ++ tagText (some t) =
              (margin ++ field ++ (' ' :: rawQuote :: t)) ++ [rawQuote] := by
            rw [List.append_assoc (margin ++ field)]
            rfl
          rw [hshape]
          exact Text.dropTrailing_concat (by decide) _

end Trailer

end GoLayout
