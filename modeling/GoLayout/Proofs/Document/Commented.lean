import GoLayout.Proofs.Document.Reading
import GoLayout.Proofs.Source.Spelling

/-! # Declarations and comments

    The code of a line is what is left of it when comments are followed from the first line of
    the document on (`Comment.codeAt?`).  Reading follows them too, up to the first header that
    it discards for want of a brace:

    * as long as no header is discarded, each header is found in the code of its line
      (`Run.follows`);
    * a header is discarded when no code below it has a brace, so that from there on only text
      in comments can open a struct (`Run.noBrace_below`). -/

namespace GoLayout

namespace Comment

/-- Is a block comment open behind some lines? -/
def openBehind (lines : List Text) : Bool :=
  lines.foldl (fun isOpen raw => (strip raw isOpen).2) false

/-- The code of a line of a document. -/
def codeAt? (doc : List Text) (number : Nat) : Option Text :=
  doc[number]?.map fun raw => (strip raw (openBehind (doc.take number))).1

end Comment

/-- The line is one of the document, with its code and with the block comment that is open
    behind it. -/
structure CodeLine.Follows (doc : List Text) (l : CodeLine) (below : List Text) : Prop where
  standsIn : l.StandsIn doc below
  inBlock_eq : l.inBlock = Comment.openBehind (doc.take (l.number + 1))

namespace StandsAt

variable {doc below : List Text} {number : Nat} {raw : Text}

/-- A line that is read with the comment that is open in front of it. -/
theorem follows (h : StandsAt doc number (raw :: below)) :
    (CodeLine.ofRaw number raw (Comment.openBehind (doc.take number))).Follows doc below := by
  refine ⟨h, ?_⟩
  show (Comment.strip raw _).2 = Comment.openBehind (doc.take (number + 1))
  rw [h.take, Comment.openBehind, Comment.openBehind, List.foldl_append]
  rfl

/-- The code of the line that the lines below start with. -/
theorem codeAt? (h : StandsAt doc number (raw :: below)) :
    Comment.codeAt? doc number =
      some (CodeLine.ofRaw number raw (Comment.openBehind (doc.take number))).code := by
  rw [Comment.codeAt?, h.getElem?]
  rfl

end StandsAt

namespace CodeLine.Follows

variable {doc below lines rest : List Text} {l first : CodeLine}

theorem next (raw : Text) (h : l.Follows doc (raw :: below)) :
    (CodeLine.ofRaw (l.number + 1) raw l.inBlock).Follows doc below := by
  rw [h.inBlock_eq]
  exact StandsAt.follows (StandsAt.next h.standsIn)

theorem afterBrace? {l' : CodeLine} (h : l.Follows doc below) (hl : l.afterBrace? = some l') :
    l'.Follows doc below := by
  obtain ⟨_, -, rfl⟩ := Option.map_eq_some_iff.mp hl
  exact ⟨h.standsIn, h.inBlock_eq⟩

/-- The last line of a body. -/
theorem read (h : l.Follows doc lines) (hopen : Body.opening? l lines = some (first, rest)) :
    (Body.read first rest).last.Follows doc (Body.read first rest).below :=
  Body.readFrom_induct (P := fun l below => l.Follows doc below)
    (fun _ raw _ hl => hl.next raw) rest 1 first
    (Body.opening?_induct (P := fun l below => l.Follows doc below)
      (fun _ raw _ hl => hl.next raw) (fun _ _ _ hl hbrace => hl.afterBrace? hbrace) h hopen)

/-- Without an opening brace there is none in the code of any line below. -/
theorem notMem_below (lines : List Text) :
    ∀ {l : CodeLine}, l.Follows doc lines →
      Body.openingBelow? (l.number + 1) l.inBlock lines = none →
      ∀ number code, l.number < number → Comment.codeAt? doc number = some code → '{' ∉ code := by
  induction lines with
  | nil =>
      intro l hl _ number code hlt hcode
      have hend := (StandsAt.next hl.standsIn).number_eq
      obtain ⟨raw, hraw, -⟩ := Option.map_eq_some_iff.mp hcode
      obtain ⟨hbound, -⟩ := List.getElem?_eq_some_iff.mp hraw
      omega
  | cons raw below ih =>
      intro l hl hopen number code hlt hcode
      have hnext := hl.next raw
      have hstands : StandsAt doc (l.number + 1) (raw :: below) := StandsAt.next hl.standsIn
      rw [Body.openingBelow?] at hopen
      split at hopen
      · cases hopen
      · next hbrace =>
        -- the next line has no brace, since it was passed over; the others are below it
        by_cases hnumber : number = l.number + 1
        · rw [hnumber, hstands.codeAt?, ← hl.inBlock_eq] at hcode
          rw [← Option.some.inj hcode]
          exact Text.cutAt?_eq_none (Option.map_eq_none_iff.mp hbrace)
        · exact ih hnext hopen number code (show l.number + 1 < number by omega) hcode

end CodeLine.Follows

namespace Document

/-- Reading stands at a line of the document and takes the block comment for open that is. -/
structure Follows (doc : List Text) (s : ReadState) (lines : List Text) : Prop where
  standsAt : StandsAt doc s.number lines
  inBlock_eq : s.inBlock = Comment.openBehind (doc.take s.number)

variable {doc lines rest below : List Text} {s t : ReadState} {found : List Finding} {raw : Text}

theorem Follows.start (doc : List Text) : Follows doc .start doc := ⟨StandsAt.start doc, rfl⟩

theorem Follows.line (h : Follows doc s (raw :: below)) : (s.line raw).Follows doc below := by
  rw [ReadState.line, h.inBlock_eq]
  exact h.standsAt.follows

theorem Follows.codeAt? (h : Follows doc s (raw :: below)) :
    Comment.codeAt? doc s.number = some (s.line raw).code := by
  rw [ReadState.line, h.inBlock_eq]
  exact h.standsAt.codeAt?

/-- A step that discards no header follows the comments. -/
theorem Step.follows (h : Step s lines found t rest) (hs : Follows doc s lines)
    (hfound : ∀ name, .noBrace name ∉ found) : Follows doc t rest := by
  refine ⟨h.standsAt hs.standsAt, ?_⟩
  cases h with
  | skip _ => exact hs.line.inBlock_eq
  | discard _ _ => exact absurd List.mem_cons_self (hfound _)
  | @struct raw below rest h first _ hopen =>
      have hheader : (h.rest (s.line raw)).Follows doc below :=
        ⟨hs.line.standsIn, hs.line.inBlock_eq⟩
      exact (hheader.read hopen).inBlock_eq

/-- A run that discards no header follows the comments of the document. -/
theorem Run.follows (h : Run s lines found t rest) (hs : Follows doc s lines)
    (hfound : ∀ name, .noBrace name ∉ found) : Follows doc t rest := by
  induction h with
  | done => exact hs
  | step hstep _ ih =>
      exact ih (hstep.follows hs fun name hmem => hfound name (List.mem_append_left _ hmem))
        fun name hmem => hfound name (List.mem_append_right _ hmem)

/-- Behind a discarded header no code has a brace. -/
theorem Run.noBrace_below (h : Run s lines found t rest) (hs : Follows doc s lines) {name : Text}
    (hfound : .noBrace name ∈ found) :
    ∀ number code, t.number ≤ number → Comment.codeAt? doc number = some code → '{' ∉ code := by
  induction h with
  | done => cases hfound
  | @step s t u lines rest left found more hstep hrun ih =>
      -- the first header that is discarded counts: up to it the comments are followed
      cases hstep with
      | skip hfind => exact ih ((Step.skip hfind).follows hs nofun) hfound
      | struct hfind hopen =>
          refine ih ((Step.struct hfind hopen).follows hs fun name hmem => ?_) ?_
          · cases List.mem_singleton.mp hmem
          · exact (List.mem_cons.mp hfound).resolve_left nofun
      | @discard raw _ header hfind hopen =>
          intro number code hle hcode
          have hheader : (header.rest (s.line raw)).Follows doc rest :=
            ⟨hs.line.standsIn, hs.line.inBlock_eq⟩
          have hlt : s.number < number := Nat.le_trans hrun.number_le hle
          rw [Body.opening?] at hopen
          split at hopen
          · cases hopen
          · exact hheader.notMem_below rest hopen number code hlt hcode

end Document

/-- The header of the declaration is in the code of its line: the name where the declaration
    says it is, and the word `struct` behind it. -/
def Declaration.HeaderInCode (doc : List Text) (d : Declaration) : Prop :=
  ∃ code column, Comment.codeAt? doc d.line = some code ∧
    d.nameLocation = ⟨d.line, column, column + d.name.length⟩ ∧
      Header.Spelled code d.name column

open Document in
/-- Up to the first header that is discarded, each declaration has its header in code.  Below
    that header no code opens a struct, so that whatever is declared there is commented out. -/
theorem headerInCode_of_no_discard (allNames : Bool) {source : Text} {src : StructSource}
    {before behind : List Finding} (hsplit : findings source = before ++ .struct src :: behind) :
    ((∀ name, .noBrace name ∉ before) →
      (src.declaration allNames).HeaderInCode (sourceLines source)) ∧
    ∀ name, .noBrace name ∈ before → ∀ number code, src.headerLine ≤ number →
      Comment.codeAt? (sourceLines source) number = some code → '{' ∉ code := by
  have hrun := scan_run .start (sourceLines source)
  have hstart := Follows.start (sourceLines source)
  obtain ⟨s, lines, t, rest, hbefore, hstep⟩ := hrun.exists_step hsplit
  cases hstep with
  | @struct raw below rest h first hfind hopen =>
      constructor
      · intro hnone
        have hs := hbefore.follows hstart hnone
        exact ⟨(s.line raw).code, h.nameColumn (s.line raw).code, hs.codeAt?, rfl,
          Header.find?_spelled hfind⟩
      · intro name hname
        exact hbefore.noBrace_below hstart hname

/-- A struct behind a commented one, and a header without a brace. -/
def shownStruct : Text := "/* type X struct \x7b\n*/ type A struct \x7b a int \x7d\ntype B struct /*"

open Document in
/-- The header of a struct that stands above a discarded one is in the code. -/
theorem headerInCode_of_no_discard_shown :
    ∃ src, findings shownStruct = [.struct src, .noBrace ['B']] ∧
    (src.declaration true).HeaderInCode (sourceLines shownStruct) := by
  have hfound : findings shownStruct = [] ++ .struct ⟨1, ['A'], 8,
      ⟨[⟨1, ("*/ type A struct \x7b a int \x7d" : String).toList, 18, " a int ".toList, false⟩],
        .closed,
        ⟨1, ("*/ type A struct \x7b a int \x7d" : String).toList, 18, " a int \x7d".toList, false⟩,
        ["type B struct /*".toList]⟩⟩ :: [.noBrace ['B']] := by decide +kernel
  exact ⟨_, hfound, (headerInCode_of_no_discard true hfound).1 nofun⟩

/-- A header without a brace in front of a comment with a struct. -/
def hiddenStruct : Text := "type A struct /*\ntype B struct \x7b\x7d\n*/"

/-- Below the discarded header the struct in the comment is declared. -/
theorem declared_hiddenStruct : ∃ d ∈ Document.declarations false hiddenStruct,
    ¬ d.HeaderInCode (sourceLines hiddenStruct) := by
  have hmem : (⟨['B'], [], ⟨1, 0, 1, 16⟩, ⟨1, 5, 6⟩, true⟩ : Declaration) ∈
      Document.declarations false hiddenStruct := by decide +kernel
  refine ⟨_, hmem, ?_⟩
  rintro ⟨code, column, hcode, -, hidentifier, before, between, behind, hsplit, -⟩
  have hempty : Comment.codeAt? (sourceLines hiddenStruct) 1 = some [] := by decide +kernel
  rw [show Declaration.line _ = 1 from rfl, hempty] at hcode
  -- the line has no code left, so that nothing is spelled on it
  have hnil := congrArg List.length ((Option.some.inj hcode).trans hsplit)
  simp only [List.length_nil, List.length_append, List.length_cons] at hnil
  omega

end GoLayout
