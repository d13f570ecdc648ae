import GoLayout.Proofs.Document.Reading

/-! # Documents behind each other

    A document that ends at rest can be followed by any other one: the two together declare what
    the first one declares and then what the second one does, further down
    (`declarations_append`).  The route:

    * a step that does not reach the end of the document is the same step with more lines below
      (`Step.append`);
    * a step further down is the same step further down (`Step.shift`);
    * both carry over to runs, and the scan of the second document starts in the state that the
      first one ends in. -/

namespace GoLayout

/-! ## The lines of two documents -/

namespace Text

/-- Texts with a separator between them are divided there. -/
theorem splitOn_append (sep : Char) (t rest : Text) :
    splitOn sep (t ++ sep :: rest) = splitOn sep t ++ splitOn sep rest := by
  induction t with
  | nil => exact if_pos rfl
  | cons c t ih =>
      rw [List.cons_append, splitOn_cons, splitOn_cons, ih]
      split
      · rfl
      · cases hsplit : splitOn sep t with
        | nil => exact absurd hsplit (splitOn_ne_nil sep t)
        | cons part parts => rfl

end Text

/-- The lines of a document below another one come behind its lines. -/
theorem sourceLines_append (first second : Text) :
    sourceLines (first ++ '\n' :: second) = sourceLines first ++ sourceLines second := by
  rw [sourceLines, Text.splitOn_append, List.map_append]
  rfl

/-! ## More lines below -/

/-- The body with more lines below it. -/
def Body.appendBelow (more : List Text) (b : Body) : Body := { b with below := b.below ++ more }

/-- The finding with more lines below it. -/
def Finding.appendBelow (more : List Text) : Finding → Finding
  | struct s => struct { s with body := s.body.appendBelow more }
  | noBrace name => noBrace name

/-- The finding does not hang on the end of the document: it is a struct that ends above it. -/
def Finding.EndsAbove : Finding → Prop
  | struct s => s.body.ending ≠ .endOfInput
  | noBrace _ => False

namespace Body

variable {lines rest : List Text} {l first : CodeLine}

theorem openingBelow?_append (more : List Text) {number : Nat} {inBlock : Bool}
    (h : openingBelow? number inBlock lines = some (first, rest)) :
    openingBelow? number inBlock (lines ++ more) = some (first, rest ++ more) := by
  induction lines generalizing number inBlock with
  | nil => exact nomatch h
  | cons raw below ih =>
      rw [List.cons_append, openingBelow?]
      rw [openingBelow?] at h
      cases hbrace : (CodeLine.ofRaw number raw inBlock).afterBrace? with
      | none =>
          rw [hbrace] at h
          exact ih h
      | some l =>
          rw [hbrace] at h
          obtain ⟨rfl, rfl⟩ := Prod.mk.inj (Option.some.inj h)
          rfl

/-- An opening brace that is found is found as well with more lines below. -/
theorem opening?_append (more : List Text) (h : opening? l lines = some (first, rest)) :
    opening? l (lines ++ more) = some (first, rest ++ more) := by
  rw [opening?] at h ⊢
  cases hbrace : l.afterBrace? with
  | none =>
      rw [hbrace] at h
      exact openingBelow?_append more h
  | some l' =>
      rw [hbrace] at h
      obtain ⟨rfl, rfl⟩ := Prod.mk.inj (Option.some.inj h)
      rfl

/-- A body that ends above the end of the document does not depend on what is below. -/
theorem readFrom_append (more : List Text) (lines : List Text) :
    ∀ (depth : Int) (l : CodeLine), (readFrom depth l lines).ending ≠ .endOfInput →
      readFrom depth l (lines ++ more) = (readFrom depth l lines).appendBelow more := by
  induction lines with
  | nil =>
      intro depth l h
      -- at the end of the document only a closing brace ends the body above it
      have hclosed : (Bracket.scanBraces l.code depth).2.isSome = true := by
        cases hclose : (Bracket.scanBraces l.code depth).2 with
        | some column => rfl
        | none => rw [readFrom, hclose] at h; exact absurd rfl h
      rw [List.nil_append, readFrom_eq, readFrom_eq, if_pos hclosed, if_pos hclosed]
      rfl
  | cons raw below ih =>
      intro depth l h
      rw [readFrom] at h
      rw [List.cons_append, readFrom, readFrom]
      dsimp only at h ⊢
      split at h
      · next hclosed => rw [if_pos hclosed, if_pos hclosed]; rfl
      · next hopen =>
        rw [if_neg hopen, if_neg hopen]
        split at h
        · next hheader => rw [if_pos hheader, if_pos hheader]; rfl
        · next hnone => rw [if_neg hnone, if_neg hnone, ih _ _ h]; rfl

end Body

/-! ## Further down -/

/-- The body some lines further down. -/
def Body.shift (k : Nat) (b : Body) : Body :=
  { b with parts := b.parts.map (CodeLine.shift k), last := b.last.shift k }

/-- The struct some lines further down. -/
def StructSource.shift (k : Nat) (s : StructSource) : StructSource :=
  { s with headerLine := s.headerLine + k, body := s.body.shift k }

/-- The finding some lines further down. -/
def Finding.shift (k : Nat) : Finding → Finding
  | struct s => struct (s.shift k)
  | noBrace name => noBrace name

/-- The state some lines further down. -/
def ReadState.shift (k : Nat) (s : ReadState) : ReadState := { s with number := s.number + k }

/-- The declaration some lines further down: its span, its name and its fields. -/
def Declaration.shift (k : Nat) (d : Declaration) : Declaration where
  name := d.name
  fields := d.fields.map (Field.shift k)
  span := { d.span with startLine := d.span.startLine + k, endLine := d.span.endLine + k }
  nameLocation := { d.nameLocation with line := d.nameLocation.line + k }
  terminated := d.terminated

theorem CodeLine.ofRaw_shift (k number : Nat) (raw : Text) (inBlock : Bool) :
    CodeLine.ofRaw (number + k) raw inBlock = (CodeLine.ofRaw number raw inBlock).shift k := rfl

/-- Where the first brace stands does not depend on the number of the line. -/
theorem CodeLine.afterBrace?_shift (k : Nat) (l : CodeLine) :
    (l.shift k).afterBrace? = l.afterBrace?.map (CodeLine.shift k) := by
  show (Text.cutAt? '{' l.code).map _ = ((Text.cutAt? '{' l.code).map _).map _
  rw [Option.map_map]
  rfl

theorem ReadState.line_shift (k : Nat) (s : ReadState) (raw : Text) :
    (s.shift k).line raw = (s.line raw).shift k := CodeLine.ofRaw_shift k s.number raw s.inBlock

namespace Body

/-- A line and those below it, some lines further down. -/
def shiftOpening (k : Nat) (o : CodeLine × List Text) : CodeLine × List Text := (o.1.shift k, o.2)

theorem openingBelow?_shift (k : Nat) (lines : List Text) :
    ∀ (number : Nat) (inBlock : Bool), openingBelow? (number + k) inBlock lines =
      (openingBelow? number inBlock lines).map (shiftOpening k) := by
  induction lines with
  | nil => intro number inBlock; rfl
  | cons raw below ih =>
      intro number inBlock
      have hnext : number + k + 1 = number + 1 + k := Nat.add_right_comm number k 1
      rw [openingBelow?, openingBelow?, CodeLine.ofRaw_shift, CodeLine.afterBrace?_shift]
      cases (CodeLine.ofRaw number raw inBlock).afterBrace? with
      | none =>
          -- the number is counted on from the shifted one, and not shifted behind the count
          show openingBelow? (number + k + 1) _ below = _
          rw [hnext]
          exact ih _ _
      | some l => rfl

/-- The opening brace of a line further down is found further down. -/
theorem opening?_shift (k : Nat) (l : CodeLine) (lines : List Text) :
    opening? (l.shift k) lines = (opening? l lines).map (shiftOpening k) := by
  have hnext : (l.shift k).number + 1 = l.number + 1 + k := Nat.add_right_comm l.number k 1
  rw [opening?, opening?, CodeLine.afterBrace?_shift]
  cases l.afterBrace? with
  | none =>
      show openingBelow? ((l.shift k).number + 1) l.inBlock lines = _
      rw [hnext]
      exact openingBelow?_shift k lines _ _
  | some l' => rfl

theorem partOf_shift (k : Nat) (depth : Int) (l : CodeLine) (close : Option Nat) :
    partOf depth (l.shift k) close = (partOf depth l close).map (CodeLine.shift k) := by
  rw [partOf, partOf]
  split
  · rfl
  · rfl

theorem prepend_shift (k : Nat) (parts : List CodeLine) (b : Body) :
    (prepend parts b).shift k = prepend (parts.map (CodeLine.shift k)) (b.shift k) := by
  rw [prepend, shift, List.map_append]
  rfl

/-- A body further down is the same body further down. -/
theorem readFrom_shift (k : Nat) (lines : List Text) :
    ∀ (depth : Int) (l : CodeLine),
      readFrom depth (l.shift k) lines = (readFrom depth l lines).shift k := by
  induction lines with
  | nil =>
      intro depth l
      rw [readFrom, readFrom, partOf_shift]
      rfl
  | cons raw below ih =>
      intro depth l
      have hnext : (l.shift k).number + 1 = l.number + 1 + k := Nat.add_right_comm l.number k 1
      have hcode : (l.shift k).code = l.code := rfl
      have hblock : (l.shift k).inBlock = l.inBlock := rfl
      rw [readFrom, readFrom, partOf_shift, hnext, hcode, hblock, CodeLine.ofRaw_shift]
      dsimp only
      rw [ih]
      -- the depth and the code below decide how the body goes on, and neither has moved
      have hnextCode : ((CodeLine.ofRaw (l.number + 1) raw l.inBlock).shift k).code =
          (CodeLine.ofRaw (l.number + 1) raw l.inBlock).code := rfl
      rw [hnextCode]
      by_cases hclosed : (Bracket.scanBraces l.code depth).2.isSome = true
      · rw [if_pos hclosed, if_pos hclosed]
        rfl
      · rw [if_neg hclosed, if_neg hclosed]
        by_cases hheader : (decide ((Bracket.scanBraces l.code depth).1 = 1) &&
            (Header.leading? (CodeLine.ofRaw (l.number + 1) raw l.inBlock).code).isSome) = true
        · rw [if_pos hheader, if_pos hheader]
          rfl
        · rw [if_neg hheader, if_neg hheader]
          exact (prepend_shift k _ _).symm

end Body

namespace StructSource

/-- A struct further down is declared further down. -/
theorem declaration_shift (allNames : Bool) (k : Nat) (s : StructSource) :
    (s.shift k).declaration allNames = (s.declaration allNames).shift k := by
  have hfields : (s.shift k).fields allNames = (s.fields allNames).map (Field.shift k) := by
    have hfeed := OpenRun.feedAll_shift k s.body.parts OpenRun.start
    rw [fields_eq, fields_eq]
    show (OpenRun.allRuns (OpenRun.start.feedAll (s.body.parts.map (CodeLine.shift k)))).flatMap
      (FieldRun.fields allNames) = _
    rw [show OpenRun.start.feedAll (s.body.parts.map (CodeLine.shift k)) = _ from hfeed,
      OpenRun.allRuns_shift, List.flatMap_map, List.map_flatMap]
    exact List.flatMap_congr fun r _ => FieldRun.fields_shift allNames k r
  rw [declaration, hfields]
  rfl

end StructSource

namespace Document

variable {s t : ReadState} {lines rest : List Text} {found : List Finding}

/-- A step that does not end at the end of the lines is the same with more lines below. -/
theorem Step.append (more : List Text) (h : Step s lines found t rest)
    (hends : ∀ f ∈ found, f.EndsAbove) :
    Step s (lines ++ more) (found.map (Finding.appendBelow more)) t (rest ++ more) := by
  cases h with
  | skip hfind => exact .skip hfind
  | discard _ _ => exact (hends _ List.mem_cons_self).elim
  | @struct raw below rest h first hfind hopen =>
      have hends' : (Body.read first rest).ending ≠ .endOfInput := hends _ List.mem_cons_self
      have hread : Body.read first (rest ++ more) = (Body.read first rest).appendBelow more :=
        Body.readFrom_append more rest 1 first hends'
      have hstep := Step.struct hfind (Body.opening?_append more hopen)
      rw [hread] at hstep
      exact hstep

/-- With more lines below, a run that ends above them is the same run. -/
theorem Run.append (more : List Text) (h : Run s lines found t rest)
    (hends : ∀ f ∈ found, f.EndsAbove) :
    Run s (lines ++ more) (found.map (Finding.appendBelow more)) t (rest ++ more) := by
  induction h with
  | done s lines => exact .done s (lines ++ more)
  | step hstep _ ih =>
      rw [List.map_append]
      exact .step (hstep.append more fun f hf => hends f (List.mem_append_left _ hf))
        (ih fun f hf => hends f (List.mem_append_right _ hf))

/-- A step further down is the same step further down. -/
theorem Step.shift (k : Nat) (h : Step s lines found t rest) :
    Step (s.shift k) lines (found.map (Finding.shift k)) (t.shift k) rest := by
  have hnext : ∀ number : Nat, number + k + 1 = number + 1 + k :=
    fun number => Nat.add_right_comm number k 1
  -- in each case the premises do not see the number, and the state behind it is shifted
  cases h with
  | @skip raw _ hfind =>
      have hstep := @Step.skip (s.shift k) raw rest (by rw [s.line_shift k]; exact hfind)
      have hskip : (s.shift k).skip ((s.shift k).line raw) = (s.skip (s.line raw)).shift k := by
        show ReadState.mk (s.number + k + 1) _ _ = ReadState.mk (s.number + 1 + k) _ _
        rw [hnext]
        rfl
      rw [hskip] at hstep
      exact hstep
  | @discard raw _ h hfind hopen =>
      have hstep := Step.discard (s := s.shift k) (by rw [s.line_shift k]; exact hfind)
        (show Body.opening? (h.rest ((s.shift k).line raw)) rest = none by
          rw [s.line_shift k]
          exact (Body.opening?_shift k _ rest).trans (by rw [hopen]))
      have hdiscard : (s.shift k).discard = s.discard.shift k := by
        show ReadState.mk (s.number + k + 1) _ _ = ReadState.mk (s.number + 1 + k) _ _
        rw [hnext]
        rfl
      rw [hdiscard] at hstep
      exact hstep
  | @struct raw below rest h first hfind hopen =>
      have hstep := Step.struct (s := s.shift k) (by rw [s.line_shift k]; exact hfind)
        (show Body.opening? (h.rest ((s.shift k).line raw)) below = some (first.shift k, rest) by
          rw [s.line_shift k]
          exact (Body.opening?_shift k _ below).trans (by rw [hopen]))
      have hread : Body.read (first.shift k) rest = (Body.read first rest).shift k :=
        Body.readFrom_shift k rest 1 first
      have hbehind : (s.shift k).behind ((Body.read first rest).shift k) =
          (s.behind (Body.read first rest)).shift k := by
        show ReadState.mk ((Body.read first rest).last.number + k + 1) _ _ =
          ReadState.mk ((Body.read first rest).last.number + 1 + k) _ _
        rw [hnext]
        rfl
      rw [hread, hbehind] at hstep
      exact hstep

/-- Further down a run is the same run, further down. -/
theorem Run.shift (k : Nat) (h : Run s lines found t rest) :
    Run (s.shift k) lines (found.map (Finding.shift k)) (t.shift k) rest := by
  induction h with
  | done s lines => exact .done (s.shift k) lines
  | step hstep _ ih =>
      rw [List.map_append]
      exact .step (hstep.shift k) ih

/-- A document at whose end reading is at rest. -/
structure EndsAtRest (source : Text) : Prop where
  noComment : (scan .start (sourceLines source)).2.inBlock = false
  noGroup : (scan .start (sourceLines source)).2.group = 0

/-- The state behind a document that ends at rest is the start, further down. -/
theorem EndsAtRest.state {source : Text} (h : EndsAtRest source) :
    (scan .start (sourceLines source)).2 = ReadState.start.shift (sourceLines source).length := by
  have hnumber := scan_number (sourceLines source)
  obtain ⟨hcomment, hgroup⟩ := h
  cases hstate : (scan .start (sourceLines source)).2 with
  | mk number inBlock group =>
      rw [hstate] at hnumber hcomment hgroup
      dsimp only at hnumber hcomment hgroup
      rw [hnumber, hcomment, hgroup, ReadState.shift, ReadState.start, Nat.zero_add]

/-- More lines below change no declaration. -/
theorem filterMap_appendBelow (allNames : Bool) (more : List Text) (found : List Finding) :
    (found.map (Finding.appendBelow more)).filterMap (Finding.declaration? allNames) =
      found.filterMap (Finding.declaration? allNames) := by
  rw [List.filterMap_map]
  refine List.filterMap_congr fun f _ => ?_
  cases f with
  | struct s => rfl
  | noBrace name => rfl

/-- What is found further down is declared further down. -/
theorem filterMap_shift (allNames : Bool) (k : Nat) (found : List Finding) :
    (found.map (Finding.shift k)).filterMap (Finding.declaration? allNames) =
      (found.filterMap (Finding.declaration? allNames)).map (Declaration.shift k) := by
  rw [List.filterMap_map, List.map_filterMap]
  refine List.filterMap_congr fun f _ => ?_
  cases f with
  | struct s => exact congrArg some (s.declaration_shift allNames k)
  | noBrace name => rfl

/-- Where no header is discarded and every declaration is terminated, no finding hangs on the end
    of the document. -/
theorem endsAbove_of_terminated {allNames : Bool} {source : Text}
    (hbrace : ∀ name, .noBrace name ∉ findings source)
    (hterminated : ∀ d ∈ declarations allNames source, d.terminated = true) :
    ∀ f ∈ findings source, f.EndsAbove := by
  intro f hf
  cases f with
  | noBrace name => exact hbrace name hf
  | struct s =>
      have hclosed := hterminated (s.declaration allNames)
        (List.mem_filterMap.mpr ⟨.struct s, hf, rfl⟩)
      have hending : s.body.ending = .closed := of_decide_eq_true hclosed
      show s.body.ending ≠ .endOfInput
      rw [hending]
      exact nofun

end Document

open Document in
/-- A document in which no header is discarded and every declaration is terminated, and which
    ends outside of comments and type groups, can be followed by any other one. -/
theorem declarations_append (allNames : Bool) {first : Text} (second : Text)
    (hbrace : ∀ name, .noBrace name ∉ findings first)
    (hterminated : ∀ d ∈ declarations allNames first, d.terminated = true)
    (hrest : EndsAtRest first) :
    declarations allNames (first ++ '\n' :: second) =
      declarations allNames first ++
        (declarations allNames second).map (Declaration.shift (sourceLines first).length) := by
  have hfirst := (scan_run .start (sourceLines first)).append (sourceLines second)
    (endsAbove_of_terminated hbrace hterminated)
  have hsecond := (scan_run .start (sourceLines second)).shift (sourceLines first).length
  -- behind the first document the state is that of a start, moved down by its lines
  rw [hrest.state, List.nil_append] at hfirst
  rw [declarations, findings, sourceLines_append, (hfirst.trans hsecond).scan_eq, scan_nil,
    List.append_nil, List.filterMap_append, filterMap_appendBelow, filterMap_shift]
  rfl

/-- A struct whose closing brace comes behind one in a comment. -/
def bracesInComment : Text := "type A struct \x7b\n\ta int /* \x7b\n\x7d */; b string\n\x7d"

/-- A struct on one line. -/
def oneLineStruct : Text := "type B struct\x7b c, d bool \x7d"

/-- A document with braces in its comments above a struct on one line. -/
theorem declarations_append_inComment :
    Document.declarations true (bracesInComment ++ '\n' :: oneLineStruct) =
      Document.declarations true bracesInComment ++
        (Document.declarations true oneLineStruct).map (Declaration.shift 4) := by
  have hdeclared : ∀ f ∈ Document.findings bracesInComment,
      (f.declaration? true).isSome = true := by decide +kernel
  refine declarations_append true _ (fun name hmem => ?_) ?_ ⟨?_, ?_⟩
  · exact nomatch hdeclared _ hmem
  · decide +kernel
  · decide +kernel
  · decide +kernel

end GoLayout
