import GoLayout.Document.Body
import GoLayout.Proofs.Source.Bracket
import GoLayout.Proofs.Source.Plain

/-! # Reading a body line by line

    A body is read line after line; what one line hands to the next is the depth and whether
    a block comment is open.  A line passes (`Passes`) when it closes nothing, opens no
    comment that lasts, and starts no header at depth one.  Passing lines compose:

    * a run of them only adds its lines at depth one (`readBelow_append`);
    * the closing brace behind them ends the body (`read_closed`). -/

namespace GoLayout

namespace Body

/-- Puts lines in front of the lines at depth one. -/
def prepend (parts : List CodeLine) (b : Body) : Body := { b with parts := parts ++ b.parts }

theorem prepend_prepend (ps qs : List CodeLine) (b : Body) :
    prepend ps (prepend qs b) = prepend (ps ++ qs) b := by
  simp [prepend, List.append_assoc]

/-- The body from the line below a given one on. -/
def readBelow (depth : Int) (l : CodeLine) : List Text → Body
  | [] => ⟨[], .endOfInput, l, []⟩
  | raw :: below =>
      if depth = 1 &&
          (Header.leading? (CodeLine.ofRaw (l.number + 1) raw l.inBlock).code).isSome then
        ⟨[], .beforeHeader, l, raw :: below⟩
      else readFrom depth (CodeLine.ofRaw (l.number + 1) raw l.inBlock) below

/-- Reading a line and then what is below it. -/
theorem readFrom_eq (depth : Int) (l : CodeLine) (lines : List Text) :
    readFrom depth l lines =
      prepend (partOf depth l (Bracket.scanBraces l.code depth).2)
        (if (Bracket.scanBraces l.code depth).2.isSome then ⟨[], .closed, l, lines⟩
          else readBelow (Bracket.scanBraces l.code depth).1 l lines) := by
  -- with and without a line below; the scan of this line decides in both cases
  cases lines with
  | nil =>
      rw [readFrom]
      cases (Bracket.scanBraces l.code depth).2 with
      | none => simp [prepend, readBelow]
      | some close => simp [prepend]
  | cons raw below =>
      rw [readFrom]
      cases (Bracket.scanBraces l.code depth).2 with
      | none =>
          simp only [Option.isSome_none, Bool.false_eq_true, if_false, readBelow]
          split
          · simp [prepend]
          · rfl
      | some close => simp [prepend]

/-- A line that leaves the body open is a part of it, and reading goes on below. -/
theorem readFrom_of_open {depth depth' : Int} {l : CodeLine}
    (h : Bracket.scanBraces l.code depth = (depth', none)) (lines : List Text) :
    readFrom depth l lines = prepend (partOf depth l none) (readBelow depth' l lines) := by
  rw [readFrom_eq, h]
  rfl

/-- A line that does not start a declaration at depth one is read as a line of the body. -/
theorem readBelow_cons {depth : Int} {l : CodeLine} {raw : Text} (below : List Text)
    (h : depth = 1 →
      Header.leading? (CodeLine.ofRaw (l.number + 1) raw l.inBlock).code = none) :
    readBelow depth l (raw :: below) =
      readFrom depth (CodeLine.ofRaw (l.number + 1) raw l.inBlock) below := by
  rw [readBelow]
  refine if_neg ?_
  intro hstop
  rw [Bool.and_eq_true, decide_eq_true_eq] at hstop
  rw [h hstop.1] at hstop
  exact Bool.false_ne_true hstop.2

/-! ## Passing lines -/

/-- The code of a line that starts outside block comments. -/
def codeOf (raw : Text) : Text := (Comment.strip raw false).1

/-- The depth behind a line that starts at a given depth. -/
def depthBehind (depth : Int) (raw : Text) : Int :=
  depth + Bracket.braceSum (glyphs (codeOf raw))

/-- Reading at a given depth goes on below the line. -/
structure Passes (depth : Int) (raw : Text) : Prop where
  noComment : (Comment.strip raw false).2 = false
  noHeader : depth = 1 → Header.leading? (codeOf raw) = none
  inside : Bracket.StaysInside depth (glyphs (codeOf raw))

/-- The depth behind some lines. -/
def depthBehindAll (depth : Int) (lines : List Text) : Int := lines.foldl depthBehind depth

/-- Reading goes on below all of the lines, the first one starting at a given depth. -/
def PassesAll : Int → List Text → Prop
  | _, [] => True
  | depth, raw :: below => Passes depth raw ∧ PassesAll (depthBehind depth raw) below

/-- The lines at depth one among passing lines, which are numbered from a given one on. -/
def partsOf (depth : Int) (number : Nat) : List Text → List CodeLine
  | [] => []
  | raw :: below =>
      partOf depth (CodeLine.ofRaw number raw false) none ++
        partsOf (depthBehind depth raw) (number + 1) below

theorem depthBehindAll_append (depth : Int) (a b : List Text) :
    depthBehindAll depth (a ++ b) = depthBehindAll (depthBehindAll depth a) b :=
  List.foldl_append

/-- Some lines pass together if the first ones do, and the others at the depth that those leave. -/
theorem passesAll_append (a b : List Text) :
    ∀ depth, PassesAll depth (a ++ b) ↔
      PassesAll depth a ∧ PassesAll (depthBehindAll depth a) b := by
  induction a with
  | nil => intro depth; exact ⟨fun h => ⟨trivial, h⟩, fun h => h.2⟩
  | cons raw a ih =>
      intro depth
      show _ ∧ PassesAll _ (a ++ b) ↔ (_ ∧ PassesAll _ a) ∧ PassesAll (depthBehindAll _ a) b
      rw [ih, and_assoc]

/-- The depth-one lines of two parts of a body are those of both, each at its own depth and number.
    -/
theorem partsOf_append (a b : List Text) :
    ∀ (depth : Int) (number : Nat), partsOf depth number (a ++ b) =
      partsOf depth number a ++ partsOf (depthBehindAll depth a) (number + a.length) b := by
  induction a with
  | nil => intro depth number; rfl
  | cons raw a ih =>
      intro depth number
      show _ ++ partsOf _ _ (a ++ b) = (_ ++ partsOf _ _ a) ++ _
      rw [ih, List.append_assoc]
      have hlen : number + (raw :: a).length = number + 1 + a.length := by
        rw [List.length_cons]
        omega
      rw [hlen]
      rfl

theorem Passes.scanBraces {depth : Int} {raw : Text} (h : Passes depth raw) :
    Bracket.scanBraces (codeOf raw) depth = (depthBehind depth raw, none) :=
  Bracket.closing_eq _ _ h.inside

/-- Passing lines give their parts and hand on the depth. -/
theorem readBelow_append (rest : List Text) (lines : List Text) :
    ∀ (depth : Int) (l : CodeLine), l.inBlock = false → PassesAll depth lines →
      ∃ l', l'.number = l.number + lines.length ∧ l'.inBlock = false ∧
        readBelow depth l (lines ++ rest) =
          prepend (partsOf depth (l.number + 1) lines)
            (readBelow (depthBehindAll depth lines) l' rest) := by
  induction lines with
  | nil => intro depth l hl _; exact ⟨l, rfl, hl, rfl⟩
  | cons raw lines ih =>
      intro depth l hl h
      obtain ⟨hraw, hlines⟩ := h
      have hnext : (CodeLine.ofRaw (l.number + 1) raw false).inBlock = false := hraw.noComment
      -- the line that is read last is a different one, so the induction is for every last line
      obtain ⟨l', hnumber, hblock, hread⟩ := ih _ _ hnext hlines
      refine ⟨l', ?_, hblock, ?_⟩
      · rw [hnumber, List.length_cons]
        show l.number + 1 + lines.length = _
        omega
      · rw [List.cons_append,
          readBelow_cons _ (by rw [hl]; exact hraw.noHeader), hl,
          readFrom_of_open hraw.scanBraces, hread, prepend_prepend]
        rfl

/-! ## The closing brace -/

/-- The raw line that closes a body: blanks and a brace. -/
def closingLine (margin : Text) : Text := margin ++ ['}']

theorem closingLine_plain {margin : Text} (h : Text.AllBlank margin) :
    Plain (closingLine margin) :=
  (Plain.of_allBlank h).append (Plain.cons (by decide) Plain.nil)

/-- The last line of a closed body. -/
def closer (number : Nat) (margin : Text) : CodeLine :=
  ⟨number, closingLine margin, 0, closingLine margin, false⟩

/-- What the last line of a closed body holds in front of the brace. -/
def closerPart (number : Nat) (margin : Text) : CodeLine :=
  ⟨number, closingLine margin, 0, margin, false⟩

/-- The line of a closing brace has no comment and is code as it stands. -/
theorem ofRaw_closingLine {margin : Text} (h : Text.AllBlank margin) (number : Nat) :
    CodeLine.ofRaw number (closingLine margin) false = closer number margin := by
  rw [CodeLine.ofRaw, (closingLine_plain h).strip_eq]
  rfl

/-- The brace behind blanks closes a body at its column. -/
theorem scanBraces_closingLine {margin : Text} (h : Text.AllBlank margin) :
    Bracket.scanBraces (closingLine margin) 1 = (0, some margin.length) := by
  rw [Bracket.scanBraces, closingLine, (Plain.of_allBlank h).glyphs_append]
  induction margin with
  | nil => rfl
  | cons c margin ih =>
      have hc := h c List.mem_cons_self
      have hopen : c ≠ '{' := by rintro rfl; exact absurd hc (by decide)
      have hclose : c ≠ '}' := by rintro rfl; exact absurd hc (by decide)
      have hrest := ih fun d hd => h d (List.mem_cons_of_mem _ hd)
      show Bracket.closing 1 (⟨c, true⟩ :: (liveGlyphs margin ++ glyphs ['}'])) = _
      rw [Bracket.closing, if_neg (by simp [Glyph.isLive, hclose])]
      rw [show Bracket.brace ⟨c, true⟩ = 0 by
        simp [Bracket.brace, Glyph.isLive, hopen, hclose]]
      show ((Bracket.closing 1 _).1, (Bracket.closing 1 _).2.map (· + 1)) = _
      rw [hrest]
      rfl

/-- Blanks and a brace are no header. -/
theorem leading?_closingLine {margin : Text} (h : Text.AllBlank margin) :
    Header.leading? (closingLine margin) = none := by
  rw [Header.leading?, closingLine, Text.trimLeft_append h]
  rfl

/-- A body whose opening line ends with its brace, with the given lines inside. -/
def closedBody (first : CodeLine) (lines : List Text) (margin : Text) (below : List Text) :
    Body where
  parts := first :: (partsOf 1 (first.number + 1) lines ++
    [closerPart (first.number + 1 + lines.length) margin])
  ending := .closed
  last := closer (first.number + 1 + lines.length) margin
  below := below

/-- Passing lines that come back to depth one, and a closing brace, make a closed body. -/
theorem read_closed {first : CodeLine} {lines : List Text} {margin : Text}
    (below : List Text) (hcode : first.code = []) (hblock : first.inBlock = false)
    (hpass : PassesAll 1 lines) (hdepth : depthBehindAll 1 lines = 1)
    (hmargin : Text.AllBlank margin) :
    read first (lines ++ closingLine margin :: below) = closedBody first lines margin below := by
  have hfirst : Bracket.scanBraces first.code 1 = (1, none) := by rw [hcode]; rfl
  obtain ⟨l, hnumber, hl, hread⟩ :=
    readBelow_append (closingLine margin :: below) lines 1 first hblock hpass
  have hlast : readBelow 1 l (closingLine margin :: below) =
      ⟨[closerPart (first.number + 1 + lines.length) margin], .closed,
        closer (first.number + 1 + lines.length) margin, below⟩ := by
    have hbehind : l.number + 1 = first.number + 1 + lines.length := by omega
    have hraw := ofRaw_closingLine hmargin (l.number + 1)
    rw [hbehind] at hraw
    rw [readBelow_cons _ (by rw [hl, hbehind, hraw]; exact fun _ => leading?_closingLine hmargin),
      hl, hbehind, hraw, readFrom_eq]
    rw [show (closer (first.number + 1 + lines.length) margin).code = closingLine margin from rfl,
      scanBraces_closingLine hmargin]
    simp [prepend, partOf, closer, closerPart, closingLine]
  rw [read, readFrom_of_open hfirst, hread, hdepth, hlast]
  rfl

end Body

end GoLayout
