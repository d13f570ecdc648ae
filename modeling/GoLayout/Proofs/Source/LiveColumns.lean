import GoLayout.Proofs.Source.Bracket
import GoLayout.Proofs.Source.Lexer
import GoLayout.Source.Literal

/-! # Live columns

    Literals are followed twice: while comments are taken out of a line, where an escape is two
    characters at once, and in the code that is left, where it is a state of its own.  Both agree at
    every column, and so do the counts that are kept along the code with the line itself
    (`liveChars_strip`).  The route:

    * stripping keeps the mode in which it passes each character (`Comment.passFrom`), and the marks
      of the code follow it character by character (`Comment.glyphsFrom_passFrom`);
    * the lexer marks the columns of the line that stand outside of comments and literals
      (`Lexer.marks`), and the code has the same brackets and semicolons at the same columns as
      these marks (`Comment.strip_mirrors`);
    * a count along the code is the count along the marks (`Mirrors.closing_eq`,
      `Mirrors.parenSum_eq`, `Mirrors.cut_eq`). -/

namespace GoLayout

namespace Comment

/-! ## What stripping passes -/

/-- Puts a blank of a block comment in front, if the comment is closed on the line. -/
def passBlank (r : List (Char × Mode)) : List (Char × Mode) :=
  if r.isEmpty then [] else (' ', .block) :: r

/-- The characters that stripping leaves of the rest of a line, each with the mode in which it is
    passed. -/
def passFrom : Mode → Text → List (Char × Mode)
  | .code, [] => []
  | .code, '/' :: '/' :: _ => []
  | .code, '/' :: '*' :: t => (' ', .code) :: (' ', .code) :: passFrom .block t
  | .code, c :: t => (c, .code) :: passFrom (if isQuote c then .literal c else .code) t
  | .literal _, [] => []
  | .literal q, [c] => [(c, .literal q)]
  | .literal q, c :: d :: t =>
    if c = '\\' ∧ q ≠ rawQuote then (c, .literal q) :: (d, .literal q) :: passFrom (.literal q) t
    else (c, .literal q) :: passFrom (if c = q then .code else .literal q) (d :: t)
  | .block, [] => []
  | .block, '*' :: '/' :: t => (' ', .block) :: (' ', .block) :: passFrom .code t
  | .block, _ :: t => passBlank (passFrom .block t)

/-- The characters that stripping leaves of a line. -/
def pass (line : Text) (inBlock : Bool) : List (Char × Mode) :=
  passFrom (if inBlock then .block else .code) line

/-- What is blanked out beside the modes is blanked out of the text. -/
theorem map_fst_passBlank {r : List (Char × Mode)} {t : Text × Bool} (h : r.map Prod.fst = t.1) :
    (passBlank r).map Prod.fst = (blank t).1 := by
  rw [passBlank, blank, ← h]
  cases r <;> rfl

/-- Beside the modes stand the characters that are left of a line. -/
theorem map_fst_passFrom (m : Mode) (line : Text) :
    (passFrom m line).map Prod.fst = (stripFrom m line).1 := by
  -- the pass that keeps the modes goes case by case along with the one that does not
  fun_induction passFrom m line with
  | case1 => rfl
  | case2 t => rfl
  | case3 t ih => exact congrArg ([' ', ' '] ++ ·) ih
  | case4 c t hline hblock ih =>
      rw [stripFrom_code_cons (Lexer.noMark_iff.mpr ⟨hline, hblock⟩)]
      exact congrArg ([c] ++ ·) ih
  | case5 q => rfl
  | case6 q c => rfl
  | case7 q c d t hescape ih =>
      rw [stripFrom.eq_7, if_pos hescape]
      exact congrArg ([c, d] ++ ·) ih
  | case8 q c d t hescape ih =>
      rw [stripFrom.eq_7, if_neg hescape]
      exact congrArg ([c] ++ ·) ih
  | case9 => rfl
  | case10 t ih => exact congrArg ([' ', ' '] ++ ·) ih
  | case11 c t hclosed ih =>
      rw [stripFrom.eq_10 c t hclosed]
      exact map_fst_passBlank ih

/-- Where the reader of the code stands in a mode of stripping. -/
def Mode.quoting : Mode → Quoting
  | .literal q => .inside q
  | _ => .outside

/-- Is it the mode inside a literal? -/
def Mode.isLiteral : Mode → Bool
  | .literal _ => true
  | _ => false

/-- The character, live if it is passed outside of literals and is no quote. -/
def passGlyph (p : Char × Mode) : Glyph := ⟨p.1, !p.2.isLiteral && !isQuote p.1⟩

/-- A character is live if it stands neither in a literal nor at its ends. -/
theorem passGlyph_eq_iff {p : Char × Mode} {c : Char} : passGlyph p = ⟨c, true⟩ ↔
    p.1 = c ∧ p.2.isLiteral = false ∧ isQuote c = false := by
  rw [passGlyph, Glyph.mk.injEq]
  refine and_congr_right ?_
  rintro rfl
  simp

/-- A blank in front changes nothing behind it, since it starts no literal. -/
theorem glyphsFrom_passBlank {r : List (Char × Mode)}
    (h : glyphsFrom .outside (r.map Prod.fst) = r.map passGlyph) :
    glyphsFrom .outside ((passBlank r).map Prod.fst) = (passBlank r).map passGlyph := by
  cases r with
  | nil => rfl
  | cons p r => exact congrArg (Glyph.mk ' ' true :: ·) h

/-- The marks of the code are those of the modes in which its characters are passed. -/
theorem glyphsFrom_passFrom (m : Mode) (line : Text) (hm : m ≠ .literal '\\') :
    glyphsFrom m.quoting ((passFrom m line).map Prod.fst) = (passFrom m line).map passGlyph := by
  have hcode : Mode.code ≠ .literal '\\' := nofun
  have hopen : Mode.block ≠ .literal '\\' := nofun
  -- no quote is a backslash, so that it does not matter which of the two is asked for first
  have hquotes : isQuote '\\' = false := by decide
  fun_induction passFrom m line with
  | case1 => rfl
  | case2 t => rfl
  | case3 t ih => exact congrArg ([⟨' ', true⟩, ⟨' ', true⟩] ++ ·) (ih hopen)
  | case4 c t hline hblock ih =>
      have hnext : Quoting.next .outside c =
          (if isQuote c then Mode.literal c else .code).quoting := by
        rw [Quoting.next]
        split <;> rfl
      have hmode : (if isQuote c then Mode.literal c else .code) ≠ .literal '\\' := by
        split
        · next hquote =>
          rintro ⟨⟩
          rw [hquotes] at hquote
          exact absurd hquote Bool.false_ne_true
        · exact hcode
      rw [List.map_cons, List.map_cons, glyphsFrom, ← ih hmode, ← hnext]
      rfl
  | case5 q => rfl
  | case6 q c => rfl
  | case7 q c d t hescape ih =>
      have hne : c ≠ q := by
        rintro rfl
        exact hm (congrArg _ hescape.1)
      have hnext : Quoting.next (.inside q) c = .escaped q := by
        rw [Quoting.next, if_neg hne, if_pos hescape]
      show _ :: glyphsFrom (Quoting.next (.inside q) c) _ = _
      rw [hnext]
      exact congrArg ([⟨c, false⟩, ⟨d, false⟩] ++ ·) (ih hm)
  | case8 q c d t hescape ih =>
      have hnext : Quoting.next (.inside q) c =
          (if c = q then Mode.code else .literal q).quoting := by
        rw [Quoting.next, if_neg hescape]
        split <;> rfl
      have hmode : (if c = q then Mode.code else .literal q) ≠ .literal '\\' := by
        split
        · exact hcode
        · exact hm
      show _ :: glyphsFrom (Quoting.next (.inside q) c) _ = _
      rw [hnext, ih hmode]
      rfl
  | case9 => rfl
  | case10 t ih => exact congrArg ([⟨' ', true⟩, ⟨' ', true⟩] ++ ·) (ih hcode)
  | case11 c t hclosed ih => exact glyphsFrom_passBlank (ih hopen)

theorem map_fst_pass (line : Text) (inBlock : Bool) :
    (pass line inBlock).map Prod.fst = (strip line inBlock).1 := map_fst_passFrom _ line

/-- The literals of what is left of a line are those that the pass has seen. -/
theorem glyphs_strip (line : Text) (inBlock : Bool) :
    glyphs (strip line inBlock).1 = (pass line inBlock).map passGlyph := by
  rw [← map_fst_pass]
  cases inBlock
  · exact glyphsFrom_passFrom .code line nofun
  · exact glyphsFrom_passFrom .block line nofun

end Comment

/-! ## Counts along glyphs -/

/-- Glyphs have the same brackets and semicolons at the same columns as others, and where they end
    the others go on without any. -/
inductive Mirrors : List Glyph → List Glyph → Prop where
  | nil {hs : List Glyph} : Still hs → Mirrors [] hs
  | cons {g h : Glyph} {gs hs : List Glyph} : (∀ c ∈ structural, g.isLive c = h.isLive c) →
      Mirrors gs hs → Mirrors (g :: gs) (h :: hs)

theorem Still.cons_dead {hs : List Glyph} (h : Still hs) (c : Char) : Still (⟨c, false⟩ :: hs) := by
  intro g hg d hd
  rcases List.mem_cons.mp hg with rfl | hmem
  · rfl
  · exact h g hmem d hd

namespace Mirrors

variable {gs hs : List Glyph}

theorem still (h : Mirrors [] hs) : Still hs := by
  cases h with
  | nil h => exact h

/-- Still glyphs close no brace. -/
theorem closing_of_still (h : Still hs) (depth : Int) :
    Bracket.closing depth hs = (depth, none) := by
  induction hs generalizing depth with
  | nil => rfl
  | cons g gs ih =>
      have hg := h g List.mem_cons_self
      have hbrace : Bracket.brace g = 0 := by
        rw [Bracket.brace, hg '{' (by decide), hg '}' (by decide)]
        rfl
      rw [Bracket.closing, hg '}' (by decide), if_neg (by simp), hbrace, Int.add_zero,
        ih fun g' hg' => h g' (List.mem_cons_of_mem _ hg')]
      rfl

/-- Mirrored glyphs close at the same column. -/
theorem closing_eq (h : Mirrors gs hs) (depth : Int) :
    Bracket.closing depth gs = Bracket.closing depth hs := by
  induction h generalizing depth with
  | nil hstill => exact (closing_of_still hstill depth).symm
  | @cons g h gs hs hsame _ ih =>
      have hclose := hsame '}' (by decide)
      have hbrace : Bracket.brace g = Bracket.brace h := by
        rw [Bracket.brace, Bracket.brace, hclose, hsame '{' (by decide)]
      rw [Bracket.closing, Bracket.closing, hclose, hbrace, ih]

theorem parenSum_eq (h : Mirrors gs hs) : Bracket.parenSum gs = Bracket.parenSum hs := by
  induction h with
  | nil hstill => exact (Bracket.parenSum_of_still hstill).symm
  | @cons g h gs hs hsame _ ih =>
      have hparen : Bracket.paren g = Bracket.paren h := by
        rw [Bracket.paren, Bracket.paren, hsame '(' (by decide), hsame ')' (by decide)]
      rw [Bracket.parenSum, Bracket.parenSum, hparen, ih]

/-- The columns where segments start. -/
def starts (start : Nat) (parts : List Text) : List Nat :=
  (Segment.place start parts).map (·.start)

/-- With one more character in front the first segment starts one column earlier. -/
theorem starts_glue (c : Char) {parts : List Text} (hne : parts ≠ []) (start : Nat) :
    starts start (Text.glue c parts) = start :: (starts (start + 1) parts).tail := by
  cases parts with
  | nil => exact absurd rfl hne
  | cons part parts =>
      show start :: starts (start + (part.length + 1) + 1) parts =
        start :: starts (start + 1 + part.length + 1) parts
      rw [Nat.add_comm part.length 1, ← Nat.add_assoc]

/-- Mirrored glyphs are cut at the same columns. -/
theorem cut_eq (h : Mirrors gs hs) (n : Nesting) (start : Nat) :
    starts start (Segment.cut n gs).1 = starts start (Segment.cut n hs).1 ∧
      (Segment.cut n gs).2 = (Segment.cut n hs).2 := by
  induction h generalizing n start with
  | nil hstill =>
      rw [Segment.cut_fst_of_notDivided fun g hg => hstill g hg ';' (by decide), Segment.cut_snd,
        Segment.cut_snd, Nesting.after_of_still hstill]
      exact ⟨rfl, rfl⟩
  | @cons g h gs hs hsame _ ih =>
      have hdivides : n.divides g = n.divides h := by
        rw [Nesting.divides, Nesting.divides, hsame ';' (by decide)]
      have hnext : n.next g = n.next h := by
        rw [Nesting.next, Nesting.next, hsame '[' (by decide), hsame '(' (by decide),
          hsame ']' (by decide), hsame ')' (by decide), hsame '{' (by decide),
          hsame '}' (by decide)]
      rw [Segment.cut, Segment.cut, hdivides]
      -- both are divided here or neither is, and both go on with the same nesting
      by_cases hdiv : n.divides h = true
      · obtain ⟨hstarts, hnesting⟩ := ih n (start + 1)
        rw [if_pos hdiv, if_pos hdiv]
        exact ⟨congrArg (start :: ·) hstarts, hnesting⟩
      · obtain ⟨hstarts, hnesting⟩ := ih (n.next h) (start + 1)
        rw [if_neg hdiv, if_neg hdiv, hnext]
        refine ⟨?_, hnesting⟩
        show starts start (Text.glue g.char _) = starts start (Text.glue h.char _)
        rw [starts_glue _ (Segment.cut_ne_nil _ _), starts_glue _ (Segment.cut_ne_nil _ _), hstarts]

end Mirrors

/-! ## The columns of the line -/

namespace Lexer

/-- The characters of a line, live where they stand outside of comments and literals. -/
def marks (s : Lexer) (line : Text) : List Glyph :=
  List.zipWith (fun r c => ⟨c, r == .code⟩) (s.lexemes line) line

theorem marks_cons (s : Lexer) (c : Char) (t : Text) :
    s.marks (c :: t) = ⟨c, s.first c t == .code⟩ :: (s.next c).marks t := rfl

/-- Where a reader of code stands in a state of the lexer. -/
def quoting : Lexer → Quoting
  | literal q => .inside q
  | escaped q => .escaped q
  | _ => .outside

/-- What one character in front of a line comment can do: stand for itself, start a literal, belong
    to a block comment, or go on in a literal. -/
inductive Reads : Lexer → Char → Lexeme → Lexer → Prop where
  | plain {s s' : Lexer} {c : Char} : s.quoting = .outside → isQuote c = false →
      s'.quoting = .outside → Reads s c .code s'
  | quote {s : Lexer} {c : Char} : s.quoting = .outside → isQuote c = true →
      Reads s c .literal (literal c)
  | comment {s s' : Lexer} {c : Char} {r : Lexeme} : s.quoting = .outside →
      r ∈ [.opener, .comment] → s'.quoting = .outside → Reads s c r s'
  | literal (q c : Char) : Reads (literal q) c .literal ((literal q).next c)
  | escaped (q c : Char) : Reads (escaped q) c .literal (literal q)

variable {s s' : Lexer} {c : Char} {r : Lexeme} {t : Text}

/-- A character behind code is read as code, as a quote or as the start of a comment. -/
theorem reads_start (hs : s.quoting = .outside) (c : Char) (later : Lexer)
    (h : Lexeme.told code (start c) later ≠ .lineComment) :
    Reads s c (Lexeme.told code (start c) later) (start c) := by
  revert h
  rw [start]
  by_cases hslash : c = '/'
  · rw [if_pos hslash]
    have hquote : isQuote c = false := by rw [hslash]; decide
    intro h
    cases later with
    | lineComment => exact absurd rfl h
    | block => exact .comment hs List.mem_cons_self rfl
    | _ => exact .plain hs hquote rfl
  · rw [if_neg hslash]
    intro _
    by_cases hquote : isQuote c = true
    · rw [if_pos hquote]
      exact .quote hs hquote
    · rw [if_neg hquote]
      exact .plain hs (eq_false_of_ne_true hquote) rfl

/-- Every character that is not behind a line comment is read in one of the ways. -/
theorem reads_first (h : s.first c t ≠ .lineComment) : Reads s c (s.first c t) (s.next c) := by
  have hcomment : Lexeme.comment ∈ [Lexeme.opener, .comment] := by decide
  cases s with
  | code => exact reads_start rfl c _ h
  | slash =>
      rw [first, Lexeme.told_slash] at h ⊢
      rw [next] at h ⊢
      -- behind a slash a second one starts a line comment, and a star an open one
      by_cases hline : c = '/'
      · rw [if_pos hline] at h
        exact absurd rfl h
      · rw [if_neg hline] at h ⊢
        by_cases hblock : c = '*'
        · rw [if_pos hblock]
          exact .comment rfl List.mem_cons_self rfl
        · rw [if_neg hblock] at h ⊢
          exact reads_start rfl c _ h
  | lineComment => exact absurd rfl h
  | block =>
      refine .comment rfl hcomment ?_
      rw [next]
      split <;> rfl
  | star =>
      refine .comment rfl hcomment ?_
      rw [next]
      split
      · rfl
      · split <;> rfl
  | literal q => exact .literal q c
  | escaped q => exact .escaped q c

/-- The state is not that of a literal that a backslash would end. -/
def ByQuote (s : Lexer) : Prop := s ≠ literal '\\' ∧ s ≠ escaped '\\'

/-- Outside of literals no backslash ends one. -/
theorem byQuote_of_mem : ∀ s ∈ [code, slash, lineComment, block, star], s.ByQuote := by
  simp [ByQuote]

theorem byQuote_literal {q : Char} (hq : q ≠ '\\') :
    (literal q).ByQuote ∧ (escaped q).ByQuote := by
  simp [ByQuote, hq]

/-- A character that starts a literal is no backslash. -/
theorem ByQuote.start (c : Char) : (Lexer.start c).ByQuote := by
  rw [Lexer.start]
  split
  · exact byQuote_of_mem _ (by decide)
  · split
    · next hquote =>
      have hc : c ≠ '\\' := by
        rintro rfl
        exact absurd hquote (by decide)
      exact (byQuote_literal hc).1
    · exact byQuote_of_mem _ (by decide)

/-- So no literal is ever one between backslashes. -/
theorem ByQuote.next (h : s.ByQuote) (c : Char) : (s.next c).ByQuote := by
  cases s with
  | code => exact .start c
  | slash =>
      rw [Lexer.next]
      split
      · exact byQuote_of_mem _ (by decide)
      · split
        · exact byQuote_of_mem _ (by decide)
        · exact .start c
  | lineComment => exact h
  | block =>
      rw [Lexer.next]
      split <;> exact byQuote_of_mem _ (by decide)
  | star =>
      rw [Lexer.next]
      split
      · exact byQuote_of_mem _ (by decide)
      · split <;> exact byQuote_of_mem _ (by decide)
  | literal q =>
      have hq : q ≠ '\\' := fun hq => h.1 (congrArg _ hq)
      rw [Lexer.next]
      split
      · exact (byQuote_literal hq).2
      · split
        · exact byQuote_of_mem _ (by decide)
        · exact h
  | escaped q =>
      have hq : q ≠ '\\' := fun hq => h.2 (congrArg _ hq)
      exact (byQuote_literal hq).1

namespace Reads

variable (h : Reads s c r s')
include h

/-- What is shown of a character is read as live unless it belongs to a literal. -/
theorem read_shown :  Glyph.read s.quoting (r.shown c) = ⟨r.shown c, r != .literal⟩ := by
  cases h with
  | plain hs hquote _ => simp [Glyph.read, hs, hquote, Lexeme.shown]
  | quote hs hquote => simp [Glyph.read, hs, hquote, Lexeme.shown]
  | comment hs hr _ =>
      -- a comment is shown as blanks, and a blank is no quote
      have hblank : isQuote ' ' = false := by decide
      rcases List.mem_cons.mp hr with rfl | hr
      · simp [Glyph.read, hs, hblank, Lexeme.shown]
      · rw [List.mem_singleton.mp hr]
        simp [Glyph.read, hs, hblank, Lexeme.shown]
  | literal q c => rfl
  | escaped q c => rfl

/-- Behind what is shown of a character a literal is open exactly if one is behind the character
    itself. -/
theorem quoting_next (hs : s.ByQuote) : s.quoting.next (r.shown c) = s'.quoting := by
  cases h with
  | plain hout hquote hnext =>
      rw [hout, hnext]
      show (if isQuote c = true then _ else _) = _
      rw [hquote, if_neg Bool.false_ne_true]
  | quote hout hquote =>
      rw [hout]
      show (if isQuote c = true then _ else _) = _
      rw [if_pos hquote]
      rfl
  | comment hout hr hnext =>
      rw [hout, hnext]
      rcases List.mem_cons.mp hr with rfl | hr
      · rfl
      · rw [List.mem_singleton.mp hr]
        rfl
  | literal q c =>
      show (if c = q then _ else if c = '\\' ∧ q ≠ rawQuote then _ else _) = _
      rw [next]
      -- a backslash escapes the next character except in a raw string, and is never the quote
      -- itself
      by_cases hescape : c = '\\' ∧ q ≠ rawQuote
      · have hne : c ≠ q := by
          rintro rfl
          exact hs.1 (congrArg _ hescape.1)
        rw [if_pos hescape, if_neg hne, if_pos hescape]
        rfl
      · rw [if_neg hescape, if_neg hescape]
        split <;> rfl
  | escaped q c => rfl

/-- The character of the code is the same bracket or semicolon as the marked one of the line. -/
theorem isLive_eq {d : Char} (hd : d ∈ structural) :
    (Glyph.read s.quoting (r.shown c)).isLive d = (Glyph.mk c (r == .code)).isLive d := by
  rw [h.read_shown]
  have hspace : ' ' ∉ structural := by decide
  -- a comment is shown as blanks, and none of the structural characters is one
  have hblank : (' ' == d) = false :=
    beq_eq_false_iff_ne.mpr (ne_of_mem_of_not_mem hd hspace).symm
  cases h with
  | comment _ hr _ =>
    rcases List.mem_cons.mp hr with rfl | hr
    · simp [Glyph.isLive, Lexeme.shown, hblank]
    · rw [List.mem_singleton.mp hr]
      simp [Glyph.isLive, Lexeme.shown, hblank]
  | _ => rfl

end Reads

/-- The code of a line has the brackets and semicolons of the line. -/
theorem codeOf_mirrors (line : Text) (s : Lexer) (hs : s.ByQuote) :
    Mirrors (glyphsFrom s.quoting (s.codeOf line)) (s.marks line) := by
  induction line generalizing s with
  | nil =>
      rw [codeOf, List.zipWith_nil_right]
      exact .nil (List.forall_mem_nil _)
  | cons c t ih =>
      have htail := ih (s.next c) (hs.next c)
      rw [codeOf, kept_cons, marks_cons]
      split
      · next hlost =>
        -- the character is lost, and all that stands behind it
        have hempty : (s.next c).kept t = [] := by
          rcases hlost with hline | ⟨-, -, hempty⟩
          · exact kept_of_first_eq_lineComment hline
          · exact hempty
        have hdead : (s.first c t == .code) = false := by
          rcases hlost with hline | ⟨hcomment, -, -⟩
          · rw [hline]
            rfl
          · rw [hcomment]
            rfl
        rw [codeOf, hempty] at htail
        rw [hdead]
        exact .nil (htail.still.cons_dead c)
      · next hkept =>
        have hreads := reads_first fun hline => hkept (Or.inl hline)
        refine .cons (fun d hd => hreads.isLive_eq hd) ?_
        rw [hreads.quoting_next hs]
        exact htail

end Lexer

/-- What is left of a line mirrors the line itself. -/
theorem Comment.strip_mirrors (line : Text) (inBlock : Bool) :
    Mirrors (glyphs (strip line inBlock).1) ((Lexer.between inBlock).marks line) := by
  rw [strip_lexed]
  cases inBlock
  · exact Lexer.codeOf_mirrors line .code (Lexer.byQuote_of_mem _ (by decide))
  · exact Lexer.codeOf_mirrors line .block (Lexer.byQuote_of_mem _ (by decide))

/-- A character is listed with its column exactly if it is live there. -/
theorem mem_liveChars {code : Text} {column : Nat} {c : Char} :
    (column, c) ∈ liveChars code ↔ (glyphs code)[column]? = some ⟨c, true⟩ := by
  rw [liveChars, List.mem_map]
  constructor
  · rintro ⟨⟨⟨char, live⟩, i⟩, hmem, heq⟩
    obtain ⟨hglyph, hlive⟩ := List.mem_filter.mp hmem
    obtain ⟨rfl, rfl⟩ := Prod.mk.inj heq
    obtain rfl : live = true := hlive
    exact List.mem_zipIdx_iff_getElem?.mp hglyph
  · intro h
    exact ⟨(⟨c, true⟩, column), List.mem_filter.mpr ⟨List.mem_zipIdx_iff_getElem?.mpr h, rfl⟩, rfl⟩

/-- Live characters are listed from left to right. -/
theorem liveChars_pairwise (code : Text) : (liveChars code).Pairwise fun a b => a.1 < b.1 := by
  rw [liveChars, List.pairwise_map]
  refine List.Pairwise.filter _ ?_
  have hcolumns : ((glyphs code).zipIdx.map Prod.snd).Pairwise (· < ·) := by
    rw [List.zipIdx_map_snd]
    exact List.pairwise_lt_range' 1
  exact List.pairwise_map.mp hcolumns

theorem Glyph.isLive_iff {g : Glyph} {c : Char} : g.isLive c = true ↔ g = ⟨c, true⟩ := by
  refine ⟨eq_of_isLive, ?_⟩
  rintro rfl
  exact beq_self_eq_true c

/-- A bracket or semicolon is live at a column of glyphs and of those that they mirror. -/
theorem Mirrors.getElem?_iff {gs hs : List Glyph} (h : Mirrors gs hs) {c : Char}
    (hc : c ∈ structural) (column : Nat) :
    gs[column]? = some ⟨c, true⟩ ↔ hs[column]? = some ⟨c, true⟩ := by
  induction h generalizing column with
  | @nil hs hstill =>
      refine ⟨nofun, fun hlive => ?_⟩
      -- behind the mirrored part no structural character is live
      have hdead := hstill _ (List.mem_of_getElem? hlive) c hc
      rw [Glyph.isLive_iff.mpr rfl] at hdead
      exact nomatch hdead
  | @cons g h gs hs hsame _ ih =>
      cases column with
      | zero =>
          show some g = some _ ↔ some h = some _
          rw [Option.some_inj, Option.some_inj, ← Glyph.isLive_iff, ← Glyph.isLive_iff, hsame c hc]
      | succ column => exact ih column

namespace Lexer

/-- A mark is live where the line has its character and the character is code. -/
theorem getElem?_marks {s : Lexer} {raw : Text} {column : Nat} {c : Char} :
    (s.marks raw)[column]? = some ⟨c, true⟩ ↔
      raw[column]? = some c ∧ (s.lexemes raw)[column]? = some .code := by
  rw [marks, List.getElem?_zipWith]
  cases (s.lexemes raw)[column]? with
  | none => simp
  | some r =>
      cases raw[column]? with
      | none => simp
      | some d => simp [Glyph.mk.injEq]

end Lexer

open GoLayout.Bracket Comment in
/-- The live characters of the code of a line are those that stripping passed outside of literals,
    quotes apart, each at its column.  Brackets and semicolons among them are those of the line that
    stand outside of comments and literals, and the scanners count these. -/
theorem liveChars_strip (raw : Text) (inBlock : Bool) :
    ((pass raw inBlock).map Prod.fst = (strip raw inBlock).1 ∧
      ((liveChars (strip raw inBlock).1).Pairwise fun a b => a.1 < b.1) ∧
      ∀ column c, (column, c) ∈ liveChars (strip raw inBlock).1 ↔
        ∃ m, (pass raw inBlock)[column]? = some (c, m) ∧ m.isLiteral = false ∧
          isQuote c = false) ∧
    (∀ column, ∀ c ∈ structural, (column, c) ∈ liveChars (strip raw inBlock).1 ↔
      raw[column]? = some c ∧ ((Lexer.between inBlock).lexemes raw)[column]? = some .code) ∧
    (∀ depth, scanBraces (strip raw inBlock).1 depth =
      closing depth ((Lexer.between inBlock).marks raw)) ∧
    (∀ depth, scanParens (strip raw inBlock).1 depth =
      max (depth + parenSum ((Lexer.between inBlock).marks raw)) 0) ∧
    ∀ brackets, (Segment.split (strip raw inBlock).1 brackets).2 =
        (Segment.cut ⟨brackets, 0⟩ ((Lexer.between inBlock).marks raw)).2.brackets ∧
      (Segment.split (strip raw inBlock).1 brackets).1.map (·.start) =
        Mirrors.starts 0 (Segment.cut ⟨brackets, 0⟩ ((Lexer.between inBlock).marks raw)).1 := by
  have hmirrors := strip_mirrors raw inBlock
  -- the pass tells the literals of what is left, the mirror all the rest by the line itself
  refine ⟨⟨map_fst_pass raw inBlock, liveChars_pairwise _, fun column c => ?_⟩,
    fun column c hc => ?_, hmirrors.closing_eq, fun depth => ?_, fun brackets => ?_⟩
  · rw [mem_liveChars, glyphs_strip, List.getElem?_map, Option.map_eq_some_iff]
    constructor
    · rintro ⟨⟨d, m⟩, hpass, hglyph⟩
      obtain ⟨rfl, hplace⟩ := passGlyph_eq_iff.mp hglyph
      exact ⟨m, hpass, hplace⟩
    · rintro ⟨m, hpass, hplace⟩
      exact ⟨(c, m), hpass, passGlyph_eq_iff.mpr ⟨rfl, hplace⟩⟩
  · rw [mem_liveChars, hmirrors.getElem?_iff hc, Lexer.getElem?_marks]
  · rw [scanParens, hmirrors.parenSum_eq]
  · obtain ⟨hstarts, hnesting⟩ := hmirrors.cut_eq ⟨brackets, 0⟩ 0
    exact ⟨congrArg Nesting.brackets hnesting, hstarts⟩

/-- A brace in a string, an escaped quote in a rune, and a comment with a quote in it. -/
def mixedLine : Text := "a[\"\x7b\"] /* \"\x7d */ '\\'' \x7b"

open GoLayout.Bracket Comment in
/-- The last brace is the only one that counts, though literals and a comment stand in front. -/
theorem liveChars_strip_mixedLine :
    '{' ∈ structural ∧ (21, '{') ∈ liveChars (strip mixedLine false).1 ∧
      scanBraces (strip mixedLine false).1 1 = (2, none) := by
  obtain ⟨-, hcolumns, hbraces, -⟩ := liveChars_strip mixedLine false
  have hmem : '{' ∈ structural := by decide
  refine ⟨hmem, (hcolumns 21 '{' hmem).mpr ⟨by decide, by decide +kernel⟩, ?_⟩
  rw [hbraces]
  decide +kernel

end GoLayout
