import GoLayout.Proofs.Source.Plain
import GoLayout.Source.Comment
import Mathlib.Data.List.DropRight

/-! # Comments character by character

    A lexer reads one character at a time and keeps nothing but its state: code, a slash in code,
    a line comment, a block comment, a star in one, a literal, a backslash in one.  Its states
    tell what each character belongs to, and that fixes the code of a line (`Lexer.codeOf`).
    Stripping comments, which skips over marks and escapes two characters at a time, comes to the
    same on every list of lines (`stripLines_lexed`).  The route:

    * a slash with no second mark behind it is code, and a star with no slash behind it is comment,
      so that the lexer may as well forget them (`Lexer.lexed_slash`, `Lexer.lexed_star`);
    * each branch of stripping is one or two steps of the lexer (`Lexer.lexed_cons`,
      `Lexer.lexed_comment`), and a line is stripped as it is lexed (`stripFrom_lexed`);
    * stripping keeps the first character of code, so that blanks in the place of a comment make no
      new marks (`stripFrom_stripFrom`). -/

namespace GoLayout

/-- Where a lexer of Go stands behind a character. -/
inductive Lexer where
  | code
  | slash
  | lineComment
  | block
  | star
  | literal (quote : Char)
  | escaped (quote : Char)
  deriving Repr, DecidableEq

/-- What a character belongs to: to the code outside of literals, to a literal with its quotes, to
    the two marks that open a block comment, to a block comment behind them, or to a line
    comment. -/
inductive Lexeme where
  | code
  | literal
  | opener
  | comment
  | lineComment
  deriving Repr, DecidableEq

namespace Lexeme

/-- What a character belongs to, as told by the state in front of it, the one behind it and the one
    behind the next character, which decides whether a slash opens a comment. -/
def told : Lexer → Lexer → Lexer → Lexeme
  | .block, _, _ => .comment
  | .star, _, _ => .comment
  | .literal _, _, _ => .literal
  | .escaped _, _, _ => .literal
  | _, .literal _, _ => .literal
  | _, .lineComment, _ => .lineComment
  | _, .block, _ => .opener
  | _, .slash, .lineComment => .lineComment
  | _, .slash, .block => .opener
  | _, _, _ => .code

/-- Behind a slash the same is told as in code. -/
theorem told_slash (behind later : Lexer) : told .slash behind later = told .code behind later := by
  cases behind <;> cases later <;> rfl

/-- The character that stands in the code for one that belongs there. -/
def shown : Lexeme → Char → Char
  | opener, _ => ' '
  | comment, _ => ' '
  | _, c => c

theorem shown_eq (r : Lexeme) (c : Char) : r.shown c = c ∨ r.shown c = ' ' := by
  cases r <;> simp [shown]

theorem forall₂_shown (rs : List Lexeme) (t : Text) :
    List.Forall₂ (fun c d => c = d ∨ c = ' ') (List.zipWith shown rs t)
      (t.take (List.zipWith shown rs t).length) := by
  induction rs generalizing t with
  | nil => exact .nil
  | cons r rs ih =>
      cases t with
      | nil => exact .nil
      | cons c t => exact .cons (shown_eq r c) (ih t)

end Lexeme

namespace Lexer

/-! ## The machine -/

/-- The state behind a character in code that is no second mark of a comment. -/
def start (c : Char) : Lexer :=
  if c = '/' then slash else if isQuote c then literal c else code

/-- The state behind one more character. -/
def next : Lexer → Char → Lexer
  | code, c => start c
  | slash, c => if c = '/' then lineComment else if c = '*' then block else start c
  | lineComment, _ => lineComment
  | block, c => if c = '*' then star else block
  | star, c => if c = '/' then code else if c = '*' then star else block
  | literal q, c =>
    if c = '\\' ∧ q ≠ rawQuote then escaped q else if c = q then code else literal q
  | escaped q, _ => literal q

/-- The state behind a text. -/
def after (s : Lexer) (t : Text) : Lexer := t.foldl next s

/-- Is a block comment open? -/
def inBlock : Lexer → Bool
  | block => true
  | star => true
  | _ => false

/-- The state at the start of a line, given whether a block comment is open there. -/
def between (isOpen : Bool) : Lexer := if isOpen then block else code

/-- What the characters of a text belong to. -/
def lexemes (s : Lexer) : Text → List Lexeme
  | [] => []
  | c :: t => Lexeme.told s (s.next c) ((s.next c).after (t.take 1)) :: lexemes (s.next c) t

/-- The characters that the code of a line has a place for: those in front of a line comment, and,
    if a block comment is open at the end of the line, those up to the marks that opened it. -/
def kept (s : Lexer) (line : Text) : List Lexeme :=
  let front := (s.lexemes line).takeWhile (· ≠ .lineComment)
  if (s.after line).inBlock then front.rdropWhile (· = .comment) else front

/-- The code of a line: the characters that it has a place for, with blanks for those of block
    comments and their marks. -/
def codeOf (s : Lexer) (line : Text) : Text := List.zipWith Lexeme.shown (s.kept line) line

/-- The code of a line, and whether a block comment is open at its end. -/
def lexed (s : Lexer) (line : Text) : Text × Bool := (s.codeOf line, (s.after line).inBlock)

/-- Lexing of lines one after the other.  The end of a line ends everything but a block comment. -/
def lexLines (s : Lexer) : List Text → List (Text × Bool)
  | [] => []
  | line :: below => s.lexed line :: lexLines (between (s.after line).inBlock) below

/-! ## One character -/

variable {s : Lexer} {c : Char} {t : Text}

/-- What a character with the given text behind it belongs to. -/
def first (s : Lexer) (c : Char) (t : Text) : Lexeme :=
  Lexeme.told s (s.next c) ((s.next c).after (t.take 1))

theorem lexemes_cons (s : Lexer) (c : Char) (t : Text) :
    s.lexemes (c :: t) = s.first c t :: (s.next c).lexemes t := rfl

theorem after_cons (s : Lexer) (c : Char) (t : Text) :
    s.after (c :: t) = (s.next c).after t := rfl

/-- A character has no place in the code if a line comment starts with it, or if it stands in a
    block comment that is still open at the end of the line. -/
theorem kept_cons (s : Lexer) (c : Char) (t : Text) :
    s.kept (c :: t) =
      if s.first c t = .lineComment ∨
          (s.first c t = .comment ∧ (s.after (c :: t)).inBlock = true ∧ (s.next c).kept t = [])
      then [] else s.first c t :: (s.next c).kept t := by
  rw [kept, kept, lexemes_cons, after_cons]
  -- a line comment ends the line here; what is left of an open comment at its end is dropped from
  -- there
  by_cases hline : s.first c t = .lineComment
  · rw [if_pos (Or.inl hline), List.takeWhile_cons_of_neg (by simp [hline]), List.rdropWhile_nil,
      ite_self]
  · rw [List.takeWhile_cons_of_pos (by simpa using hline)]
    by_cases hopen : ((s.next c).after t).inBlock = true
    · rw [if_pos hopen, if_pos hopen, Text.rdropWhile_cons]
      simp [hline, hopen, and_comm]
    · simp [hline, hopen]

/-- In front of a line comment and outside of a block comment nothing of the line is lost. -/
theorem lexed_cons {r : Lexeme} (h : s.first c t = r) (hline : r ≠ .lineComment)
    (hcomment : r ≠ .comment) :
    s.lexed (c :: t) = Comment.keep [r.shown c] ((s.next c).lexed t) := by
  rw [lexed, codeOf, kept_cons, h, if_neg (by simp [hline, hcomment])]
  rfl

/-- A character belongs to a comment exactly if the comment is open in front of it. -/
theorem told_eq_comment_iff (front behind later : Lexer) :
    Lexeme.told front behind later = .comment ↔ front.inBlock = true := by
  cases front with
  | block => exact ⟨fun _ => rfl, fun _ => rfl⟩
  | star => exact ⟨fun _ => rfl, fun _ => rfl⟩
  | literal q => exact ⟨nofun, nofun⟩
  | escaped q => exact ⟨nofun, nofun⟩
  | code => cases behind <;> cases later <;> exact ⟨nofun, nofun⟩
  | slash => cases behind <;> cases later <;> exact ⟨nofun, nofun⟩
  | lineComment => cases behind <;> cases later <;> exact ⟨nofun, nofun⟩

theorem first_eq_comment_iff : s.first c t = .comment ↔ s.inBlock = true :=
  told_eq_comment_iff _ _ _

/-- A line comment starts at its first mark or at the slash in front of its second one. -/
theorem of_told_eq_lineComment {front behind later : Lexer}
    (h : Lexeme.told front behind later = .lineComment) :
    behind = lineComment ∨ behind = slash ∧ later = lineComment := by
  cases front <;> cases behind <;> cases later <;> first
    | exact .inl rfl
    | exact .inr ⟨rfl, rfl⟩
    | exact nomatch h

/-- A line comment goes on to the end of the line. -/
theorem after_lineComment (t : Text) : lineComment.after t = lineComment := by
  induction t with
  | nil => rfl
  | cons c t ih => exact ih

/-- A line comment goes on, or its first slash is followed by the second one. -/
theorem next_of_first_eq_lineComment (h : s.first c t = .lineComment) :
    s.next c = lineComment ∨ s.next c = slash ∧ slash.after (t.take 1) = lineComment := by
  refine (of_told_eq_lineComment h).imp_right fun ⟨hnext, hlater⟩ => ⟨hnext, ?_⟩
  rwa [hnext] at hlater

/-- Behind a line comment the line ends in it. -/
theorem after_of_first_eq_lineComment (h : s.first c t = .lineComment) :
    s.after (c :: t) = lineComment := by
  rw [after_cons]
  rcases next_of_first_eq_lineComment h with hnext | ⟨hnext, hlater⟩
  · rw [hnext, after_lineComment]
  · -- the mark behind the slash opens the comment
    have hsplit : slash.after t = (slash.after (t.take 1)).after (t.drop 1) := by
      rw [after, after, after, ← List.foldl_append, List.take_append_drop]
    rw [hnext, hsplit, hlater, after_lineComment]

/-- Behind the first mark of a line comment nothing is kept. -/
theorem kept_of_first_eq_lineComment (h : s.first c t = .lineComment) : (s.next c).kept t = [] := by
  cases t with
  | nil => exact ite_self _
  | cons d t =>
      have hline : (s.next c).first d t = .lineComment := by
        -- the next character belongs to the comment too, as the second slash or behind it
        rcases next_of_first_eq_lineComment h with hnext | ⟨hnext, hlater⟩
        · rw [hnext]
          rfl
        · have hstate : slash.next d = lineComment := hlater
          rw [hnext, first, hstate]
          rfl
      rw [kept_cons, if_pos (Or.inl hline)]

/-- A line that ends in a block comment, or leaves one, has code. -/
theorem kept_ne_nil (h : (s.after t).inBlock ≠ s.inBlock) : s.kept t ≠ [] := by
  cases t with
  | nil => exact absurd rfl h
  | cons c t =>
      rw [kept_cons, if_neg]
      · exact List.cons_ne_nil _ _
      · rintro (hline | ⟨hcomment, hopen, -⟩)
        · rw [after_of_first_eq_lineComment hline] at h
          have hcomment : s.first c t = .comment :=
            first_eq_comment_iff.mpr (eq_true_of_ne_false h.symm)
          rw [hline] at hcomment
          exact nomatch hcomment
        · rw [hopen, first_eq_comment_iff.mp hcomment] at h
          exact h rfl

/-- Code is left of a line exactly if characters of it are kept. -/
theorem codeOf_eq_nil_iff : s.codeOf t = [] ↔ s.kept t = [] := by
  rw [codeOf, List.zipWith_eq_nil_iff]
  constructor
  · rintro (h | rfl)
    · exact h
    · exact ite_self _
  · exact Or.inl

/-- In a block comment a blank is left, unless the line ends in that comment. -/
theorem lexed_comment (hs : s.inBlock = true) :
    s.lexed (c :: t) =
      if (s.next c).inBlock then Comment.blank ((s.next c).lexed t)
      else Comment.keep [' '] ((s.next c).lexed t) := by
  have hcomment : s.first c t = .comment := first_eq_comment_iff.mpr hs
  have hline : s.first c t ≠ .lineComment := by rw [hcomment]; exact nofun
  by_cases hnil : (s.next c).kept t = []
  · -- nothing is left behind the character, so that the comment is open or ends right here
    have hsame : ((s.next c).after t).inBlock = (s.next c).inBlock :=
      not_not.mp (mt kept_ne_nil (not_not.mpr hnil))
    have hcode : (s.next c).codeOf t = [] := codeOf_eq_nil_iff.mpr hnil
    rw [lexed, codeOf, kept_cons, after_cons, hnil, hcomment, lexed, hcode, hsame]
    cases hopen : (s.next c).inBlock <;> rfl
  · have hcode : (s.next c).codeOf t ≠ [] := mt codeOf_eq_nil_iff.mp hnil
    have hblank : Comment.blank ((s.next c).lexed t) = Comment.keep [' '] ((s.next c).lexed t) := by
      rw [Comment.blank, lexed, if_neg (by simpa using hcode)]
      rfl
    rw [hblank, ite_self, lexed, codeOf, kept_cons, if_neg (by simp [hline, hnil]), hcomment]
    rfl

theorem lexed_nil (s : Lexer) : s.lexed [] = ([], s.inBlock) := by
  rw [lexed, codeOf, List.zipWith_nil_right]
  rfl

/-- From two states that agree on the first character and on what is behind it, a text is lexed
    alike. -/
theorem lexed_congr {s' : Lexer} (hblock : s.inBlock = s'.inBlock)
    (hnext : ∀ c ∈ t.head?, s.next c = s'.next c)
    (hfirst : ∀ c u, t = c :: u → s.first c u = s'.first c u) : s.lexed t = s'.lexed t := by
  cases t with
  | nil => rw [lexed_nil, lexed_nil, hblock]
  | cons c t =>
      have hstate : s.next c = s'.next c := hnext c rfl
      rw [lexed, lexed, codeOf, codeOf, kept_cons, kept_cons, after_cons, after_cons,
        hfirst c t rfl, hstate]

/-- A slash with no mark behind it is forgotten. -/
theorem lexed_slash (h : ∀ c ∈ t.head?, c ≠ '/' ∧ c ≠ '*') : slash.lexed t = code.lexed t := by
  have hnext : ∀ c ∈ t.head?, slash.next c = code.next c := by
    intro c hc
    obtain ⟨hslash, hstar⟩ := h c hc
    rw [next, next, if_neg hslash, if_neg hstar]
  refine lexed_congr rfl hnext ?_
  rintro c u rfl
  rw [first, first, hnext c rfl]
  exact Lexeme.told_slash _ _

/-- A star with no slash behind it is forgotten. -/
theorem lexed_star (h : ∀ c ∈ t.head?, c ≠ '/') : star.lexed t = block.lexed t := by
  refine lexed_congr rfl ?_ fun _ _ _ => rfl
  intro c hc
  rw [next, next, if_neg (h c hc)]

/-! ## The branches of stripping -/

/-- No comment opens with the character, given the text behind it. -/
def NoMark (c : Char) (t : Text) : Prop := c = '/' → ∀ d ∈ t.head?, d ≠ '/' ∧ d ≠ '*'

/-- No comment starts at a character unless it is a slash in front of a slash or a star. -/
theorem noMark_iff : NoMark c t ↔
    (∀ u, c = '/' → t = '/' :: u → False) ∧ ∀ u, c = '/' → t = '*' :: u → False := by
  constructor
  · intro h
    constructor
    · rintro u hc rfl
      exact (h hc '/' rfl).1 rfl
    · rintro u hc rfl
      exact (h hc '*' rfl).2 rfl
  · rintro ⟨hline, hblock⟩ hc d hd
    obtain ⟨u, rfl⟩ := List.head?_eq_some_iff.mp hd
    constructor
    · rintro rfl
      exact hline u hc rfl
    · rintro rfl
      exact hblock u hc rfl

/-- In front of a line comment the code ends. -/
theorem lexed_lineComment (h : s.first c t = .lineComment) : s.lexed (c :: t) = ([], false) := by
  rw [lexed, codeOf, kept_cons, if_pos (Or.inl h), after_of_first_eq_lineComment h]
  rfl

/-- The marks that open a block comment become blanks. -/
theorem lexed_opener (t : Text) :
    code.lexed ('/' :: '*' :: t) = Comment.keep [' ', ' '] (block.lexed t) := by
  have hslash : code.first '/' ('*' :: t) = .opener := rfl
  have hstar : slash.first '*' t = .opener := rfl
  rw [lexed_cons hslash nofun nofun]
  show Comment.keep _ (slash.lexed ('*' :: t)) = _
  rw [lexed_cons hstar nofun nofun]
  rfl

/-- A character of code that opens no comment. -/
theorem lexed_code (h : NoMark c t) :
    code.lexed (c :: t) =
      Comment.keep [c] ((if isQuote c then literal c else code).lexed t) := by
  by_cases hslash : c = '/'
  · subst hslash
    have hmarks := h rfl
    have hfirst : code.first '/' t = .code := by
      cases t with
      | nil => rfl
      | cons d t =>
          obtain ⟨hline, hblock⟩ := hmarks d rfl
          show Lexeme.told code slash (slash.next d) = .code
          rw [next, if_neg hline, if_neg hblock, start, if_neg hline]
          by_cases hquote : isQuote d = true
          · rw [if_pos hquote]
            rfl
          · rw [if_neg hquote]
            rfl
    rw [lexed_cons hfirst nofun nofun]
    exact congrArg _ (lexed_slash hmarks)
  · have hnext : code.next c = if isQuote c then literal c else code := if_neg hslash
    by_cases hquote : isQuote c = true
    · rw [if_pos hquote] at hnext ⊢
      have hfirst : code.first c t = .literal := by rw [first, hnext]; rfl
      rw [lexed_cons hfirst nofun nofun, hnext]
      rfl
    · rw [if_neg hquote] at hnext ⊢
      have hfirst : code.first c t = .code := by rw [first, hnext]; rfl
      rw [lexed_cons hfirst nofun nofun, hnext]
      rfl

/-- Every character of a literal is kept. -/
theorem lexed_literal (q c : Char) (t : Text) :
    (literal q).lexed (c :: t) = Comment.keep [c] (((literal q).next c).lexed t) :=
  lexed_cons (show _ = Lexeme.literal from rfl) nofun nofun

theorem lexed_escaped (q c : Char) (t : Text) :
    (escaped q).lexed (c :: t) = Comment.keep [c] ((literal q).lexed t) :=
  lexed_cons (show _ = Lexeme.literal from rfl) nofun nofun

end Lexer

namespace Comment

/-- The state of the lexer in a mode of stripping. -/
def Mode.lexer : Mode → Lexer
  | .code => .code
  | .literal q => .literal q
  | .block => .block

/-- The rest of a line is stripped as it is lexed. -/
theorem stripFrom_lexed (m : Mode) (line : Text) : stripFrom m line = m.lexer.lexed line := by
  fun_induction stripFrom m line with
  | case1 => rfl
  | case2 t => exact (Lexer.lexed_lineComment rfl).symm
  | case3 t ih =>
      rw [ih]
      exact (Lexer.lexed_opener t).symm
  | case4 c t hline hblock ih =>
      show _ = Lexer.code.lexed (c :: t)
      rw [Lexer.lexed_code (Lexer.noMark_iff.mpr ⟨hline, hblock⟩), ih]
      by_cases hquote : isQuote c = true
      · rw [if_pos hquote, if_pos hquote]
        rfl
      · rw [if_neg hquote, if_neg hquote]
        rfl
  | case5 q => rfl
  | case6 q c =>
      show _ = (Lexer.literal q).lexed [c]
      rw [Lexer.lexed_literal, Lexer.lexed_nil, Lexer.next]
      split
      · rfl
      · split <;> rfl
  | case7 q c d t hescape ih =>
      show _ = (Lexer.literal q).lexed (c :: d :: t)
      rw [Lexer.lexed_literal, Lexer.next, if_pos hescape, Lexer.lexed_escaped, ih]
      rfl
  | case8 q c d t hescape ih =>
      show _ = (Lexer.literal q).lexed (c :: d :: t)
      rw [Lexer.lexed_literal, Lexer.next, if_neg hescape, ih]
      by_cases hclosed : c = q
      · rw [if_pos hclosed, if_pos hclosed]
        rfl
      · rw [if_neg hclosed, if_neg hclosed]
        rfl
  | case9 => rfl
  | case10 t ih =>
      show _ = Lexer.block.lexed ('*' :: '/' :: t)
      rw [ih, Lexer.lexed_comment rfl, Lexer.lexed_comment rfl]
      rfl
  | case11 c t hclosed ih =>
      show _ = Lexer.block.lexed (c :: t)
      rw [ih, Lexer.lexed_comment rfl, Lexer.next]
      by_cases hstar : c = '*'
      · -- the star does not close the comment, and so the next character is no slash
        have hhead : ∀ d ∈ t.head?, d ≠ '/' := by
          rintro d hd rfl
          obtain ⟨u, rfl⟩ := List.head?_eq_some_iff.mp hd
          exact hclosed u hstar rfl
        rw [if_pos hstar, Lexer.lexed_star hhead]
        rfl
      · rw [if_neg hstar]
        rfl

/-! ## Stripping twice -/

/-- The mode in which stripped text is read again: blanks stand for comments. -/
def Mode.again : Mode → Mode
  | .block => .code
  | m => m

/-- The first character of code stays, unless it is the first mark of a comment. -/
theorem head?_stripFrom {line : Text} (h : ∀ c ∈ line.head?, c ≠ '/') :
    (stripFrom .code line).1.head? = line.head? := by
  cases line with
  | nil => rfl
  | cons c t =>
      have hslash : c ≠ '/' := h c rfl
      rw [stripFrom.eq_4 _ _ (fun _ hc => absurd hc hslash) (fun _ hc => absurd hc hslash)]
      rfl

/-- A character that opens no comment is kept, and the rest is stripped behind it. -/
theorem stripFrom_code_cons {c : Char} {t : Text} (h : Lexer.NoMark c t) :
    stripFrom .code (c :: t) = keep [c] (stripFrom (if isQuote c then .literal c else .code) t) :=
  stripFrom.eq_4 c t (Lexer.noMark_iff.mp h).1 (Lexer.noMark_iff.mp h).2

/-- In a literal a character that is not escaped is kept, whatever stands behind it. -/
theorem stripFrom_literal_cons {q c : Char} (h : ¬ (c = '\\' ∧ q ≠ rawQuote)) (t : Text) :
    stripFrom (.literal q) (c :: t) =
      keep [c] (stripFrom (if c = q then .code else .literal q) t) := by
  cases t with
  | nil => split <;> rfl
  | cons d t =>
      rw [stripFrom.eq_7, if_neg h]

/-- What is left of a line has no comments. -/
theorem stripFrom_stripFrom (m : Mode) (line : Text) :
    stripFrom m.again (stripFrom m line).1 = ((stripFrom m line).1, false) := by
  have hblanks : Plain [' ', ' '] := by decide
  fun_induction stripFrom m line with
  | case1 => rfl
  | case2 t => rfl
  | case3 t ih =>
      show stripFrom .code ([' ', ' '] ++ _) = _
      rw [hblanks.stripFrom_append]
      exact congrArg (keep [' ', ' ']) ih
  | case4 c t hline hblock ih =>
      have hmark := Lexer.noMark_iff.mpr ⟨hline, hblock⟩
      have hmark' : Lexer.NoMark c (stripFrom (if isQuote c then .literal c else .code) t).1 := by
        -- behind a slash the code starts with the same character as the line
        rintro rfl d hd
        have hhead := head?_stripFrom fun e he => (hmark rfl e he).1
        exact hmark rfl d (hhead ▸ hd)
      show stripFrom .code (c :: (stripFrom _ t).1) = _
      rw [stripFrom_code_cons hmark']
      refine (congrArg (fun m => keep [c] (stripFrom m _)) ?_).trans (congrArg (keep [c]) ih)
      split <;> rfl
  | case5 q => rfl
  | case6 q c => rfl
  | case7 q c d t hescape ih =>
      show stripFrom (.literal q) (c :: d :: (stripFrom (.literal q) t).1) = _
      rw [stripFrom.eq_7, if_pos hescape]
      exact congrArg (keep [c, d]) ih
  | case8 q c d t hescape ih =>
      show stripFrom (.literal q) (c :: (stripFrom _ (d :: t)).1) = _
      rw [stripFrom_literal_cons hescape]
      refine (congrArg (fun m => keep [c] (stripFrom m _)) ?_).trans (congrArg (keep [c]) ih)
      split <;> rfl
  | case9 => rfl
  | case10 t ih =>
      show stripFrom .code ([' ', ' '] ++ _) = _
      rw [hblanks.stripFrom_append]
      exact congrArg (keep [' ', ' ']) ih
  | case11 c t hclosed ih =>
      show stripFrom .code (blank (stripFrom .block t)).1 = _
      rw [blank]
      split
      · rfl
      · show stripFrom .code ([' '] ++ _) = _
        rw [Plain.stripFrom_append (show Plain [' '] by decide)]
        exact congrArg (keep [' ']) ih

/-! ## Lines -/

/-- Stripping of lines one after the other, given whether a block comment is open in front of
    them. -/
def stripLines (isOpen : Bool) : List Text → List (Text × Bool)
  | [] => []
  | line :: below => strip line isOpen :: stripLines (strip line isOpen).2 below

/-- Taking the comments from a line is what the lexer does between two lines. -/
theorem strip_lexed (line : Text) (isOpen : Bool) :
    strip line isOpen = (Lexer.between isOpen).lexed line := by
  cases isOpen <;> exact stripFrom_lexed _ line

/-- The code of a line is a part of it from its start on, with blanks for some characters. -/
theorem strip_shown (line : Text) (isOpen : Bool) :
    List.Forall₂ (fun c d => c = d ∨ c = ' ') (strip line isOpen).1
      (line.take (strip line isOpen).1.length) := by
  rw [strip_lexed]
  exact Lexeme.forall₂_shown _ line

theorem stripLines_eq (lines : List Text) (isOpen : Bool) :
    stripLines isOpen lines = (Lexer.between isOpen).lexLines lines := by
  induction lines generalizing isOpen with
  | nil => rfl
  | cons line below ih =>
      rw [stripLines, Lexer.lexLines, ih, strip_lexed]
      rfl

/-- On every list of lines, stripping them one after the other gives the code and the open
    comments that the lexer comes to, character by character.  The code of a line keeps its columns,
    and stripping it once more changes nothing. -/
theorem stripLines_lexed (lines : List Text) :
    stripLines false lines = Lexer.code.lexLines lines ∧
      ∀ line isOpen, List.Forall₂ (fun c d => c = d ∨ c = ' ') (strip line isOpen).1
          (line.take (strip line isOpen).1.length) ∧
        strip (strip line isOpen).1 false = ((strip line isOpen).1, false) := by
  refine ⟨stripLines_eq lines false, fun line isOpen => ⟨strip_shown line isOpen, ?_⟩⟩
  have htwice := stripFrom_stripFrom (if isOpen then .block else .code) line
  cases isOpen <;> exact htwice

/-- A star that opens a comment does not close it, and a line comment opens no other. -/
example : Lexer.code.lexLines ["a/*/b".toList, "c*/d//*e".toList] =
    [("a  ".toList, true), ("   d".toList, false)] := by decide

end Comment

end GoLayout
