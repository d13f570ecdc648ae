import GoLayout.Proofs.Source.LiveColumns
import GoLayout.Proofs.Source.WholeWord

/-! # Where a line is divided

    A semicolon divides a line by what stands in front of it outside literals: no round or square
    bracket may be open, the depth carried from the line above included, and no more braces may
    be opened than closed (`Segment.DividesAt`).  `Segment.split_partitions` says that the
    segments are the parts between exactly these semicolons, and that a line can be read in two
    pieces wherever no literal and no brace is open.  The route:

    * the nesting behind some glyphs is counted along their live characters
      (`Nesting.after_counted`);
    * a column is between two segments exactly where its glyph divides in the nesting in front of
      it (`Segment.mem_cuts_place_cut`);
    * the parts of two pieces are the parts of the whole, glued at the seam
      (`Segment.cut_append`). -/

namespace GoLayout

/-! ## Counts along a line -/

/-- The depth of round and square brackets behind one more character; a bracket that closes
    nothing leaves it at zero. -/
def bracketStep (depth : Nat) (c : Char) : Nat :=
  if c ∈ ['(', '['] then depth + 1 else if c ∈ [')', ']'] then depth - 1 else depth

/-- The depth of round and square brackets behind some characters. -/
def bracketDepth (depth : Nat) (live : Text) : Nat := live.foldl bracketStep depth

/-- One glyph counts as its character does, if it is live. -/
theorem Nesting.next_counted (depth : Nat) (braces : Int) (g : Glyph) :
    Nesting.next ⟨depth, braces⟩ g =
      if g.live then
        ⟨bracketStep depth g.char,
          braces + if g.char = '{' then 1 else if g.char = '}' then -1 else 0⟩
      else ⟨depth, braces⟩ := by
  obtain ⟨c, live⟩ := g
  cases live with
  | false => simp [Nesting.next, Glyph.isLive]
  | true =>
      by_cases hopen : c ∈ ['(', '[']
      · rcases List.mem_pair.mp hopen with rfl | rfl <;>
          simp [Nesting.next, Glyph.isLive, bracketStep]
      · by_cases hclose : c ∈ [')', ']']
        · -- a natural number of brackets is cut off at zero by itself
          have hmax : max ((depth : Int) - 1) 0 = ((depth - 1 : Nat) : Int) := by omega
          rcases List.mem_pair.mp hclose with rfl | rfl <;>
            simp [Nesting.next, Glyph.isLive, bracketStep, hmax]
        · obtain ⟨hround, hsquare⟩ := not_or.mp (mt List.mem_pair.mpr hopen)
          obtain ⟨hround', hsquare'⟩ := not_or.mp (mt List.mem_pair.mpr hclose)
          by_cases hleft : c = '{'
          · subst hleft
            simp [Nesting.next, Glyph.isLive, bracketStep]
          · by_cases hright : c = '}'
            · subst hright
              simp [Nesting.next, Glyph.isLive, bracketStep]
              omega
            · simp [Nesting.next, Glyph.isLive, bracketStep, *]

/-- The nesting behind some glyphs is counted along their live characters. -/
theorem Nesting.after_counted (gs : List Glyph) : ∀ (depth : Nat) (braces : Int),
    Nesting.after ⟨depth, braces⟩ gs =
      ⟨bracketDepth depth (liveText gs),
        braces + (liveText gs).count '{' - (liveText gs).count '}'⟩ := by
  induction gs with
  | nil =>
      intro depth braces
      simp [Nesting.after, liveText, bracketDepth]
  | cons g gs ih =>
      intro depth braces
      rw [Nesting.after_cons, Nesting.next_counted, liveText_cons]
      split
      · rw [ih, List.count_cons, List.count_cons]
        show _ = (⟨bracketDepth (bracketStep depth g.char) (liveText gs), _⟩ : Nesting)
        congr 1
        by_cases hleft : g.char = '{'
        · simp [hleft]
          omega
        · by_cases hright : g.char = '}'
          · simp [hright]
            omega
          · simp [hleft, hright]
      · exact ih depth braces

namespace Segment

/-! ## The semicolons between segments -/

/-- The columns of the semicolons between some segments. -/
def cuts (segments : List Segment) : List Nat :=
  segments.dropLast.map fun s => s.start + s.text.length

/-- The column holds a semicolon that divides the line: outside literals, with no bracket open
    and no brace that was opened on the line. -/
structure DividesAt (code : Text) (depth column : Nat) : Prop where
  live : (column, ';') ∈ liveChars code
  brackets : bracketDepth depth (liveText ((glyphs code).take column)) = 0
  braces : (liveText ((glyphs code).take column)).count '{' ≤
    (liveText ((glyphs code).take column)).count '}'

theorem place_ne_nil (start : Nat) {parts : List Text} (h : parts ≠ []) :
    place start parts ≠ [] := by
  cases parts with
  | nil => exact absurd rfl h
  | cons part parts => exact List.cons_ne_nil _ _

theorem cuts_place_cons (start : Nat) (part : Text) {parts : List Text} (h : parts ≠ []) :
    cuts (place start (part :: parts)) =
      (start + part.length) :: cuts (place (start + part.length + 1) parts) := by
  rw [cuts, place, List.dropLast_cons_of_ne_nil (place_ne_nil _ h)]
  rfl

/-- One more character in front of the first part leaves the semicolons where they are. -/
theorem cuts_place_glue (start : Nat) (c : Char) {parts : List Text} (h : parts ≠ []) :
    cuts (place start (Text.glue c parts)) = cuts (place (start + 1) parts) := by
  cases parts with
  | nil => exact absurd rfl h
  | cons part parts =>
      cases parts with
      | nil => rfl
      | cons next parts =>
          have hne : next :: parts ≠ [] := List.cons_ne_nil _ _
          show cuts (place start ((c :: part) :: next :: parts)) = _
          rw [cuts_place_cons _ _ hne, cuts_place_cons _ _ hne, List.length_cons,
            show start + (part.length + 1) = start + 1 + part.length by omega]

/-- There is a semicolon between two segments exactly where a glyph divides in the nesting in
    front of it. -/
theorem mem_cuts_place_cut (gs : List Glyph) : ∀ (n : Nesting) (start column : Nat),
    column ∈ cuts (place start (cut n gs).1) ↔
      ∃ i g, column = start + i ∧ gs[i]? = some g ∧ (n.after (gs.take i)).divides g = true := by
  induction gs with
  | nil =>
      intro n start column
      simp [cut, place, cuts]
  | cons g gs ih =>
      intro n start column
      -- the first glyph decides alone, and all others as if the line started behind it
      have hsplit : (∃ i g', column = start + i ∧ (g :: gs)[i]? = some g' ∧
            (n.after ((g :: gs).take i)).divides g' = true) ↔
          (column = start ∧ n.divides g = true) ∨
            column ∈ cuts (place (start + 1) (cut (n.next g) gs).1) := by
        rw [ih]
        constructor
        · rintro ⟨i, g', hcolumn, hget, hdivides⟩
          cases i with
          | zero =>
              obtain rfl := Option.some.inj hget
              exact Or.inl ⟨hcolumn, hdivides⟩
          | succ i => exact Or.inr ⟨i, g', by omega, hget, hdivides⟩
        · rintro (⟨hcolumn, hdivides⟩ | ⟨i, g', hcolumn, hget, hdivides⟩)
          · exact ⟨0, g, hcolumn, rfl, hdivides⟩
          · exact ⟨i + 1, g', by omega, hget, hdivides⟩
      rw [hsplit, cut]
      by_cases hdivides : n.divides g = true
      · rw [if_pos hdivides, Nesting.next_of_divides hdivides]
        show column ∈ cuts (place start ([] :: (cut n gs).1)) ↔ _
        rw [cuts_place_cons _ _ (cut_ne_nil n gs), List.mem_cons]
        simp [hdivides]
      · rw [if_neg hdivides]
        show column ∈ cuts (place start (Text.glue g.char (cut (n.next g) gs).1)) ↔ _
        rw [cuts_place_glue _ _ (cut_ne_nil _ gs)]
        simp [hdivides]

/-- A glyph divides exactly if it is a live semicolon with no bracket open in front of it and no
    more braces opened than closed. -/
theorem divides_counted {depth : Nat} {gs : List Glyph} {g : Glyph} :
    (Nesting.after ⟨depth, 0⟩ gs).divides g = true ↔
      g = ⟨';', true⟩ ∧ bracketDepth depth (liveText gs) = 0 ∧
        (liveText gs).count '{' ≤ (liveText gs).count '}' := by
  rw [Nesting.after_counted, Nesting.divides, Bool.and_eq_true, Bool.and_eq_true, beq_iff_eq,
    decide_eq_true_eq, Glyph.isLive_iff, and_assoc]
  refine and_congr_right fun _ => and_congr Int.natCast_eq_zero ?_
  show (0 + ((liveText gs).count '{' : Int) - (liveText gs).count '}' ≤ 0) ↔ _
  omega

/-- A line is cut exactly at the semicolons that divide it. -/
theorem mem_cuts_split {code : Text} {depth column : Nat} :
    column ∈ cuts (split code depth).1 ↔ DividesAt code depth column := by
  show column ∈ cuts (place 0 (cut ⟨depth, 0⟩ (glyphs code)).1) ↔ _
  rw [mem_cuts_place_cut]
  constructor
  · rintro ⟨i, g, hcolumn, hget, hdivides⟩
    obtain rfl : column = i := by omega
    obtain ⟨rfl, hbrackets, hbraces⟩ := divides_counted.mp hdivides
    exact ⟨mem_liveChars.mpr hget, hbrackets, hbraces⟩
  · rintro ⟨hlive, hbrackets, hbraces⟩
    exact ⟨column, _, (Nat.zero_add column).symm, mem_liveChars.mp hlive,
      divides_counted.mpr ⟨rfl, hbrackets, hbraces⟩⟩

/-- Segments start at the front and behind every cut. -/
theorem starts_place (start : Nat) (parts : List Text) (h : parts ≠ []) :
    (place start parts).map (·.start) = start :: (cuts (place start parts)).map (· + 1) := by
  induction parts generalizing start with
  | nil => exact absurd rfl h
  | cons part parts ih =>
      cases parts with
      | nil => rfl
      | cons next parts =>
          have hne : next :: parts ≠ [] := List.cons_ne_nil _ _
          rw [cuts_place_cons _ _ hne, place, List.map_cons, ih _ hne]
          rfl

/-! ## Where segments stand -/

theorem joinWith_cons_append (t : Text) {ts : List Text} (h : ts ≠ []) :
    Text.joinWith [';'] (t :: ts) = t ++ ';' :: Text.joinWith [';'] ts := by
  cases ts with
  | nil => exact absurd rfl h
  | cons u us => exact List.append_assoc t [';'] _

/-- A segment stands in its line between semicolons or the ends of the line. -/
theorem exists_of_mem_place {s : Segment} (ts : List Text) :
    ∀ {start : Nat}, s ∈ place start ts →
      ∃ a b, Text.joinWith [';'] ts = a ++ (s.text ++ b) ∧ s.start = start + a.length ∧
        Text.endsInWord a = false ∧ Text.startsInWord b = false := by
  have hsemi : isWord ';' = false := by decide
  induction ts with
  | nil =>
      intro start hs
      exact nomatch hs
  | cons t ts ih =>
      intro start hs
      -- the first part ends with the line or at a semicolon, and the others start behind one
      rcases List.mem_cons.mp hs with rfl | hmem
      · cases ts with
        | nil => exact ⟨[], [], (List.append_nil t).symm, rfl, rfl, rfl⟩
        | cons u us =>
            exact ⟨[], _, joinWith_cons_append t (List.cons_ne_nil u us), rfl, rfl, hsemi⟩
      · obtain ⟨a, b, hjoin, hstart, ha, hb⟩ := ih hmem
        have hne : ts ≠ [] := by
          rintro rfl
          exact nomatch hmem
        refine ⟨t ++ [';'] ++ a, b, ?_, ?_, Text.endsInWord_append ?_ ha, hb⟩
        · rw [joinWith_cons_append t hne, hjoin]
          simp only [List.append_assoc, List.cons_append, List.nil_append]
        · rw [hstart, List.length_append, List.length_append, List.length_singleton]
          omega
        · rw [Text.endsInWord_append_of_ne_nil _ (List.cons_ne_nil ';' [])]
          exact hsemi

/-- Put together with semicolons, the segments are the line. -/
theorem joinWith_split (code : Text) (brackets : Int) :
    Text.joinWith [';'] ((split code brackets).1.map (·.text)) = code := by
  rw [split, place_map_text, joinWith_cut, glyphs, map_char_glyphsFrom]

/-! ## Reading in two pieces -/

/-- The segment some columns further on. -/
def shift (width : Nat) (s : Segment) : Segment := { s with start := s.start + width }

/-- What some parts take of a line, each with the semicolon behind it. -/
def widthOf : List Text → Nat
  | [] => 0
  | part :: parts => part.length + 1 + widthOf parts

/-- Parts are placed behind those in front of them. -/
theorem place_append (parts more : List Text) : ∀ start : Nat,
    place start (parts ++ more) = place start parts ++ place (start + widthOf parts) more := by
  induction parts with
  | nil => exact fun _ => rfl
  | cons part parts ih =>
      intro start
      rw [List.cons_append, place, place, ih, widthOf,
        show start + (part.length + 1 + widthOf parts) = start + part.length + 1 + widthOf parts by
          omega]
      rfl

/-- Moving the parts is to place them further to the right. -/
theorem place_shift (width : Nat) (parts : List Text) : ∀ start : Nat,
    (place start parts).map (shift width) = place (start + width) parts := by
  induction parts with
  | nil => exact fun _ => rfl
  | cons part parts ih =>
      intro start
      rw [place, place, List.map_cons, ih,
        show start + part.length + 1 + width = start + width + part.length + 1 by omega]
      rfl

theorem length_joinWith (parts : List Text) (last : Text) :
    (Text.joinWith [';'] (parts ++ [last])).length = widthOf parts + last.length := by
  induction parts with
  | nil => exact (Nat.zero_add _).symm
  | cons part parts ih =>
      rw [List.cons_append, joinWith_cons_append _ (by simp), List.length_append,
        List.length_cons, ih, widthOf]
      omega

/-- Cutting two pieces one after the other cuts the whole, but for the seam. -/
theorem cut_append (gs hs : List Glyph) : ∀ n : Nesting, ∃ front last next behind,
    (cut n gs).1 = front ++ [last] ∧ (cut (n.after gs) hs).1 = next :: behind ∧
      (cut n (gs ++ hs)).1 = front ++ (last ++ next) :: behind := by
  induction gs with
  | nil =>
      intro n
      obtain ⟨next, behind, hnext⟩ := List.exists_cons_of_ne_nil (cut_ne_nil n hs)
      exact ⟨[], [], next, behind, rfl, hnext, hnext⟩
  | cons g gs ih =>
      intro n
      obtain ⟨front, last, next, behind, hgs, hhs, hall⟩ := ih (n.next g)
      by_cases hdivides : n.divides g = true
      · have hcut : ∀ more, (cut n (g :: more)).1 = [] :: (cut (n.next g) more).1 := by
          intro more
          rw [cut, if_pos hdivides, Nesting.next_of_divides hdivides]
        rw [List.cons_append, Nesting.after_cons, hhs, hcut, hcut, hgs, hall]
        exact ⟨[] :: front, last, next, behind, rfl, rfl, rfl⟩
      · -- the glyph joins the first part, which is the last one too where nothing divides
        have hglue : ∀ more, (cut n (g :: more)).1 = Text.glue g.char (cut (n.next g) more).1 := by
          intro more
          rw [cut, if_neg hdivides]
        rw [List.cons_append, Nesting.after_cons, hhs, hglue, hglue, hgs, hall]
        cases front with
        | nil => exact ⟨[], g.char :: last, next, behind, rfl, rfl, rfl⟩
        | cons part front => exact ⟨(g.char :: part) :: front, last, next, behind, rfl, rfl, rfl⟩

/-- The segments of a line that is read in two pieces: where no literal and no brace is open at
    the seam, the second piece goes on with the depth of brackets that the first one leaves. -/
theorem split_append {a : Text} {depth : Nat} (b : Text)
    (hquoting : Quoting.after .outside a = .outside)
    (hbraces : (liveText (glyphs a)).count '{' = (liveText (glyphs a)).count '}') :
    ∃ front last next behind,
      (split a depth).1 = front ++ [last] ∧
        (split b (split a depth).2).1 = next :: behind ∧
        (split (a ++ b) depth).1 =
          front ++ ⟨last.start, last.text ++ next.text⟩ :: behind.map (shift a.length) ∧
        (split (a ++ b) depth).2 = (split b (split a depth).2).2 := by
  have hglyphs := glyphs_append b hquoting
  -- with no brace open the rest of the line starts with the brackets that were handed on
  have hrest : Nesting.after ⟨depth, 0⟩ (glyphs a) = ⟨(split a depth).2, 0⟩ := by
    have hcount := Nesting.after_counted (glyphs a) depth 0
    rw [split_snd, hcount, hbraces, Int.zero_add, Int.sub_self]
  obtain ⟨front, last, next, behind, ha, hb, hall⟩ :=
    cut_append (glyphs a) (glyphs b) ⟨depth, 0⟩
  rw [hrest] at hb
  rw [← hglyphs] at hall
  have hwidth : a.length = widthOf front + last.length := by
    have hjoin := joinWith_cut ⟨depth, 0⟩ (glyphs a)
    rw [ha, glyphs, map_char_glyphsFrom] at hjoin
    rw [← length_joinWith, hjoin]
  refine ⟨place 0 front, ⟨0 + widthOf front, last⟩, ⟨0, next⟩, place (0 + next.length + 1) behind,
    ?_, ?_, ?_, ?_⟩
  · show place 0 (cut ⟨depth, 0⟩ (glyphs a)).1 = _
    rw [ha, place_append]
    rfl
  · show place 0 (cut ⟨(split a depth).2, 0⟩ (glyphs b)).1 = _
    rw [hb]
    rfl
  · show place 0 (cut ⟨depth, 0⟩ (glyphs (a ++ b))).1 = _
    rw [hall, place_append, place_shift, place, hwidth, List.length_append,
      show 0 + widthOf front + (last.length + next.length) + 1 =
        0 + next.length + 1 + (widthOf front + last.length) by omega]
  · rw [split_snd, split_snd, hglyphs, Nesting.after_append, hrest]

/-- The parts of a line between the semicolons that divide it: joined by them they are the line,
    each starts where it stands in the line, and they follow each other. -/
structure Partitions (code : Text) (depth : Nat) (segments : List Segment) : Prop where
  joined : Text.joinWith [';'] (segments.map (·.text)) = code
  indexed : ∀ s ∈ segments, ∃ before behind,
    code = before ++ (s.text ++ behind) ∧ s.start = before.length
  chained : segments.map (·.start) = 0 :: (cuts segments).map (· + 1)
  divided : ∀ column, column ∈ cuts segments ↔ DividesAt code depth column

/-- A line is parted at exactly the semicolons that divide it, the depth at its end is that of its
    brackets, and it can be read in two pieces wherever no literal and no brace is open. -/
theorem split_partitions (code : Text) (depth : Nat) :
    Partitions code depth (split code depth).1 ∧
      (split code depth).2 = bracketDepth depth (liveText (glyphs code)) ∧
      ∀ a b, code = a ++ b → Quoting.after .outside a = .outside →
        (liveText (glyphs a)).count '{' = (liveText (glyphs a)).count '}' →
        ∃ front last next behind,
          (split a depth).1 = front ++ [last] ∧
            (split b (split a depth).2).1 = next :: behind ∧
            (split code depth).1 =
              front ++ ⟨last.start, last.text ++ next.text⟩ :: behind.map (shift a.length) ∧
            (split code depth).2 = (split b (split a depth).2).2 := by
  refine ⟨⟨joinWith_split code depth, fun s hs => ?_, ?_, fun column => mem_cuts_split⟩, ?_, ?_⟩
  · obtain ⟨before, behind, hjoin, hstart, -, -⟩ := exists_of_mem_place _ hs
    rw [joinWith_cut, glyphs, map_char_glyphsFrom] at hjoin
    exact ⟨before, behind, hjoin, by rw [hstart, Nat.zero_add]⟩
  · exact starts_place 0 _ (cut_ne_nil _ _)
  · rw [split_snd, Nesting.after_counted]
  · rintro a b rfl hquoting hbraces
    exact split_append b hquoting hbraces

/-- A semicolon in braces, one in a literal, and two brackets that stay open. -/
def openFront : Text := "a struct \x7b x; y \x7d; t \";\"; f(["

/-- The brackets are closed here, and a brace is that was never opened. -/
def openBehind : Text := "n; m]; k) int \x7d; b"

/-- The semicolons behind the seam divide only once both brackets are closed. -/
theorem split_partitions_openBrackets :
    Quoting.after .outside openFront = .outside ∧
      (liveText (glyphs openFront)).count '{' = (liveText (glyphs openFront)).count '}' ∧
      ∃ front last next behind,
        (split openFront 0).1 = front ++ [last] ∧
          (split openBehind (split openFront 0).2).1 = next :: behind ∧
          (split (openFront ++ openBehind) 0).1 =
            front ++ ⟨last.start, last.text ++ next.text⟩ :: behind.map (shift openFront.length) ∧
          (split (openFront ++ openBehind) 0).2 = (split openBehind (split openFront 0).2).2 := by
  have hquoting : Quoting.after .outside openFront = .outside := by decide
  have hbraces : (liveText (glyphs openFront)).count '{' =
      (liveText (glyphs openFront)).count '}' := by decide +kernel
  exact ⟨hquoting, hbraces, (split_partitions (openFront ++ openBehind) 0).2.2 openFront openBehind
    rfl hquoting hbraces⟩

end Segment

end GoLayout
