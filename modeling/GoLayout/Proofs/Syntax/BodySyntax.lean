import GoLayout.Proofs.Syntax.FieldSyntax

/-! # Bodies as they are printed

    A printed body has one field on each line, with blank lines and comment lines anywhere
    between them.  Read back, its lines rest and give the fields of the lines, one after the
    other (`bodyFields_printed`). -/

namespace GoLayout

/-- Blanks on one line. -/
structure Margin where
  text : Text
  allBlank : Text.AllBlank text
  noBreak : '\n' ∉ text

/-- No blanks. -/
def Margin.none : Margin := ⟨[], by decide, List.not_mem_nil⟩

/-- A line without code: blanks, and a line comment if there is one. -/
structure Filler where
  blanks : Margin
  comment : Option Text
  comment_line : ∀ c ∈ comment, '\n' ∉ c

namespace Filler

/-- The line as it is printed. -/
def text (f : Filler) : Text :=
  f.blanks.text ++ match f.comment with
    | none => []
    | some c => '/' :: '/' :: c

theorem noBreak (f : Filler) : '\n' ∉ f.text := by
  obtain ⟨blanks, comment, hcomment⟩ := f
  cases comment with
  | none =>
      show '\n' ∉ blanks.text ++ []
      rw [List.append_nil]
      exact blanks.noBreak
  | some c =>
      have hc := hcomment c rfl
      simp [text, blanks.noBreak, hc]

/-- Read back, nothing but blanks is left of the line. -/
theorem strip_read (f : Filler) : ∃ t, Text.AllBlank t ∧
    Comment.strip (Text.dropTrailing '\r' f.text) false = (t, false) := by
  obtain ⟨blanks, comment, hcomment⟩ := f
  cases comment with
  | none =>
      have hblank : Text.AllBlank (Text.dropTrailing '\r' (blanks.text ++ [])) := by
        rw [List.append_nil]
        exact fun c hc =>
          blanks.allBlank c ((Text.dropTrailing_prefix '\r' blanks.text).subset hc)
      exact ⟨_, hblank, (Plain.of_allBlank hblank).strip_eq⟩
  | some c =>
      -- the two slashes are set apart, so that no carriage return in front of the second one can be
      -- taken away
      have hshape : ∀ d, blanks.text ++ '/' :: '/' :: d = (blanks.text ++ ['/']) ++ '/' :: d :=
        fun d => (List.append_assoc blanks.text ['/'] ('/' :: d)).symm
      refine ⟨blanks.text, blanks.allBlank, ?_⟩
      show Comment.strip (Text.dropTrailing '\r' (blanks.text ++ '/' :: '/' :: c)) false = _
      rw [hshape, Text.dropTrailing_append_cons (by decide), ← hshape]
      show Comment.stripFrom .code _ = _
      rw [(Plain.of_allBlank blanks.allBlank).stripFrom_append]
      show (blanks.text ++ [], false) = _
      rw [List.append_nil]

end Filler

/-- A line of a body: a filler, or a field behind a margin and a tab. -/
inductive BodyLine where
  | filler (f : Filler)
  | field (margin : Margin) (f : FieldSyntax) (e : Trailer)

/-- What the items of a list give one below the other, each from its line on, given how many
    lines an item takes. -/
def spread {α β : Type} (height : α → Nat) (give : Nat → α → List β) : Nat → List α → List β
  | _, [] => []
  | number, a :: as => give number a ++ spread height give (number + height a) as

namespace BodyLine

/-- The line as it is printed. -/
def text : BodyLine → Text
  | filler f => f.text
  | field margin f e => margin.text ++ ['\t'] ++ f.text ++ e.text

/-- The line as it is read. -/
def readText (l : BodyLine) : Text := Text.dropTrailing '\r' l.text

/-- The fields that are printed on the line. -/
def fields (allNames : Bool) (number : Nat) : BodyLine → List Field
  | filler _ => []
  | field margin f _ => f.fields allNames number (margin.text.length + 1)

/-- Fields are indented by blanks. -/
theorem indent_allBlank (margin : Margin) : Text.AllBlank (margin.text ++ ['\t']) := by
  intro c hc
  rcases List.mem_append.mp hc with hmem | hmem
  · exact margin.allBlank c hmem
  · rw [List.mem_singleton.mp hmem]
    rfl

theorem noBreak (l : BodyLine) : '\n' ∉ l.text := by
  cases l with
  | filler f => exact f.noBreak
  | field margin f e =>
      have hfield : '\n' ∉ f.text := f.closed.notMem List.mem_cons_self
      simp [text, margin.noBreak, hfield, e.noBreak]

theorem readText_field (margin : Margin) (f : FieldSyntax) (e : Trailer) :
    (field margin f e).readText = margin.text ++ ['\t'] ++ f.text ++ e.read.text :=
  e.dropTrailing_append f.solid (margin.text ++ ['\t'])

/-- No field is left open behind a line of a body. -/
theorem rests (l : BodyLine) : Rests l.readText := by
  cases l with
  | filler f =>
      obtain ⟨t, ht, hstrip⟩ := f.strip_read
      exact rests_of_allBlank hstrip ht
  | field margin f e =>
      rw [readText_field]
      exact f.rests e.read (indent_allBlank margin)

/-- A printed line gives the fields that were printed on it. -/
theorem bodyFields_eq {allNames : Bool} {number : Nat} {below : Text}
    (hbelow : Text.AllBlank below) (l : BodyLine) :
    bodyFields allNames number [l.readText] below = l.fields allNames number := by
  cases l with
  | filler f =>
      obtain ⟨t, ht, hstrip⟩ := f.strip_read
      exact bodyFields_of_allBlank hbelow hstrip ht
  | field margin f e =>
      -- the indent is not empty, so that the field stands behind a blank at least
      have hne : margin.text ++ ['\t'] ≠ [] :=
        fun hnil => List.cons_ne_nil _ _ (List.append_eq_nil_iff.mp hnil).2
      have hlen : (margin.text ++ ['\t']).length = margin.text.length + 1 := List.length_append
      rw [readText_field, f.bodyFields_eq e.read hbelow (indent_allBlank margin) hne, hlen]
      rfl

end BodyLine

/-- The fields that are printed in a body from a line on. -/
def printedFields (allNames : Bool) : Nat → List BodyLine → List Field :=
  spread (fun _ => 1) (BodyLine.fields allNames)

/-- Read back, a printed body has the fields that were printed. -/
theorem bodyFields_printed {allNames : Bool} {below : Text} (hbelow : Text.AllBlank below)
    (body : List BodyLine) :
    ∀ number, bodyFields allNames number (body.map BodyLine.readText) below =
      printedFields allNames number body := by
  induction body with
  | nil => intro number; exact bodyFields_nil hbelow
  | cons l body ih =>
      intro number
      rw [List.map_cons, bodyFields_cons _ hbelow l.rests, l.bodyFields_eq hbelow, ih]
      rfl

/-- A printed body stays at the depth where it starts. -/
theorem passesAll_printed (body : List BodyLine) :
    Body.PassesAll 1 (body.map BodyLine.readText) ∧
      Body.depthBehindAll 1 (body.map BodyLine.readText) = 1 := by
  refine passesAll_of_rests fun raw hraw => ?_
  obtain ⟨l, -, rfl⟩ := List.mem_map.mp hraw
  exact l.rests

end GoLayout
