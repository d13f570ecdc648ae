import GoLayout.Proofs.Document.FieldPlaces
import GoLayout.Proofs.Document.Reading
import GoLayout.Proofs.Source.Spelling

/-! # Where bodies lie in their document

    A body starts behind an opening brace, and what it holds on a line ends with the line or in
    front of the closing brace.  So every line of a body is one of the document from some column
    on (`Body.readFrom_parts`), and the fields of a struct are named on lines between its header
    and the last line of its body (`StructSource.fields_namedBetween`). -/

namespace GoLayout

open Text

/-! ## Lines behind a brace -/

/-- The code of the line is what is left of the line from its column on. -/
def CodeLine.IsRest (l : CodeLine) : Prop :=
  ∃ before, KeepsWords l.raw (before ++ l.code) ∧ before.length = l.column

namespace CodeLine

variable {l l' : CodeLine}

theorem ofRaw_isRest (number : Nat) (raw : Text) (inBlock : Bool) :
    (ofRaw number raw inBlock).IsRest := ⟨[], Comment.strip_keepsWords raw inBlock, rfl⟩

theorem ofRaw_sits (number : Nat) (raw : Text) (inBlock : Bool) :
    (ofRaw number raw inBlock).Sits := by
  refine ⟨[], [], ?_, rfl, rfl, rfl⟩
  rw [List.append_nil]
  exact Comment.strip_keepsWords raw inBlock

/-- The line behind a header. -/
theorem IsRest.header {number : Nat} {raw : Text} {inBlock inGroup : Bool} {h : Header}
    (hfind : Header.find? inGroup (ofRaw number raw inBlock).code = some h) :
    (h.rest (ofRaw number raw inBlock)).IsRest := by
  obtain ⟨before, hcode⟩ := Header.exists_behind hfind
  refine ⟨before, ?_, ?_⟩
  · show KeepsWords raw (before ++ h.behind)
    rw [← hcode]
    exact Comment.strip_keepsWords raw inBlock
  · show before.length = 0 + ((ofRaw number raw inBlock).code.length - h.behind.length)
    rw [hcode, List.length_append]
    omega

/-- Behind a brace no word goes on. -/
theorem IsRest.afterBrace? (h : l.IsRest) (hl : l.afterBrace? = some l') : l'.Sits := by
  obtain ⟨⟨inFront, after⟩, hcut, rfl⟩ := Option.map_eq_some_iff.mp hl
  obtain ⟨before, hkeeps, hcolumn⟩ := h
  have hcode := (cutAt?_eq_some.mp hcut).1
  refine ⟨before ++ (inFront ++ ['{']), [], ?_, ?_, ?_, rfl⟩
  · rw [hcode] at hkeeps
    simp only [List.append_assoc, List.singleton_append, List.append_nil] at hkeeps ⊢
    exact hkeeps
  · simp only [List.length_append, List.length_singleton, hcolumn]
    omega
  · rw [← List.append_assoc, endsInWord_append_of_ne_nil _ (List.cons_ne_nil '{' [])]
    exact show isWord '{' = false by decide

end CodeLine

namespace Bracket

/-- The count of braces stops at a closing one. -/
theorem closing_eq_some {column : Nat} (gs : List Glyph) :
    ∀ {depth : Int}, (closing depth gs).2 = some column →
      (gs[column]?).map (·.char) = some '}' := by
  induction gs generalizing column with
  | nil => intro depth h; exact nomatch h
  | cons g gs ih =>
      intro depth h
      rw [closing] at h
      -- the brace that brings the depth down is the one that is reported, the others are passed
      -- over
      split at h
      · next hclose =>
        obtain rfl := Option.some.inj h
        rw [Glyph.eq_of_isLive hclose.1]
        rfl
      · obtain ⟨column', hcolumn, rfl⟩ := Option.map_eq_some_iff.mp h
        exact ih hcolumn

theorem scanBraces_eq_some {code : Text} {depth : Int} {column : Nat}
    (h : (scanBraces code depth).2 = some column) :
    ∃ rest, code = code.take column ++ '}' :: rest := by
  have hchar := closing_eq_some (glyphs code) h
  rw [← List.getElem?_map, glyphs, map_char_glyphsFrom] at hchar
  obtain ⟨hlt, hget⟩ := List.getElem?_eq_some_iff.mp hchar
  refine ⟨code.drop (column + 1), ?_⟩
  rw [← hget, ← List.drop_eq_getElem_cons hlt, List.take_append_drop]

end Bracket

namespace Body

/-- What a line gives to the fields is the line, cut at the closing brace. -/
theorem mem_partOf {depth : Int} {l part : CodeLine}
    (hpart : part ∈ partOf depth l (Bracket.scanBraces l.code depth).2) (h : l.Sits) :
    part.number = l.number ∧ part.raw = l.raw ∧ part.Sits := by
  rw [partOf] at hpart
  split at hpart
  · obtain rfl := List.mem_singleton.mp hpart
    refine ⟨rfl, rfl, ?_⟩
    -- a line that closes the body is cut at its brace, which is no part of a word
    cases hclose : (Bracket.scanBraces l.code depth).2 with
    | none => exact h
    | some column =>
        obtain ⟨rest, hcode⟩ := Bracket.scanBraces_eq_some hclose
        have hcut : CodeAt l.raw l.column ([] ++ (l.code.take column ++ '}' :: rest)) := by
          rw [List.nil_append, ← hcode]
          exact h
        exact hcut.part rfl (show isWord '}' = false by decide)
  · cases hpart

/-- A line is at most one part of a body. -/
theorem partOf_pairwise (depth : Int) (l : CodeLine) (close : Option Nat) :
    (partOf depth l close).Pairwise (·.number < ·.number) := by
  rw [partOf]
  split
  · exact List.pairwise_singleton _ _
  · exact .nil

end Body

/-- The line is one of the document, from a first line to a last one. -/
structure CodeLine.Between (doc : List Text) (first last : Nat) (l : CodeLine) : Prop where
  getElem? : doc[l.number]? = some l.raw
  sits : l.Sits
  first_le : first ≤ l.number
  le_last : l.number ≤ last

namespace Body

variable {doc : List Text}

/-- The lines of a body that hold fields are lines of the document in order. -/
theorem readFrom_parts (lines : List Text) :
    ∀ (depth : Int) (l : CodeLine), l.StandsIn doc lines → l.Sits →
      (∀ part ∈ (readFrom depth l lines).parts,
        part.Between doc l.number (readFrom depth l lines).last.number) ∧
      (readFrom depth l lines).parts.Pairwise (·.number < ·.number) := by
  have hhere : ∀ (depth : Int) (l : CodeLine) (below : List Text) (last : Nat),
      l.StandsIn doc below → l.Sits → l.number ≤ last →
      ∀ part ∈ partOf depth l (Bracket.scanBraces l.code depth).2,
        part.Between doc l.number last ∧ part.number = l.number := by
    intro depth l below last hstands hsits hlast part hpart
    obtain ⟨hnumber, hraw, hpart⟩ := mem_partOf hpart hsits
    have hline := StandsAt.getElem? hstands
    rw [← hnumber, ← hraw] at hline
    exact ⟨⟨hline, hpart, hnumber.ge, by rw [hnumber]; exact hlast⟩, hnumber⟩
  induction lines with
  | nil =>
      intro depth l hstands hsits
      exact ⟨fun part hpart => (hhere depth l [] _ hstands hsits (Nat.le_refl _) part hpart).1,
        partOf_pairwise depth l _⟩
  | cons raw below ih =>
      intro depth l hstands hsits
      have hstop := fun part hpart =>
        (hhere depth l _ _ hstands hsits (Nat.le_refl l.number) part hpart).1
      cases hends : endingAbove? depth l raw with
      | some ending =>
          rw [readFrom_ends hends]
          exact ⟨hstop, partOf_pairwise depth l _⟩
      | none =>
          rw [readFrom_next hends]
          -- the lines below have higher numbers
          have hnumber := number_le_last (Bracket.scanBraces l.code depth).1
            (CodeLine.ofRaw (l.number + 1) raw l.inBlock) below
          obtain ⟨hparts, hpairwise⟩ := ih (Bracket.scanBraces l.code depth).1
            (CodeLine.ofRaw (l.number + 1) raw l.inBlock) (hstands.next raw)
            (CodeLine.ofRaw_sits _ _ _)
          have hfirst := hhere depth l _ _ hstands hsits (Nat.le_of_succ_le hnumber)
          refine ⟨fun part hpart => ?_, List.pairwise_append.mpr
            ⟨partOf_pairwise depth l _, hpairwise, fun part hpart next hnext => ?_⟩⟩
          · rcases List.mem_append.mp hpart with hpart | hpart
            · exact (hfirst part hpart).1
            · have h := hparts part hpart
              exact ⟨h.getElem?, h.sits, Nat.le_of_succ_le h.first_le, h.le_last⟩
          · rw [(hfirst part hpart).2]
            exact (hparts next hnext).first_le

/-- The body of a struct is read from a line that stands in the document behind a brace. -/
theorem sits_of_opening? {l first : CodeLine} {lines rest : List Text}
    (hstands : l.StandsIn doc lines) (hl : l.IsRest) (hopen : opening? l lines = some (first, rest)) :
    first.StandsIn doc rest ∧ first.Sits :=
  opening?_induct (P := fun m below => m.StandsIn doc below ∧ m.IsRest)
    (Q := fun m below => m.StandsIn doc below ∧ m.Sits)
    (fun _ raw _ hm => ⟨hm.1.next raw, CodeLine.ofRaw_isRest _ _ _⟩)
    (fun _ _ _ hm hbrace => ⟨hm.1.afterBrace? hbrace, hm.2.afterBrace? hbrace⟩) ⟨hstands, hl⟩ hopen

end Body

/-! ## The fields of a struct -/

/-- The field is named on a line of the document, from a first line to a last one. -/
structure Field.NamedBetween (doc : List Text) (first last : Nat) (f : Field) : Prop where
  isWordAt : ∃ raw, doc[f.location.line]? = some raw ∧ IsWordAt raw f.name f.location.startColumn
  end_eq : f.location.endColumn = f.location.startColumn + f.name.length
  first_le : first ≤ f.location.line
  le_last : f.location.line ≤ last

/-- The fields of lines of a document are named on them in order. -/
theorem StructSource.fields_namedBetween (s : StructSource) {doc : List Text} {first last : Nat}
    (hparts : ∀ part ∈ s.body.parts, part.Between doc first last)
    (hpairwise : s.body.parts.Pairwise (·.number < ·.number)) (allNames : Bool) :
    (∀ f ∈ s.fields allNames, f.NamedBetween doc first last) ∧
      (s.fields allNames).Pairwise Field.Precedes := by
  have hstart := OpenRun.Keeps.start s.body.parts 0
  obtain ⟨bound, hkeeps⟩ := hstart.feedAll s.body.parts
    (fun l hl => ⟨hl, (hparts l hl).sits, Nat.zero_le _⟩) hpairwise
  have hinOrder : OpenRun.InOrder s.body.parts bound (s.runs.1 ++ s.runs.2.toList) :=
    hkeeps.inOrder
  have hfields : s.fields allNames =
      (s.runs.1 ++ s.runs.2.toList).flatMap (FieldRun.fields allNames) := s.fields_eq allNames
  rw [hfields]
  refine ⟨fun f hf => ?_, hinOrder.fields_pairwise allNames⟩
  -- a field belongs to a run, the run to a line, and the line lies within the struct
  obtain ⟨r, hr, hf⟩ := List.mem_flatMap.mp hf
  obtain ⟨l, hl, hlies⟩ := hinOrder.liesIn r hr
  have hnamed := (hlies.namedIn allNames).1 f hf
  have hline := hparts l hl
  refine ⟨⟨l.raw, ?_, hnamed.isWordAt⟩, hnamed.end_eq, ?_, ?_⟩
  · rw [hnamed.line_eq]
    exact hline.getElem?
  · rw [hnamed.line_eq]
    exact hline.first_le
  · rw [hnamed.line_eq]
    exact hline.le_last

end GoLayout
