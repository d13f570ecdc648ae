import GoLayout.Proofs.Document.Struct
import GoLayout.Proofs.FieldLine.Trailer
import GoLayout.Proofs.Source.Closed

/-! # Lines that rest

    A line of a body rests when it leaves everything behind it as it was in front of it: the
    depth, the nesting, and no open run.  A body of resting lines is read line by line
    (`bodyFields_cons`).  Two kinds of lines rest:

    * lines without code, which declare nothing (`bodyFields_of_allBlank`);
    * lines with one field in closed text, and with what may stand behind it
      (`bodyFields_fieldLine`). -/

namespace GoLayout

open Body

/-- The line is passed at depth one, and nothing that it opens is open behind it. -/
structure Rests (raw : Text) : Prop where
  passes : Passes 1 raw
  depth : depthBehind 1 raw = 1
  settled : Settled [raw]
  undivided : ∀ g ∈ glyphs (codeOf raw), g.isLive ';' = false

/-- Resting lines are passed, and keep the depth of the struct. -/
theorem passesAll_of_rests {lines : List Text} (h : ∀ raw ∈ lines, Rests raw) :
    PassesAll 1 lines ∧ depthBehindAll 1 lines = 1 := by
  induction lines with
  | nil => exact ⟨trivial, rfl⟩
  | cons raw lines ih =>
      have hraw := h raw List.mem_cons_self
      obtain ⟨hpass, hdepth⟩ := ih fun r hr => h r (List.mem_cons_of_mem _ hr)
      rw [← hraw.depth] at hpass
      refine ⟨⟨hraw.passes, hpass⟩, ?_⟩
      show depthBehindAll (depthBehind 1 raw) lines = 1
      rw [hraw.depth, hdepth]

variable {allNames : Bool} {number : Nat} {margin : Text}

/-- The fields of a resting line come before those of the lines below, whatever these are. -/
theorem bodyFields_cons {raw : Text} (lines : List Text) (hmargin : Text.AllBlank margin)
    (h : Rests raw) :
    bodyFields allNames number (raw :: lines) margin =
      bodyFields allNames number [raw] margin ++ bodyFields allNames (number + 1) lines margin := by
  have hdepth : depthBehindAll 1 [raw] = 1 := h.depth
  exact bodyFields_append lines hmargin hdepth h.settled

/-- The fields of a resting line are those of its one run. -/
theorem bodyFields_rests {raw : Text} (hmargin : Text.AllBlank margin) (h : Rests raw) :
    bodyFields allNames number [raw] margin =
      (OpenRun.wholeLine (CodeLine.ofRaw number raw false)).fields allNames := by
  -- no bracket is open at the end of the line, so that it is one run, completed at once
  have hclosed : OpenRun.bracketsBehind 0 (CodeLine.ofRaw number raw false) = 0 := by
    rw [OpenRun.bracketsBehind, Segment.split_snd]
    exact h.settled
  have hfeed : OpenRun.start.feedAll (partsOf 1 number [raw]) =
      ([OpenRun.wholeLine (CodeLine.ofRaw number raw false)], OpenRun.start) := by
    show OpenRun.start.feedAll [CodeLine.ofRaw number raw false] = _
    rw [OpenRun.feedAll_cons, OpenRun.feed_wholeLine h.undivided hclosed]
    rfl
  have hdepth : depthBehindAll 1 [raw] = 1 := h.depth
  have hruns : bodyRuns number ([raw] ++ []) margin = _ := bodyRuns_append [] hdepth h.settled
  have hnil : bodyFields allNames (number + 1) [] margin = [] := bodyFields_nil hmargin
  rw [List.append_nil, hfeed] at hruns
  rw [bodyFields] at hnil
  rw [bodyFields, hruns, List.flatMap_append]
  show [_].flatMap _ ++ (bodyRuns (number + 1) [] margin).flatMap _ = _
  rw [hnil, List.append_nil, List.flatMap_singleton]

/-! ## Lines without code -/

/-- A line of which only blanks are left rests. -/
theorem rests_of_allBlank {raw t : Text} (hstrip : Comment.strip raw false = (t, false))
    (ht : Text.AllBlank t) : Rests raw := by
  have hcode : codeOf raw = t := congrArg Prod.fst hstrip
  have hstill : Still (glyphs (codeOf raw)) := by
    rw [hcode, (Plain.of_allBlank ht).glyphs_eq]
    exact still_of_allBlank ht
  -- blanks are no header, no brace, no bracket and no semicolon
  refine ⟨⟨congrArg Prod.snd hstrip, fun _ => ?_, ?_⟩, ?_, ?_, ?_⟩
  · rw [hcode, Header.leading?, Text.trimLeft_of_allBlank ht]
    rfl
  · exact Bracket.staysInside_of_still (Int.le_refl 1) hstill
  · rw [depthBehind, Bracket.braceSum_of_still hstill]
    rfl
  · show (Nesting.after ⟨0, 0⟩ (glyphs (codeOf raw))).brackets = 0
    rw [Nesting.after_of_still hstill]
  · exact fun g hg => hstill g hg ';' List.mem_cons_self

/-- A line of which only blanks are left has no fields. -/
theorem bodyFields_of_allBlank {raw t : Text} (hmargin : Text.AllBlank margin)
    (hstrip : Comment.strip raw false = (t, false)) (ht : Text.AllBlank t) :
    bodyFields allNames number [raw] margin = [] := by
  rw [bodyFields_rests hmargin (rests_of_allBlank hstrip ht)]
  refine OpenRun.wholeLine_fields_of_allBlank ?_
  show Text.AllBlank (Comment.strip raw false).1
  rw [hstrip]
  exact ht

/-! ## Lines with a field -/

section FieldLine

variable {indent field : Text} (e : Trailer)

/-- Of a field line the comment is taken away, and its field stays. -/
theorem strip_fieldLine (hindent : Text.AllBlank indent) (hfield : Closed field) :
    Comment.strip (indent ++ field ++ e.text) false = (indent ++ field ++ e.code, false) := by
  have hplain : Plain (indent ++ field) := (Plain.of_allBlank hindent).append hfield.plain
  show Comment.stripFrom .code (indent ++ field ++ e.text) = _
  rw [hplain.stripFrom_append, e.stripFrom_text]
  rfl

/-- The field of a line is live, up to what stands behind it. -/
theorem glyphs_fieldLine (hindent : Text.AllBlank indent) (hfield : Closed field) :
    glyphs (indent ++ field ++ e.code) =
      liveGlyphs indent ++ (liveGlyphs field ++ glyphs e.code) := by
  have hplain : Plain (indent ++ field) := (Plain.of_allBlank hindent).append hfield.plain
  rw [hplain.glyphs_append, liveGlyphs_append, List.append_assoc]

theorem leading?_fieldLine (hindent : Text.AllBlank indent) (hsolid : Text.Solid field)
    (code : Text) :
    Header.leading? (indent ++ field ++ code) = Header.atKeyword? (field ++ code) := by
  rw [Header.leading?, List.append_assoc, Text.trimLeft_append hindent, hsolid.trimLeft]

/-- The line of a field rests. -/
theorem rests_fieldLine (hindent : Text.AllBlank indent) (hfield : Closed field)
    (hsolid : Text.Solid field) (hheader : Header.atKeyword? (field ++ e.code) = none) :
    Rests (indent ++ field ++ e.text) := by
  have hstrip := strip_fieldLine e hindent hfield
  have hcode : codeOf (indent ++ field ++ e.text) = indent ++ field ++ e.code :=
    congrArg Prod.fst hstrip
  have hglyphs := glyphs_fieldLine e hindent hfield
  have hstill := still_of_allBlank hindent
  obtain ⟨hzero, hinside⟩ := hfield.staysInside
  -- indentation and trailer are still, and the field between them is closed
  refine ⟨⟨congrArg Prod.snd hstrip, fun _ => ?_, ?_⟩, ?_, ?_, ?_⟩
  · rw [hcode, leading?_fieldLine hindent hsolid, hheader]
  · rw [hcode, hglyphs]
    refine (Bracket.staysInside_of_still (Int.le_refl 1) hstill).glue ?_
    rw [Bracket.braceSum_of_still hstill]
    refine (hinside _ (Int.le_refl 1)).glue ?_
    rw [hzero]
    exact Bracket.staysInside_of_still (Int.le_refl 1) e.still
  · rw [depthBehind, hcode, hglyphs, Bracket.braceSum_append, Bracket.braceSum_append, hzero,
      Bracket.braceSum_of_still hstill, Bracket.braceSum_of_still e.still]
    rfl
  · show (Nesting.after ⟨0, 0⟩ (glyphs (codeOf _))).brackets = 0
    rw [hcode, hglyphs, Nesting.after_append, Nesting.after_append, Nesting.after_of_still hstill,
      hfield.after_eq _ (Int.le_refl 0), Nesting.after_of_still e.still]
  · intro g hg
    rw [hcode, hglyphs] at hg
    rcases List.mem_append.mp hg with hblank | hrest
    · exact hstill g hblank ';' List.mem_cons_self
    · rcases List.mem_append.mp hrest with hin | hbehind
      · obtain ⟨c, hc, rfl⟩ := List.mem_map.mp hin
        refine isLive_of_ne ?_
        rintro rfl
        exact hfield.notMem (List.mem_cons_of_mem _ List.mem_cons_self) hc
      · exact e.still g hbehind ';' List.mem_cons_self

/-- The fields of a line with a field are those that its text without tag and comment declares,
    placed on the whole line. -/
theorem bodyFields_fieldLine {l : FieldLine} (hmargin : Text.AllBlank margin)
    (hindent : Text.AllBlank indent) (hfield : Closed field) (hsolid : Text.Solid field)
    (hheader : Header.atKeyword? (field ++ e.code) = none)
    (hclean : FieldLine.ofClean? field = some l) :
    bodyFields allNames number [indent ++ field ++ e.text] margin =
      (OpenRun.wholeLine (CodeLine.ofRaw number (indent ++ field ++ e.text) false)).placeNames
        l.type 0 (if allNames then l.names else l.names.take 1) := by
  have hclassify : FieldLine.classify
      (OpenRun.wholeLine (CodeLine.ofRaw number (indent ++ field ++ e.text) false)).text =
      some l := by
    -- without the comment, and then without the tag, the field is left
    show FieldLine.ofClean? (Tag.strip (Comment.strip (indent ++ field ++ e.text) false).1) = _
    rw [strip_fieldLine e hindent hfield]
    show FieldLine.ofClean? (Tag.strip (indent ++ field ++ e.code)) = _
    rw [e.strip_append hindent hfield.plain hsolid, hclean]
  rw [bodyFields_rests hmargin (rests_fieldLine e hindent hfield hsolid hheader),
    FieldRun.fields, hclassify]
  rfl

end FieldLine

end GoLayout
