import GoLayout.Proofs.Document.BodyLines
import GoLayout.Proofs.Document.BodyPlaces

/-! # Names in the code

    The names of a field come from the code of its line, but each is looked for in the line with
    its comments.  So a field is located in the code exactly if no comment shows its name between
    the start of the search and its place in the code (`fieldInCode_iff`); otherwise it is located
    in the comment (`located_inComment`).  The route:

    * a whole word of the line that the code spells at the same place is a whole word of the code
      (`KeepsWords.isWordAt_of_spells`), so that the search ends in the code exactly if the first
      whole word on the line is one of the code (`Column.spells_locate_iff`);
    * the names of a run stand in its first segment in order, so that each search has a place in
      the code in front of it (`FieldRun.placeNames_searched`);
    * reading keeps the code of each line, and every segment is a part of it
      (`StructSource.isCoded`). -/

namespace GoLayout

open Text

/-! ## One search -/

/-- The text has the name at the column. -/
def Text.Spells (t name : Text) (column : Nat) : Prop :=
  ∃ before behind, t = before ++ (name ++ behind) ∧ before.length = column

/-- Wherever the name stands on the line as a whole word, from the start of the search on, it
    stands in the code no further to the right. -/
def FirstInCode (raw code name : Text) (start : Nat) : Prop :=
  ∀ column, start ≤ column → IsWordAt raw name column →
    ∃ place, start ≤ place ∧ place ≤ column ∧ IsWordAt code name place

namespace KeepsWords

variable {raw code name : Text} {column p : Nat}

theorem refl (t : Text) : KeepsWords t t := ⟨fun _ _ => rfl, fun _ _ h => h, fun _ _ h => h⟩

theorem wordAt (h : KeepsWords raw code) (hp : Text.wordAt code p = true) :
    Text.wordAt raw p = true := by
  rw [Text.wordAt, h.kept p hp]
  exact hp

/-- Code that spells a name where the line has it as a word has it as a word itself. -/
theorem isWordAt_of_spells (h : KeepsWords raw code) (hname : Identifier.isIdentifier name = true)
    (hword : IsWordAt raw name column) (hspells : Spells code name column) :
    IsWordAt code name column := by
  obtain ⟨before, behind, rfl, rfl⟩ := hspells
  -- a longer word in the code would be one in the line
  refine isWordAt_of_getElem? (Identifier.length_pos hname) (fun j hj => ?_) (fun p hp => ?_) ?_
  · exact getElem?_between before behind hj
  · refine eq_false_of_ne_true fun hcode => ?_
    rw [← hp] at hword
    have hraw := h.wordAt hcode
    rw [hword.wordAt_previous] at hraw
    exact nomatch hraw
  · refine eq_false_of_ne_true fun hcode => ?_
    have hraw := h.wordAt hcode
    rw [hword.wordAt_next] at hraw
    exact nomatch hraw

end KeepsWords

/-- The search ends in the code exactly if no whole word on the line comes first. -/
theorem Column.spells_locate_iff {raw code name : Text} {start place : Nat}
    (hkeeps : KeepsWords raw code) (hname : Identifier.isIdentifier name = true)
    (hplace : IsWordAt code name place) (hle : start ≤ place) :
    Spells code name (locate raw name start) ↔ FirstInCode raw code name start := by
  obtain ⟨hge, -, hword⟩ := locate_isWordAt (hkeeps.isWordAt hname hplace) hle
  -- the search gives the first place in the line, and the place in the code is one of those that it
  -- may reach
  constructor
  · intro hspells column hstart hcolumn
    obtain ⟨-, hfirst, -⟩ := locate_isWordAt hcolumn hstart
    exact ⟨_, hge, hfirst, hkeeps.isWordAt_of_spells hname hword hspells⟩
  · intro hfirst
    obtain ⟨place', hstart, hle', hcode⟩ := hfirst _ hge hword
    obtain ⟨-, hreach, -⟩ := locate_isWordAt (hkeeps.isWordAt hname hcode) hstart
    rw [Nat.le_antisymm hreach hle']
    obtain ⟨before, behind, hsplit, hlength, -, -⟩ := hcode
    exact ⟨before, behind, hsplit, hlength⟩

/-! ## The searches of a run -/

/-- Where the next name is looked for: from the column on, or behind the last field. -/
def searchStart (column : Nat) (before : List Field) : Nat :=
  before.getLast?.elim column (·.location.endColumn)

/-- The search for a field starts behind the one before it. -/
theorem searchStart_cons (column : Nat) (f : Field) (before : List Field) :
    searchStart column (f :: before) = searchStart f.location.endColumn before := by
  rw [searchStart, searchStart, List.getLast?_cons]
  cases before.getLast? with
  | none => rfl
  | some g => rfl

/-- The field is located by a search in its line from the start on, and the code has its name
    behind the start. -/
structure Field.Searched (r : FieldRun) (code : Text) (limit start : Nat) (f : Field) : Prop where
  isIdentifier : Identifier.isIdentifier f.name = true
  location_eq : f.location = ⟨r.line, Column.locate r.raw f.name start,
    Column.locate r.raw f.name start + f.name.length⟩
  place : ∃ column, start ≤ column ∧ column + f.name.length ≤ limit ∧ IsWordAt code f.name column

/-- The code of the line spells the name of the field at its location, within the first segment
    of the run. -/
structure Field.SpelledIn (code : Text) (r : FieldRun) (f : Field) : Prop where
  line_eq : f.location.line = r.line
  end_eq : f.location.endColumn = f.location.startColumn + f.name.length
  first_le : r.column ≤ f.location.startColumn
  end_le : f.location.endColumn ≤ r.column + r.head.length
  spells : Spells code f.name f.location.startColumn

theorem Field.Searched.spelledIn_iff {r : FieldRun} {code : Text} {start : Nat} {f : Field}
    (h : f.Searched r code (r.column + r.head.length) start) (hkeeps : KeepsWords r.raw code)
    (hstart : r.column ≤ start) : f.SpelledIn code r ↔ FirstInCode r.raw code f.name start := by
  obtain ⟨column, hle, hlimit, hplace⟩ := h.place
  obtain ⟨hge, hreach, -⟩ :=
    Column.locate_isWordAt (hkeeps.isWordAt h.isIdentifier hplace) hle
  have hiff := Column.spells_locate_iff hkeeps h.isIdentifier hplace hle
  -- what is to be shown besides the spelling follows from the place that was searched
  constructor
  · intro hspelled
    have hspells := hspelled.spells
    rw [h.location_eq] at hspells
    exact hiff.mp hspells
  · intro hfirst
    have hspells := hiff.mpr hfirst
    have hline : f.location.line = r.line := by rw [h.location_eq]
    have hend : f.location.endColumn = f.location.startColumn + f.name.length := by
      rw [h.location_eq]
    have hfound : Column.locate r.raw f.name start = f.location.startColumn := by
      rw [h.location_eq]
    rw [hfound] at hge hreach hspells
    exact ⟨hline, hend, by omega, by omega, hspells⟩

namespace FieldRun

variable {r : FieldRun} {l : CodeLine} {code : Text} {limit : Nat}

/-- Names that stand in the code in order are each looked for in front of their place. -/
theorem placeNames_searched (hkeeps : KeepsWords r.raw code) (type : Text) (names : List Text) :
    ∀ {column start : Nat}, column ≤ start → StandIn code limit start names →
      ∀ {before f behind}, r.placeNames type column names = before ++ f :: behind →
        column ≤ searchStart column before ∧
          f.Searched r code limit (searchStart column before) := by
  induction names with
  | nil => intro column start _ _ before f behind h; cases before <;> exact nomatch h
  | cons name names ih =>
      intro column start hle h before f behind hsplit
      obtain ⟨place, hplace, hname, hword, hrest⟩ := h
      have hlimit := StandIn.le_limit names hrest
      have hcolumn := Nat.le_trans hle hplace
      obtain ⟨hge, hreach, -⟩ :=
        Column.locate_isWordAt (hkeeps.isWordAt hname hword) hcolumn
      rw [placeNames] at hsplit
      cases before with
      | nil =>
          obtain ⟨rfl, -⟩ := List.cons.inj hsplit
          exact ⟨Nat.le_refl _, hname, rfl, place, hcolumn, hlimit, hword⟩
      | cons g before =>
          -- the next search starts no further to the right than the next name stands
          obtain ⟨rfl, hmore⟩ := List.cons.inj hsplit
          rw [searchStart_cons]
          obtain ⟨hstart, hsearched⟩ :=
            ih (Nat.add_le_add_right hreach name.length) hrest hmore
          exact ⟨Nat.le_trans (Nat.le_add_right_of_le hge) hstart, hsearched⟩

/-- The first segment of the run is a part of the code of its line. The codes are those of the
    lines of the document from the first one on. -/
structure IsCoded (doc codes : List Text) (first : Nat) (r : FieldRun) (code : Text) : Prop where
  raw_eq : doc[r.line]? = some r.raw
  first_le : first ≤ r.line
  code_eq : codes[r.line - first]? = some code
  keepsWords : KeepsWords r.raw code
  partAt : PartAt code r.column r.head

/-- The names of the fields are looked for in front of their places in the first segment. -/
theorem LiesIn.searched (h : r.LiesIn l) (hkeeps : KeepsWords r.raw code)
    (hpart : PartAt code r.column r.head) {allNames : Bool} {before behind : List Field}
    {f : Field} (hsplit : r.fields allNames = before ++ f :: behind) :
    r.column ≤ searchStart r.column before ∧
      f.Searched r code (r.column + r.head.length) (searchStart r.column before) := by
  rw [fields] at hsplit
  cases hclassify : FieldLine.classify r.text with
  | none =>
      rw [hclassify] at hsplit
      cases before <;> cases hsplit
  | some found =>
      rw [hclassify] at hsplit
      have hprefix : (if allNames then found.names else found.names.take 1) <+: found.names := by
        split
        · exact List.prefix_rfl
        · exact List.take_prefix _ _
      have hnames := h.namesInOrder ((FieldLine.classify_namesInOrder hclassify).of_first hprefix)
      obtain ⟨inFront, after, hcode, hcolumn, hfront, hafter⟩ := hpart
      have hstand := hnames.standIn hafter (hcode ▸ KeepsWords.refl code) (.inl hfront)
      rw [hcolumn, ← hcode] at hstand
      exact placeNames_searched hkeeps found.type _ (Nat.le_refl _) hstand hsplit

end FieldRun

/-! ## The code of the lines -/

/-- The line is one of the document, and its code goes on behind the given text.  The codes are
    those of the lines of the document from the first one on. -/
structure CodeLine.RestIn (doc codes : List Text) (first : Nat) (before : Text) (l : CodeLine)
    (below : List Text) : Prop where
  standsIn : l.StandsIn doc below
  codes_eq : ∃ above, codes = above ++ (before ++ l.code) :: Comment.codes l.inBlock below ∧
    l.number = first + above.length
  column_eq : before.length = l.column
  keepsWords : KeepsWords l.raw (before ++ l.code)

namespace CodeLine.RestIn

variable {doc codes below : List Text} {first : Nat} {before raw : Text} {l l' : CodeLine}

theorem next (h : l.RestIn doc codes first before (raw :: below)) :
    (CodeLine.ofRaw (l.number + 1) raw l.inBlock).RestIn doc codes first [] below := by
  obtain ⟨above, hcodes, hnumber⟩ := h.codes_eq
  refine ⟨h.standsIn.next raw, ⟨above ++ [before ++ l.code], ?_, ?_⟩, rfl,
    Comment.strip_keepsWords raw l.inBlock⟩
  · rw [hcodes, List.append_assoc]
    rfl
  · show l.number + 1 = _
    rw [List.length_append, List.length_singleton, hnumber]
    rfl

/-- The line behind the header that reading comes to. -/
theorem header {t : ReadState} {header : Header} (hstands : StandsAt doc t.number (raw :: below))
    (hfind : Header.find? (t.group = 1) (t.line raw).code = some header) :
    ∃ before, (header.rest (t.line raw)).RestIn doc (Comment.codes t.inBlock (raw :: below))
      t.number before below := by
  obtain ⟨before, hcode⟩ := Header.exists_behind hfind
  -- what stands in front of the rest of the header line is the code up to the end of the header
  refine ⟨before, hstands, ⟨[], ?_, rfl⟩, ?_, ?_⟩
  · show (t.line raw).code :: _ = (before ++ header.behind) :: _
    rw [← hcode]
    rfl
  · show before.length = 0 + ((t.line raw).code.length - header.behind.length)
    rw [hcode, List.length_append]
    omega
  · show KeepsWords raw (before ++ header.behind)
    rw [← hcode]
    exact Comment.strip_keepsWords raw t.inBlock

theorem afterBrace? (h : l.RestIn doc codes first before below) (hl : l.afterBrace? = some l') :
    ∃ before, endsInWord before = false ∧ l'.RestIn doc codes first before below := by
  obtain ⟨⟨inFront, after⟩, hcut, rfl⟩ := Option.map_eq_some_iff.mp hl
  have hcode : before ++ l.code = before ++ (inFront ++ ['{']) ++ after := by
    rw [(cutAt?_eq_some.mp hcut).1]
    simp only [List.append_assoc, List.singleton_append]
  obtain ⟨hstands, hcodes, hcolumn, hkeeps⟩ := h
  rw [hcode] at hcodes hkeeps
  refine ⟨before ++ (inFront ++ ['{']), ?_, hstands, hcodes, ?_, hkeeps⟩
  · rw [← List.append_assoc, endsInWord_append_of_ne_nil _ (List.cons_ne_nil '{' [])]
    exact show isWord '{' = false by decide
  · simp only [List.length_append, List.length_singleton, hcolumn]
    omega

end CodeLine.RestIn

namespace Body

variable {doc codes lines rest : List Text} {number : Nat} {l first : CodeLine} {before : Text}

/-- What a line gives to the fields is the start of its code, which goes on with no word. -/
theorem code_of_mem_partOf {depth : Int} {part : CodeLine}
    (hpart : part ∈ partOf depth l (Bracket.scanBraces l.code depth).2) :
    part.number = l.number ∧ part.raw = l.raw ∧ part.column = l.column ∧
      ∃ behind, l.code = part.code ++ behind ∧ startsInWord behind = false := by
  rw [partOf] at hpart
  split at hpart
  · obtain rfl := List.mem_singleton.mp hpart
    refine ⟨rfl, rfl, rfl, ?_⟩
    -- a body that is closed on the line ends in front of its brace
    cases hclose : (Bracket.scanBraces l.code depth).2 with
    | none => exact ⟨[], (List.append_nil _).symm, rfl⟩
    | some column =>
        obtain ⟨behind, hcode⟩ := Bracket.scanBraces_eq_some hclose
        exact ⟨_, hcode, show isWord '}' = false by decide⟩
  · cases hpart

/-- Every part of a body is a part of the code of its line. -/
theorem read_codes (h : l.RestIn doc codes number before lines)
    (hopen : opening? l lines = some (first, rest)) :
    ∀ part ∈ (read first rest).parts, ∃ code, doc[part.number]? = some part.raw ∧
      number ≤ part.number ∧ codes[part.number - number]? = some code ∧
      KeepsWords part.raw code ∧ PartAt code part.column part.code := by
  intro part hpart
  -- in front of the brace a line may start behind a word, in the body it does not
  have hfirst : ∃ before, endsInWord before = false ∧ first.RestIn doc codes number before rest :=
    opening?_induct (P := fun m below => ∃ before, m.RestIn doc codes number before below)
      (Q := fun m below =>
        ∃ before, endsInWord before = false ∧ m.RestIn doc codes number before below)
      (fun _ _ _ ⟨_, hm⟩ => ⟨[], hm.next⟩) (fun _ _ _ ⟨_, hm⟩ hbrace => hm.afterBrace? hbrace)
      ⟨before, h⟩ hopen
  obtain ⟨depth, m, below, ⟨inFront, hfront, hm⟩, hpart⟩ :=
    readFrom_parts_induct (P := fun m below =>
        ∃ before, endsInWord before = false ∧ m.RestIn doc codes number before below)
      (fun _ _ _ ⟨_, _, hm⟩ => ⟨[], rfl, hm.next⟩) rest 1 first hfirst part hpart
  obtain ⟨hnumber, hraw, hcolumn, behind, hcode, hbehind⟩ := code_of_mem_partOf hpart
  obtain ⟨above, rfl, habove⟩ := hm.codes_eq
  refine ⟨inFront ++ m.code, ?_, ?_, ?_, ?_, inFront, behind, ?_, ?_, hfront, hbehind⟩
  · rw [hnumber, hraw]
    exact StandsAt.getElem? hm.standsIn
  · omega
  · rw [hnumber, habove, Nat.add_sub_cancel_left, List.getElem?_append_right (Nat.le_refl _),
      Nat.sub_self]
    rfl
  · rw [hraw]
    exact hm.keepsWords
  · rw [hcode]
  · rw [hcolumn]
    exact hm.column_eq

end Body

/-! ## The fields of a struct -/

namespace StructSource

/-- The codes of the lines of a document from the header of the struct on.  Whether a comment is
    open is what reading says where it comes to the header. -/
def IsCodeFrom (source : Text) (s : StructSource) (codes : List Text) : Prop :=
  ∃ found t lines, Document.Run .start (sourceLines source) found t lines ∧
    t.number = s.headerLine ∧ codes = Comment.codes t.inBlock lines

variable {source : Text} {s : StructSource} {codes : List Text}

/-- Every struct of a document has the code from its header on. -/
theorem exists_isCodeFrom (hs : s ∈ Document.structs source) :
    ∃ codes, s.IsCodeFrom source codes := by
  obtain ⟨found, t, raw, below, header, first, rest, hrun, -, -, rfl⟩ :=
    Document.exists_reading hs
  exact ⟨_, found, t, _, hrun, rfl, rfl⟩

/-- Every run of the struct starts with a segment of the code of its line. -/
theorem isCoded (hs : s ∈ Document.structs source) (hcodes : s.IsCodeFrom source codes) :
    ∀ r ∈ s.fieldRuns, ∃ l code, r.LiesIn l ∧
      r.IsCoded (sourceLines source) codes s.headerLine code := by
  obtain ⟨found, t, raw, below, header, first, rest, hrun, hfind, hopen, rfl⟩ :=
    Document.exists_reading hs
  obtain ⟨found', t', lines, hrun', hnumber, rfl⟩ := hcodes
  -- there is one state in which the header line is read, so that the codes are those of the reading
  obtain ⟨rfl, rfl⟩ := hrun'.eq_of_number_eq hrun hnumber
  intro r hr
  have hstands := hrun.standsAt (StandsAt.start _)
  obtain ⟨before, hheader⟩ := CodeLine.RestIn.header hstands hfind
  obtain ⟨hfirst, hsits⟩ := Body.sits_of_opening? hheader.standsIn (.header hfind) hopen
  obtain ⟨hparts, hpairwise⟩ := Body.readFrom_parts rest 1 first hfirst hsits
  -- a run lies on a line of the body, and its code is that of a line from the header on
  obtain ⟨bound, hkeeps⟩ := (OpenRun.Keeps.start (Body.read first rest).parts 0).feedAll _
    (fun l hl => ⟨hl, (hparts l hl).sits, Nat.zero_le _⟩) hpairwise
  obtain ⟨l, hl, hlies⟩ := hkeeps.inOrder.liesIn r hr
  obtain ⟨code, hraw, hle, hcode, hwords, hpart⟩ := Body.read_codes hheader hopen l hl
  refine ⟨l, code, hlies, ?_⟩
  rw [← hlies.raw_eq, ← hlies.line_eq] at hraw
  rw [← hlies.line_eq] at hle hcode
  rw [← hlies.raw_eq] at hwords
  refine ⟨hraw, hle, hcode, hwords, ?_⟩
  obtain ⟨column, hcolumn, inFront, behind, hhead, rfl, hfront, hbehind⟩ := hlies.partAt
  rw [hhead] at hpart
  rw [hcolumn]
  exact hpart.part hfront hbehind

end StructSource

open Document in
/-- A field is located in the code of its line, within its own segment, exactly if its name stands
    in no comment between the start of the search and its place in the code. -/
theorem fieldInCode_iff (allNames : Bool) (source : Text) :
    declarations allNames source = (structs source).map (StructSource.declaration allNames) ∧
      ∀ s ∈ structs source, (s.declaration allNames).fields =
          s.fieldRuns.flatMap (FieldRun.fields allNames) ∧
        (∃ codes, s.IsCodeFrom source codes) ∧
        ∀ codes, s.IsCodeFrom source codes → ∀ r ∈ s.fieldRuns, ∃ code,
          r.IsCoded (sourceLines source) codes s.headerLine code ∧
          ∀ before f behind, r.fields allNames = before ++ f :: behind →
            (f.SpelledIn code r ↔
              FirstInCode r.raw code f.name (searchStart r.column before)) := by
  refine ⟨declarations_eq_map allNames source, ?_⟩
  intro s hs
  refine ⟨s.fields_eq allNames, s.exists_isCodeFrom hs, ?_⟩
  intro codes hcodes r hr
  obtain ⟨l, code, hlies, hcoded⟩ := s.isCoded hs hcodes r hr
  refine ⟨code, hcoded, ?_⟩
  intro before f behind hsplit
  -- the place of a name is searched in the line, from behind the name before
  obtain ⟨hstart, hsearched⟩ := hlies.searched hcoded.keepsWords hcoded.partAt hsplit
  exact hsearched.spelledIn_iff hcoded.keepsWords hstart

/-- A struct whose comment shows the name of another field than the one that it is next to. -/
def othersName : Text := "type S struct \x7b\n\ta /* c, */, b int; c bool\n\x7d"

/-- A comment between two names does no harm while it shows neither of them. -/
theorem fieldInCode_iff_othersName : ∃ s ∈ Document.structs othersName, ∃ r ∈ s.fieldRuns,
    r.fields true = [⟨['a'], "int".toList, ⟨1, 1, 2⟩⟩, ⟨['b'], "int".toList, ⟨1, 13, 14⟩⟩] ∧
      ∃ codes code, s.IsCodeFrom othersName codes ∧
        r.IsCoded (sourceLines othersName) codes s.headerLine code ∧
        ((⟨['b'], "int".toList, ⟨1, 13, 14⟩⟩ : Field).SpelledIn code r ↔
          FirstInCode r.raw code ['b'] 2) := by
  have hread : ∃ s ∈ Document.structs othersName, ∃ r ∈ s.fieldRuns, r.fields true =
      [⟨['a'], "int".toList, ⟨1, 1, 2⟩⟩, ⟨['b'], "int".toList, ⟨1, 13, 14⟩⟩] := by decide +kernel
  obtain ⟨s, hs, r, hr, hfields⟩ := hread
  obtain ⟨-, ⟨codes, hcodes⟩, hruns⟩ := (fieldInCode_iff true othersName).2 s hs
  obtain ⟨code, hcoded, hiff⟩ := hruns codes hcodes r hr
  exact ⟨s, hs, r, hr, hfields, codes, code, hcodes, hcoded,
    hiff [⟨['a'], "int".toList, ⟨1, 1, 2⟩⟩] ⟨['b'], "int".toList, ⟨1, 13, 14⟩⟩ [] hfields⟩

/-- A struct whose comment shows the name of the field behind it. -/
def commentedName : Text := "type S struct \x7b\n\t/* a */ a int\n\x7d"

/-- The field is located in the comment. -/
theorem located_inComment : ∃ s ∈ Document.structs commentedName, ∃ r ∈ s.fieldRuns,
    ∃ f ∈ r.fields false, f.location = ⟨1, 4, 5⟩ ∧
      ∀ codes, s.IsCodeFrom commentedName codes → ∀ code,
        r.IsCoded (sourceLines commentedName) codes s.headerLine code → ¬ f.SpelledIn code r := by
  have hread : ∃ s ∈ Document.structs commentedName, s.headerLine = 0 ∧ ∃ r ∈ s.fieldRuns,
      r.line = 1 ∧ r.fields false = [⟨['a'], "int".toList, ⟨1, 4, 5⟩⟩] := by decide +kernel
  obtain ⟨s, hs, hheader, r, hr, hline, hfields⟩ := hread
  refine ⟨s, hs, r, hr, _, hfields ▸ List.mem_cons_self, rfl, ?_⟩
  rintro codes ⟨found, t, lines, hrun, hnumber, rfl⟩ code hcoded hspelled
  -- the header is on the first line, in front of which nothing is read
  obtain ⟨rfl, rfl⟩ := hrun.eq_of_number_eq (.done .start _) (hnumber.trans hheader)
  have hcode := hcoded.code_eq
  rw [hline, hheader] at hcode
  obtain ⟨before, behind, hsplit, hlength⟩ := hspelled.spells
  have hchar : code[4]? = some 'a' := by
    have hname : before.length = 4 := hlength
    have hget : (before ++ (['a'] ++ behind))[before.length + 0]? = some 'a' :=
      getElem?_between before behind Nat.one_pos
    rw [hsplit, ← hname]
    exact hget
  have hblank : (Comment.codes false (sourceLines commentedName))[1]?.bind (·[4]?) = some ' ' := by
    decide +kernel
  have hcode' : (Comment.codes false (sourceLines commentedName))[1]? = some code := hcode
  rw [hcode', Option.bind_some, hchar] at hblank
  exact absurd hblank (by decide)

end GoLayout
