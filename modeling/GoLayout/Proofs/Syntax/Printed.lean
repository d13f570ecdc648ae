import GoLayout.Proofs.Syntax.BodySyntax

/-! # Documents as they are printed

    A document is a list of structs, some of them in type groups, with blank lines and comment
    lines anywhere between.  Printing it and reading the text back gives the declarations that
    were printed (`declarations_printed`).  The route:

    * each kind of line outside of bodies takes reading one step (`declarationsFrom_filler`,
      `declarationsFrom_openGroup`, `declarationsFrom_closeGroup`);
    * a printed struct is read as its declaration and leaves the state as it was
      (`Entry.declarationsFrom_eq`);
    * lists of entries, groups and lists of these follow by induction. -/

namespace GoLayout

/-! ## Grammar -/

/-- A struct as it is declared. -/
structure StructSyntax where
  name : Name
  body : List BodyLine

/-- What stands on its own, outside of groups or inside one. -/
inductive Entry where
  | filler (f : Filler)
  | struct (s : StructSyntax)

/-- Where an entry stands; in a group, the header and the closing brace stand behind a
    margin. -/
inductive Place where
  | top
  | group (margin : Margin)

/-- A part of a document. -/
inductive Part where
  | entry (e : Entry)
  | group (margin : Margin) (entries : List Entry)

namespace Place

/-- The margin of a header and of the closing brace. -/
def margin : Place → Margin
  | top => .none
  | group margin => margin

/-- The header line of a struct. -/
def header : Place → Text → Text
  | top, name => Header.typeLine name
  | group margin, name => Header.groupLine margin.text name

/-- The column of the name in the header line. -/
def nameColumn : Place → Nat
  | top => 5
  | group margin => margin.text.length

/-- The depth of parentheses. -/
def depth : Place → Int
  | top => 0
  | group _ => 1

end Place

/-- The line that opens a group. -/
def groupOpener : Text := ['t', 'y', 'p', 'e', ' ', '(']

/-- The line that closes a group. -/
def groupCloser : Text := [')']

namespace Entry

/-- The lines of an entry as they are printed. -/
def lines (p : Place) : Entry → List Text
  | filler f => [f.text]
  | struct s =>
      p.header s.name.text :: (s.body.map BodyLine.text ++ [Body.closingLine p.margin.text])

/-- How many lines these are. -/
def height : Entry → Nat
  | filler _ => 1
  | struct s => s.body.length + 2

/-- How many lines some entries take. -/
def heights : List Entry → Nat
  | [] => 0
  | e :: entries => e.height + heights entries

/-- What the entry declares when its first line has the given number. -/
def declarations (allNames : Bool) (p : Place) (number : Nat) : Entry → List Declaration
  | filler _ => []
  | struct s =>
      [{ name := s.name.text
         fields := printedFields allNames (number + 1) s.body
         span := ⟨number, 0, number + 1 + s.body.length, p.margin.text.length + 1⟩
         nameLocation := ⟨number, p.nameColumn, p.nameColumn + s.name.text.length⟩
         terminated := true }]

end Entry

namespace Part

/-- The lines of a part as they are printed. -/
def lines : Part → List Text
  | entry e => e.lines .top
  | group margin entries =>
      groupOpener :: (entries.flatMap (Entry.lines (.group margin)) ++ [groupCloser])

/-- How many lines these are. -/
def height : Part → Nat
  | entry e => e.height
  | group _ entries => Entry.heights entries + 2

/-- What the part declares when its first line has the given number. -/
def declarations (allNames : Bool) (number : Nat) : Part → List Declaration
  | entry e => e.declarations allNames .top number
  | group margin entries =>
      spread Entry.height (Entry.declarations allNames (.group margin)) (number + 1) entries

end Part

/-- The text of a document. -/
def printed (parts : List Part) : Text := Text.joinWith ['\n'] (parts.flatMap Part.lines)

/-- The declarations of a document, each with the lines and columns it is printed at. -/
def declared (allNames : Bool) (parts : List Part) : List Declaration :=
  spread Part.height (Part.declarations allNames) 0 parts

/-! ## Reading outside of bodies -/

/-- The declarations that are found from a state on. -/
def declarationsFrom (allNames : Bool) (s : ReadState) (lines : List Text) : List Declaration :=
  (Document.scan s lines).1.filterMap (Finding.declaration? allNames)

variable {allNames : Bool} {number : Nat}

/-- Blanks open no parentheses. -/
theorem scanParens_of_allBlank {t : Text} (ht : Text.AllBlank t) {depth : Int} (h : 0 ≤ depth) :
    Bracket.scanParens t depth = depth := by
  rw [Bracket.scanParens, (Plain.of_allBlank ht).glyphs_eq,
    Bracket.parenSum_of_still (still_of_allBlank ht)]
  omega

/-- A line without a header in it is skipped. -/
theorem declarationsFrom_skip {s : ReadState} {raw code : Text} (below : List Text)
    (hs : s.inBlock = false) (hstrip : Comment.strip raw false = (code, false))
    (hfind : Header.find? (s.group = 1) code = none) :
    declarationsFrom allNames s (raw :: below) =
      declarationsFrom allNames (s.skip ⟨s.number, raw, 0, code, false⟩) below := by
  have hline : CodeLine.ofRaw s.number raw s.inBlock = ⟨s.number, raw, 0, code, false⟩ := by
    rw [hs, CodeLine.ofRaw, hstrip]
  rw [declarationsFrom, Document.scan_skip below (by rw [hline]; exact hfind), hline]
  rfl

/-- A filler declares nothing and changes nothing. -/
theorem declarationsFrom_filler (p : Place) (f : Filler) (below : List Text) :
    declarationsFrom allNames ⟨number, false, p.depth⟩ (Text.dropTrailing '\r' f.text :: below) =
      declarationsFrom allNames ⟨number + 1, false, p.depth⟩ below := by
  obtain ⟨t, ht, hstrip⟩ := f.strip_read
  have hskip : (⟨number, false, p.depth⟩ : ReadState).skip
      ⟨number, Text.dropTrailing '\r' f.text, 0, t, false⟩ = ⟨number + 1, false, p.depth⟩ := by
    -- at the top a group might be opened, and inside of a group one might be closed
    cases p with
    | top =>
        show (⟨number + 1, false, if Header.opensGroup t = true then 1 else 0⟩ : ReadState) = _
        rw [Header.opensGroup_of_allBlank ht]
        rfl
    | group margin =>
        show (⟨number + 1, false, Bracket.scanParens t 1⟩ : ReadState) = _
        rw [scanParens_of_allBlank ht (by decide)]
        rfl
  rw [declarationsFrom_skip below rfl hstrip (Header.find?_of_allBlank _ ht), hskip]

/-- The line that opens a group leads into it. -/
theorem declarationsFrom_openGroup (below : List Text) :
    declarationsFrom allNames ⟨number, false, 0⟩ (groupOpener :: below) =
      declarationsFrom allNames ⟨number + 1, false, 1⟩ below := by
  have hplain : Plain groupOpener := by decide
  have hfind : Header.find? false groupOpener = none := by decide
  exact declarationsFrom_skip (s := ⟨number, false, 0⟩) below rfl hplain.strip_eq hfind

theorem declarationsFrom_closeGroup (below : List Text) :
    declarationsFrom allNames ⟨number, false, 1⟩ (groupCloser :: below) =
      declarationsFrom allNames ⟨number + 1, false, 0⟩ below := by
  have hplain : Plain groupCloser := by decide
  have hfind : Header.find? true groupCloser = none := by decide
  exact declarationsFrom_skip (s := ⟨number, false, 1⟩) below rfl hplain.strip_eq hfind

/-! ## Headers -/

namespace Place

variable (p : Place) {name : Text}

/-- A header holds neither comments nor literals. -/
theorem header_plain (h : Identifier.isIdentifier name = true) : Plain (p.header name) := by
  cases p with
  | top => exact Header.typeLine_plain h
  | group margin => exact Header.groupLine_plain margin.allBlank h

/-- At its place a printed header is found. -/
theorem find?_header (h : Identifier.isIdentifier name = true) :
    Header.find? (p.depth = 1) (p.header name) = some (Header.printed name) := by
  cases p with
  | top => exact Header.find?_typeLine _ h
  | group margin => exact Header.find?_groupLine margin.allBlank h

/-- A header ends like every other. -/
theorem exists_header (name : Text) : ∃ before, p.header name = before ++ name ++ Header.structTail ∧
    before.length = p.nameColumn ∧ '\n' ∉ before := by
  cases p with
  | top => exact ⟨['t', 'y', 'p', 'e', ' '], rfl, rfl, by decide⟩
  | group margin => exact ⟨margin.text, rfl, rfl, margin.noBreak⟩

/-- Its name is found in the column where it was printed. -/
theorem nameColumn_header (name : Text) :
    (Header.printed name).nameColumn (p.header name) = p.nameColumn := by
  obtain ⟨before, hheader, hlen, -⟩ := p.exists_header name
  rw [hheader, ← hlen]
  show (before ++ name ++ Header.structTail).length - (name ++ Header.structTail).length = _
  rw [List.append_assoc, List.length_append]
  omega

theorem two_le_length_header (name : Text) : 2 ≤ (p.header name).length := by
  obtain ⟨before, hheader, -⟩ := p.exists_header name
  have htail : Header.structTail.length = 9 := rfl
  rw [hheader, List.length_append]
  omega

theorem dropTrailing_header (name : Text) :
    Text.dropTrailing '\r' (p.header name) = p.header name := by
  obtain ⟨before, hheader, -⟩ := p.exists_header name
  rw [hheader]
  exact Header.dropTrailing_structTail _

theorem noBreak_header (h : Identifier.isIdentifier name = true) : '\n' ∉ p.header name := by
  obtain ⟨before, hheader, -, hbefore⟩ := p.exists_header name
  rw [hheader]
  exact Header.notMem_header hbefore h

end Place

/-! ## Printing and reading -/

/-- A printed struct is read as it was declared. -/
theorem declarationOf_printed (p : Place) (s : StructSyntax) :
    [declarationOf allNames number (p.header s.name.text) (Header.printed s.name.text)
        (s.body.map BodyLine.readText) p.margin.text] =
      (Entry.struct s).declarations allNames p number := by
  rw [declarationOf, bodyFields_printed p.margin.allBlank, List.length_map, p.nameColumn_header]
  rfl

/-- A printed struct is read as its header, its body and the closing brace. -/
theorem readLines_struct (p : Place) (s : StructSyntax) :
    readLines ((Entry.struct s).lines p) =
      p.header s.name.text ::
        (s.body.map BodyLine.readText ++ [Body.closingLine p.margin.text]) := by
  have hcloser : Text.dropTrailing '\r' (Body.closingLine p.margin.text) =
      Body.closingLine p.margin.text := Text.dropTrailing_concat (by decide) _
  rw [readLines, Entry.lines, List.map_cons, List.map_append, List.map_cons, List.map_nil,
    p.dropTrailing_header, hcloser, List.map_map]
  rfl

/-- Reading a printed entry finds what it declares, and then what is below it. -/
theorem Entry.declarationsFrom_eq (p : Place) (e : Entry) (below : List Text) :
    declarationsFrom allNames ⟨number, false, p.depth⟩ (readLines (e.lines p) ++ below) =
      e.declarations allNames p number ++
        declarationsFrom allNames ⟨number + e.height, false, p.depth⟩ below := by
  cases e with
  | filler f => exact declarationsFrom_filler p f below
  | struct s =>
      have hname := s.name.isIdentifier
      obtain ⟨hpass, hdepth⟩ := passesAll_printed s.body
      have hlines : readLines ((Entry.struct s).lines p) ++ below =
          p.header s.name.text :: (s.body.map BodyLine.readText ++
            Body.closingLine p.margin.text :: below) := by
        rw [readLines_struct, List.cons_append, List.append_assoc]
        rfl
      -- the header is found, the body is passed and the closing line ends it, so that one
      -- declaration is found
      have hscan := Document.scan_struct (s := ⟨number, false, p.depth⟩) below rfl
        (p.header_plain hname) (p.find?_header hname) rfl (p.two_le_length_header _) hpass hdepth
        p.margin.allBlank
      have hheight : number + (s.body.map BodyLine.readText).length + 2 =
          number + (Entry.struct s).height := by
        rw [List.length_map]
        rfl
      rw [hlines, declarationsFrom, hscan]
      dsimp only
      rw [List.filterMap_cons]
      show _ :: declarationsFrom allNames ⟨_, false, p.depth⟩ below = _
      rw [structOf_declaration, hheight, ← declarationOf_printed]
      rfl

/-- Of the entries of one place all declarations are found, one behind the other. -/
theorem Entry.declarationsFrom_all (p : Place) (below : List Text) (entries : List Entry) :
    ∀ number, declarationsFrom allNames ⟨number, false, p.depth⟩
        (readLines (entries.flatMap (Entry.lines p)) ++ below) =
      spread Entry.height (Entry.declarations allNames p) number entries ++
        declarationsFrom allNames ⟨number + Entry.heights entries, false, p.depth⟩ below := by
  induction entries with
  | nil => intro number; rfl
  | cons e entries ih =>
      intro number
      have hheight : number + e.height + heights entries = number + heights (e :: entries) :=
        Nat.add_assoc _ _ _
      rw [List.flatMap_cons, readLines_append, List.append_assoc, e.declarationsFrom_eq, ih, spread,
        List.append_assoc, hheight]

/-- Reading a printed part finds what it declares, and then what is below it. -/
theorem Part.declarationsFrom_eq (part : Part) (below : List Text) :
    declarationsFrom allNames ⟨number, false, 0⟩ (readLines part.lines ++ below) =
      part.declarations allNames number ++
        declarationsFrom allNames ⟨number + part.height, false, 0⟩ below := by
  cases part with
  | entry e => exact e.declarationsFrom_eq .top below
  | group margin entries =>
      have hlines : readLines (Part.group margin entries).lines ++ below =
          groupOpener :: (readLines (entries.flatMap (Entry.lines (.group margin))) ++
            groupCloser :: below) := by
        rw [readLines, lines, List.map_cons, List.map_append, List.cons_append, List.append_assoc]
        rfl
      have hentries : declarationsFrom allNames ⟨number + 1, false, (Place.group margin).depth⟩ _ = _ :=
        Entry.declarationsFrom_all (.group margin) (groupCloser :: below) entries (number + 1)
      have hheight : number + 1 + Entry.heights entries + 1 =
          number + (Part.group margin entries).height := by
        show _ = number + (Entry.heights entries + 2)
        omega
      rw [hlines, declarationsFrom_openGroup]
      show declarationsFrom allNames ⟨number + 1, false, (Place.group margin).depth⟩ _ = _
      rw [hentries]
      show _ ++ declarationsFrom allNames ⟨_, false, 1⟩ (groupCloser :: below) = _
      rw [declarationsFrom_closeGroup, hheight]
      rfl

/-- Of all parts of a text all declarations are found. -/
theorem declarationsFrom_all (parts : List Part) :
    ∀ number, declarationsFrom allNames ⟨number, false, 0⟩
        (readLines (parts.flatMap Part.lines)) =
      spread Part.height (Part.declarations allNames) number parts := by
  induction parts with
  | nil =>
      intro number
      rw [declarationsFrom, readLines, List.flatMap_nil, List.map_nil, Document.scan]
      rfl
  | cons part parts ih =>
      intro number
      rw [List.flatMap_cons, readLines_append, part.declarationsFrom_eq, ih, spread]

/-- No line of an entry holds a line end. -/
theorem Entry.noBreak (p : Place) (e : Entry) : ∀ t ∈ e.lines p, '\n' ∉ t := by
  intro t ht
  cases e with
  | filler f =>
      rw [List.mem_singleton.mp ht]
      exact f.noBreak
  | struct s =>
      rcases List.mem_cons.mp ht with rfl | hmem
      · exact p.noBreak_header s.name.isIdentifier
      · rcases List.mem_append.mp hmem with hbody | hlast
        · obtain ⟨l, -, rfl⟩ := List.mem_map.mp hbody
          exact l.noBreak
        · rw [List.mem_singleton.mp hlast]
          simp [Body.closingLine, p.margin.noBreak]

theorem Part.noBreak (part : Part) : ∀ t ∈ part.lines, '\n' ∉ t := by
  intro t ht
  cases part with
  | entry e => exact e.noBreak .top t ht
  | group margin entries =>
      rcases List.mem_cons.mp ht with rfl | hmem
      · decide
      · rcases List.mem_append.mp hmem with hentry | hlast
        · obtain ⟨e, -, he⟩ := List.mem_flatMap.mp hentry
          exact e.noBreak (.group margin) t he
        · rw [List.mem_singleton.mp hlast]
          decide

theorem Part.lines_ne_nil (part : Part) : part.lines ≠ [] := by
  cases part with
  | entry e => cases e <;> exact List.cons_ne_nil _ _
  | group margin entries => exact List.cons_ne_nil _ _

/-- Printing a document and reading it back gives exactly the declarations that were printed. -/
theorem declarations_printed (allNames : Bool) (parts : List Part) :
    Document.declarations allNames (printed parts) = declared allNames parts := by
  cases parts with
  | nil =>
      -- the empty text is one empty line, not a list of no lines
      cases allNames <;> decide +kernel
  | cons part parts =>
      have hne : (part :: parts).flatMap Part.lines ≠ [] := by
        rw [List.flatMap_cons]
        exact fun hnil => part.lines_ne_nil (List.append_eq_nil_iff.mp hnil).1
      have hbreak : ∀ t ∈ (part :: parts).flatMap Part.lines, '\n' ∉ t := by
        intro t ht
        obtain ⟨q, -, hq⟩ := List.mem_flatMap.mp ht
        exact q.noBreak t hq
      rw [Document.declarations, Document.findings, printed, sourceLines_joinWith hne hbreak]
      exact declarationsFrom_all (part :: parts) 0

end GoLayout
