import GoLayout.Proofs.Document.RestingLine
import GoLayout.Proofs.FieldLine.Column
import GoLayout.Proofs.Syntax.GoType

/-! # Fields as they are printed

    A field has names and a type, or it is an embedded type with a star, a package and type
    arguments as the case may be.  A line with a printed field rests, whatever tag and comment
    follow (`FieldSyntax.rests`), and it gives the fields that were printed, each with the
    place of its name (`FieldSyntax.bodyFields_eq`). -/

namespace GoLayout

/-- The words that no field can be named. -/
def keywords : List Text :=
  ["break", "case", "chan", "const", "continue", "default", "defer", "else", "fallthrough", "for",
    "func", "go", "goto", "if", "import", "interface", "map", "package", "range", "return",
    "select", "struct", "switch", "type", "var"].map String.toList

/-- The name of a field. -/
structure FieldName extends Name where
  notKeyword : text ∉ keywords

theorem FieldName.ne_type (n : FieldName) : n.text ≠ ['t', 'y', 'p', 'e'] := by
  have hmem : ['t', 'y', 'p', 'e'] ∈ keywords := by decide
  intro htype
  exact n.notKeyword (htype ▸ hmem)

/-- A field as it is declared. The package of an embedded type is not named like the type. -/
inductive FieldSyntax where
  | named (first : FieldName) (more : List FieldName) (type : GoType)
  | embedded (star : Bool) (package : Option Name) (base : Name) (arguments : List GoType)
      (distinct : ∀ p ∈ package, p.text ≠ base.text)

/-- Fields of one type, the first name at a given column and a comma and a blank between
    neighbours. -/
def placed (line : Nat) (type : Text) : Nat → List Text → List Field
  | _, [] => []
  | column, name :: names =>
      ⟨name, type, ⟨line, column, column + name.length⟩⟩ ::
        placed line type (column + name.length + 2) names

namespace FieldSyntax

/-- The texts of the names of a field. -/
def nameTexts (first : FieldName) (more : List FieldName) : List Text :=
  (first :: more).map (·.text)

/-- The text of an embedded type in front of its name. -/
def beforeBase (star : Bool) (package : Option Name) : Text :=
  FieldLine.starText star ++ FieldLine.packageText (package.map (·.text))

/-- The field as it is printed. -/
def text : FieldSyntax → Text
  | named first more type => FieldLine.nameList (nameTexts first more) ++ ' ' :: type.text
  | embedded star package base arguments _ =>
      FieldLine.embeddedLine star (package.map (·.text)) base.text (argumentText arguments)

/-- The names that are declared. -/
def names : FieldSyntax → List Text
  | named first more _ => nameTexts first more
  | embedded _ _ base _ _ => [base.text]

/-- The text of the type that is declared; an embedded field is its type. -/
def typeText : FieldSyntax → Text
  | named _ _ type => type.text
  | embedded star package base arguments h => (embedded star package base arguments h).text

/-- How the field is written. -/
def shape : FieldSyntax → FieldShape
  | named _ [] _ => .named
  | named _ (_ :: _) _ => .multiName
  | embedded .. => .embedded

/-- The column of the first name of a field that is printed at a given column. -/
def nameColumn (column : Nat) : FieldSyntax → Nat
  | named .. => column
  | embedded star package .. => column + (beforeBase star package).length

/-- The fields on a line, printed from a given column on; of several names only the first,
    unless all are asked for. -/
def fields (allNames : Bool) (line column : Nat) (f : FieldSyntax) : List Field :=
  placed line f.typeText (f.nameColumn column) (if allNames then f.names else f.names.take 1)

/-! ## The text of a field -/

/-- All names of a line are identifiers. -/
theorem isIdentifier_nameTexts (first : FieldName) (more : List FieldName) :
    ∀ n ∈ nameTexts first more, Identifier.isIdentifier n = true := by
  intro n hn
  obtain ⟨name, -, rfl⟩ := List.mem_map.mp hn
  exact name.isIdentifier

theorem isIdentifier_package (package : Option Name) :
    ∀ p ∈ package.map (·.text), Identifier.isIdentifier p = true := by
  intro p hp
  obtain ⟨name, -, rfl⟩ := Option.map_eq_some_iff.mp hp
  exact name.isIdentifier

theorem text_embedded (star : Bool) (package : Option Name) (base : Name)
    (arguments : List GoType) (h : ∀ p ∈ package, p.text ≠ base.text) :
    (embedded star package base arguments h).text =
      beforeBase star package ++ (base.text ++ argumentText arguments) :=
  (List.append_assoc _ _ _).symm

/-- A printed field is closed, and so it opens nothing. -/
theorem closed (f : FieldSyntax) : Closed f.text := by
  -- the names are closed one by one, and a type is by the way it is built
  cases f with
  | named first more type =>
      refine (Closed.joinWith comma_closed fun t ht => ?_).append (.flat (by decide) type.closed)
      obtain ⟨name, -, rfl⟩ := List.mem_map.mp ht
      exact name.closed
  | embedded star package base arguments h =>
      rw [text_embedded]
      refine (Closed.append ?_ (packageText_closed package)).append
        (base.closed.append (argumentText_closed arguments))
      cases star with
      | false => exact .nil
      | true => exact Closed.of_flat (by decide)

/-- A list of names starts with the first of them. -/
theorem nameTexts_starts (first : FieldName) (more : List FieldName) :
    Starts (FieldLine.nameList (nameTexts first more)) := by
  cases more with
  | nil => exact first.starts
  | cons next more => exact (first.starts.append _).append _

/-- A field starts neither with a blank nor with a comma. -/
theorem starts (f : FieldSyntax) : Starts f.text := by
  cases f with
  | named first more type => exact (nameTexts_starts first more).append _
  | embedded star package base arguments h =>
      cases star with
      | true => exact Starts.of_cons (by decide) _
      | false =>
          show Starts (FieldLine.packageText _ ++ (base.text ++ argumentText arguments))
          rw [← List.append_assoc]
          exact (qualifiedText_starts package base).append _

theorem solid (f : FieldSyntax) : Text.Solid f.text := by
  obtain ⟨c, u, hcons, hblank, -⟩ := f.starts
  refine ⟨⟨c, u, hcons, hblank⟩, ?_⟩
  cases f with
  | named first more type => exact (type.ends.append [' ']).append _
  | embedded star package base arguments h =>
      rw [text_embedded]
      refine Ends.append ?_ _
      cases arguments with
      | nil =>
          show Ends (base.text ++ [])
          rw [List.append_nil]
          exact base.ends
      | cons first more => exact (listText_ends (by decide) _).append _

/-- Read back, a printed field declares what was printed. -/
theorem ofClean?_text (f : FieldSyntax) :
    FieldLine.ofClean? f.text = some ⟨f.names, f.typeText, f.shape⟩ := by
  cases f with
  | named first more type =>
      cases more with
      | nil => exact FieldLine.ofClean?_one first.isIdentifier type.isTypeText
      | cons next more =>
          exact FieldLine.ofClean?_several (isIdentifier_nameTexts first (next :: more))
            type.isTypeText
  | embedded star package base arguments h =>
      exact FieldLine.ofClean?_embedded star (isIdentifier_package package) base.isIdentifier
        (argumentText_isArguments arguments)

/-- Behind the first name stands a blank or a comma. -/
theorem nameTexts_split (first : FieldName) (more : List FieldName) (tail : Text) :
    ∃ rest, FieldLine.nameList (nameTexts first more) ++ ' ' :: tail = first.text ++ rest ∧
      rest.head?.any isWord = false := by
  have hword : isWord ' ' = false ∧ isWord ',' = false := by decide
  cases more with
  | nil => exact ⟨' ' :: tail, rfl, hword.1⟩
  | cons next more =>
      have hcons : FieldLine.nameList (nameTexts first (next :: more)) =
          first.text ++ ([',', ' '] ++ FieldLine.nameList (nameTexts next more)) :=
        FieldLine.nameList_cons _ _
      refine ⟨[',', ' '] ++ FieldLine.nameList (nameTexts next more) ++ ' ' :: tail, ?_, hword.2⟩
      rw [hcons, List.append_assoc]

/-- No printed field starts a header, whatever stands behind it on its line. -/
theorem atKeyword?_text (f : FieldSyntax) (e : Trailer) :
    Header.atKeyword? (f.text ++ e.code) = none := by
  cases f with
  | named first more type =>
      obtain ⟨rest, hsplit, hrest⟩ := nameTexts_split first more (type.text ++ e.code)
      have htext : (named first more type).text ++ e.code =
          FieldLine.nameList (nameTexts first more) ++ ' ' :: (type.text ++ e.code) :=
        List.append_assoc _ _ _
      rw [htext, hsplit]
      exact Header.atKeyword?_of_isIdentifier first.isIdentifier hrest
        fun htype => absurd htype first.ne_type
  | embedded star package base arguments h =>
      -- only a field that starts with an identifier can start a header, and a dot, a bracket, a
      -- tag or nothing follows it
      cases star with
      | true => exact Header.atKeyword?_of_ne (by decide) _
      | false =>
          cases package with
          | some p =>
              have hdot : isWord '.' = false ∧ isBlank '.' = false := by decide
              show Header.atKeyword? (((p.text ++ ['.']) ++ (base.text ++ _)) ++ e.code) = none
              rw [List.append_assoc, List.append_assoc]
              exact Header.atKeyword?_of_not_isBlank p.isIdentifier hdot.1 hdot.2
          | none =>
              show Header.atKeyword? ((base.text ++ argumentText arguments) ++ e.code) = none
              rw [List.append_assoc]
              cases arguments with
              | nil => exact Header.atKeyword?_of_alone base.isIdentifier e.code_alone.1 e.code_alone.2
              | cons first more =>
                  have hbracket : isWord '[' = false ∧ isBlank '[' = false := by decide
                  exact Header.atKeyword?_of_not_isBlank base.isIdentifier hbracket.1 hbracket.2

/-! ## The places of the names -/

/-- The first name stands behind the gap, and the search goes on behind it. -/
theorem placeNames_cons {r : FieldRun} {t before gap name rest : Text} (names : List Text)
    (hname : Identifier.isIdentifier name = true) (hne : gap ≠ [])
    (hgap : ∀ c ∈ gap, isWord c = false) (hrest : rest.head?.any isWord = false)
    (hraw : r.raw = before ++ (gap ++ (name ++ rest))) :
    r.placeNames t before.length (name :: names) =
      ⟨name, t, ⟨r.line, before.length + gap.length, before.length + gap.length + name.length⟩⟩ ::
        r.placeNames t (before ++ gap ++ name).length names := by
  have hlocate : Column.locate r.raw name before.length = before.length + gap.length := by
    rw [hraw]
    exact Column.locate_gap hname hne hgap hrest
  rw [FieldRun.placeNames, hlocate, List.length_append, List.length_append]

/-- Names printed behind a gap are placed one after the other, as many of them as are taken. -/
theorem placeNames_nameList {r : FieldRun} {t rest : Text} (hrest : rest.head?.any isWord = false)
    (names : List Text) :
    ∀ taken name before gap, taken <+: name :: names →
      (∀ n ∈ name :: names, Identifier.isIdentifier n = true) →
      gap ≠ [] → (∀ c ∈ gap, isWord c = false) →
      r.raw = before ++ (gap ++ (FieldLine.nameList (name :: names) ++ rest)) →
      r.placeNames t before.length taken =
        placed r.line t (before.length + gap.length) taken := by
  induction names with
  | nil =>
      intro taken name before gap htaken hnames hne hgap hraw
      rcases List.prefix_cons_iff.mp htaken with rfl | ⟨more, rfl, hmore⟩
      · rfl
      · obtain rfl := List.prefix_nil.mp hmore
        rw [placeNames_cons [] (hnames name List.mem_cons_self) hne hgap hrest hraw]
        rfl
  | cons next names ih =>
      intro taken name before gap htaken hnames hne hgap hraw
      rcases List.prefix_cons_iff.mp htaken with rfl | ⟨more, rfl, hmore⟩
      · rfl
      · have hcomma : isWord ',' = false ∧ isWord ' ' = false := by decide
        have hraw' : r.raw = before ++ (gap ++ (name ++
            ([',', ' '] ++ (FieldLine.nameList (next :: names) ++ rest)))) := by
          rw [hraw, FieldLine.nameList_cons, List.append_assoc name, List.append_assoc [',', ' ']]
        -- between two names the gap is the comma and the blank
        have hplaced := ih more next (before ++ gap ++ name) [',', ' '] hmore
          (fun n hn => hnames n (List.mem_cons_of_mem _ hn)) (List.cons_ne_nil _ _)
          (fun c hc => by
            rcases List.mem_cons.mp hc with rfl | hmem
            · exact hcomma.1
            · rw [List.mem_singleton.mp hmem, hcomma.2])
          (by rw [hraw', List.append_assoc, List.append_assoc])
        have hhead : ([',', ' '] ++ (FieldLine.nameList (next :: names) ++ rest)).head?.any isWord =
            false := hcomma.1
        rw [placeNames_cons more (hnames name List.mem_cons_self) hne hgap hhead hraw', hplaced,
          List.length_append, List.length_append]
        rfl

/-- The base of an embedded type stands behind its star and its package. -/
theorem locate_base {indent rest : Text} (star : Bool) (package : Option Name) (base : Name)
    (hindent : Text.AllBlank indent) (hne : indent ≠ [])
    (h : ∀ p ∈ package, p.text ≠ base.text) (hrest : rest.head?.any isWord = false) :
    Column.locate (indent ++ beforeBase star package ++ (base.text ++ rest)) base.text 0 =
      indent.length + (beforeBase star package).length := by
  have hstar : ∀ c ∈ FieldLine.starText star, isWord c = false := by
    intro c hc
    cases star with
    | false => exact nomatch hc
    | true => rw [List.mem_singleton.mp hc]; decide
  have hgap : ∀ c ∈ indent ++ FieldLine.starText star, isWord c = false := by
    intro c hc
    rcases List.mem_append.mp hc with hmem | hmem
    · exact Identifier.not_isWord_of_isBlank (hindent c hmem)
    · exact hstar c hmem
  -- the star belongs to no word, but the package is a word that the search has to pass
  cases package with
  | none =>
      have hgapne : indent ++ FieldLine.starText star ≠ [] :=
        fun hnil => hne (List.append_eq_nil_iff.mp hnil).1
      have hbefore : beforeBase star none = FieldLine.starText star := List.append_nil _
      have hlocate : Column.locate ([] ++ (indent ++ FieldLine.starText star ++
          (base.text ++ rest))) base.text ([] : Text).length = _ :=
        Column.locate_gap base.isIdentifier hgapne hgap hrest
      rw [List.nil_append, List.length_nil, Nat.zero_add, List.length_append] at hlocate
      rw [hbefore, hlocate]
  | some p =>
      have hlocate := Column.locate_package base.isIdentifier hgap p.isIdentifier (h p rfl) hrest
      have hbefore : indent ++ beforeBase star (some p) ++ (base.text ++ rest) =
          (indent ++ FieldLine.starText star) ++ (p.text ++ (['.'] ++ (base.text ++ rest))) := by
        show indent ++ (FieldLine.starText star ++ (p.text ++ ['.'])) ++ _ = _
        rw [← List.append_assoc indent, List.append_assoc (indent ++ _), List.append_assoc p.text]
      have hlen : (beforeBase star (some p)).length =
          (FieldLine.starText star).length + (p.text.length + 1) := by
        show (FieldLine.starText star ++ (p.text ++ ['.'])).length = _
        rw [List.length_append, List.length_append]
        rfl
      rw [hbefore, hlocate, hlen, List.length_append]
      omega

section Line

variable {indent : Text} (f : FieldSyntax) (e : Trailer)

/-- On a line with a printed field behind an indentation the names that are taken stand where
    they were printed. -/
theorem placeNames_eq {r : FieldRun} {taken : List Text} (hindent : Text.AllBlank indent)
    (hne : indent ≠ []) (hraw : r.raw = indent ++ f.text ++ e.text) (htaken : taken <+: f.names) :
    r.placeNames f.typeText 0 taken =
      placed r.line f.typeText (f.nameColumn indent.length) taken := by
  have hgap : ∀ c ∈ indent, isWord c = false :=
    fun c hc => Identifier.not_isWord_of_isBlank (hindent c hc)
  cases f with
  | named first more type =>
      have hblank : (' ' :: (type.text ++ e.text)).head?.any isWord = false :=
        show isWord ' ' = false by decide
      -- the line is the indent, the names and a blank, so that the names are placed one behind the
      -- other
      have hlist : r.raw = [] ++ (indent ++ (FieldLine.nameList (nameTexts first more) ++
          ' ' :: (type.text ++ e.text))) := by
        rw [hraw, List.append_assoc]
        show indent ++ ((FieldLine.nameList _ ++ ' ' :: type.text) ++ e.text) = _
        rw [List.append_assoc]
        rfl
      have hplaced := placeNames_nameList (t := type.text) hblank
        (more.map fun n : FieldName => n.text) taken first.text [] indent htaken
        (isIdentifier_nameTexts first more) hne hgap hlist
      rw [List.length_nil, Nat.zero_add] at hplaced
      exact hplaced
  | embedded star package base arguments h =>
      rcases List.prefix_cons_iff.mp htaken with rfl | ⟨more, rfl, hmore⟩
      · rfl
      · obtain rfl := List.prefix_nil.mp hmore
        have hhead : (argumentText arguments ++ e.text).head?.any isWord = false := by
          cases arguments with
          | nil => exact e.text_head
          | cons first more => exact show isWord '[' = false by decide
        have hlocate := locate_base star package base hindent hne h hhead
        have hsplit : r.raw = indent ++ beforeBase star package ++
            (base.text ++ (argumentText arguments ++ e.text)) := by
          rw [hraw, text_embedded, List.append_assoc, List.append_assoc, List.append_assoc,
            List.append_assoc]
        rw [← hsplit] at hlocate
        show (⟨base.text, _, ⟨r.line, Column.locate r.raw base.text 0, _⟩⟩ : Field) :: _ = _
        rw [hlocate]
        rfl

theorem rests (hindent : Text.AllBlank indent) : Rests (indent ++ f.text ++ e.text) :=
  rests_fieldLine e hindent f.closed f.solid (f.atKeyword?_text e)

variable {allNames : Bool} {number : Nat} {margin : Text}

/-- A line with a printed field behind an indentation gives the fields that were printed. -/
theorem bodyFields_eq (hmargin : Text.AllBlank margin) (hindent : Text.AllBlank indent)
    (hne : indent ≠ []) :
    bodyFields allNames number [indent ++ f.text ++ e.text] margin =
      f.fields allNames number indent.length := by
  have htaken : (if allNames then f.names else f.names.take 1) <+: f.names := by
    cases allNames with
    | true => exact List.prefix_refl _
    | false => exact List.take_prefix 1 _
  rw [bodyFields_fieldLine e hmargin hindent f.closed f.solid (f.atKeyword?_text e)
    f.ofClean?_text]
  exact f.placeNames_eq e hindent hne rfl htaken

end Line

end FieldSyntax

end GoLayout
