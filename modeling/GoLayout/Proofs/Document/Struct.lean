import GoLayout.Document.Basic
import GoLayout.Proofs.Document.FieldRun
import GoLayout.Proofs.Source.Header

/-! # One struct of a document

    A header line that ends with the opening brace, passing lines that come back to depth one
    and a line with the closing brace are one declaration (`scan_struct`).  Its fields depend
    on the lines between alone (`bodyFields`):

    * lines that leave no bracket open can be read apart from those behind them
      (`bodyFields_append`);
    * further down they are the same fields further down (`bodyFields_shift`). -/

namespace GoLayout

namespace Body

/-- The parts of lines further down are their parts further down. -/
theorem partsOf_shift (k : Nat) (lines : List Text) :
    ∀ (depth : Int) (number : Nat),
      partsOf depth (number + k) lines = (partsOf depth number lines).map (CodeLine.shift k) := by
  induction lines with
  | nil => intro depth number; rfl
  | cons raw lines ih =>
      intro depth number
      have hhead : partOf depth (CodeLine.ofRaw (number + k) raw false) none =
          (partOf depth (CodeLine.ofRaw number raw false) none).map (CodeLine.shift k) := by
        rw [partOf, partOf]
        split
        · rfl
        · rfl
      have hnext : number + k + 1 = number + 1 + k := by omega
      rw [partsOf, partsOf, List.map_append, hhead, hnext, ih]

/-- The parts stand on the lines they are taken from. -/
theorem mem_partsOf_number {l : CodeLine} (lines : List Text) :
    ∀ (depth : Int) (number : Nat), l ∈ partsOf depth number lines →
      number ≤ l.number ∧ l.number < number + lines.length := by
  induction lines with
  | nil => intro depth number hl; cases hl
  | cons raw lines ih =>
      intro depth number hl
      rw [List.length_cons]
      rcases List.mem_append.mp hl with hhead | htail
      · -- a part of the first line stands on it, and any other one is a part of the lines below
        have hnumber : l.number = number := by
          rw [partOf] at hhead
          split at hhead
          · rw [List.mem_singleton.mp hhead]
            rfl
          · cases hhead
        omega
      · have hrest := ih _ _ htail
        omega

end Body

open Body

/-! ## The fields of a body -/

/-- The runs of some lines and of what stands before the closing brace below them. -/
def bodyRuns (number : Nat) (lines : List Text) (margin : Text) : List FieldRun :=
  OpenRun.allRuns (OpenRun.start.feedAll
    (partsOf 1 number lines ++ [closerPart (number + lines.length) margin]))

/-- The fields of some lines of a body that is closed below them. -/
def bodyFields (allNames : Bool) (number : Nat) (lines : List Text) (margin : Text) :
    List Field :=
  (bodyRuns number lines margin).flatMap (FieldRun.fields allNames)

/-- The depth of round and square brackets behind some lines, of which only those count that
    start at brace depth one. -/
def bracketsLeft : (depth brackets : Int) → List Text → Int
  | _, brackets, [] => brackets
  | depth, brackets, raw :: below =>
      bracketsLeft (depthBehind depth raw)
        (if depth = 1 then (Nesting.after ⟨brackets, 0⟩ (glyphs (codeOf raw))).brackets
          else brackets)
        below

/-- The lines of a body leave no round or square bracket open. -/
def Settled (lines : List Text) : Prop := bracketsLeft 1 0 lines = 0

/-- The brackets that the parts of some lines leave open are those of the lines at depth one. -/
theorem bracketsBehindAll_partsOf (lines : List Text) :
    ∀ (depth brackets : Int) (number : Nat),
      OpenRun.bracketsBehindAll brackets (partsOf depth number lines) =
        bracketsLeft depth brackets lines := by
  induction lines with
  | nil => intro depth brackets number; rfl
  | cons raw lines ih =>
      intro depth brackets number
      rw [partsOf, bracketsLeft, OpenRun.bracketsBehindAll, List.foldl_append]
      show OpenRun.bracketsBehindAll _ (partsOf _ _ lines) = _
      rw [ih]
      -- only a line at depth one is fed, and only it counts
      by_cases hdepth : depth = 1
      · rw [partOf, if_pos hdepth, if_pos hdepth]
        show bracketsLeft _ (OpenRun.bracketsBehind _ _) lines = _
        rw [OpenRun.bracketsBehind, Segment.split_snd]
        rfl
      · rw [partOf, if_neg hdepth, if_neg hdepth]
        rfl

/-- Behind settled lines no run is open. -/
theorem feedAll_of_settled {lines : List Text} (h : Settled lines) (number : Nat) :
    (OpenRun.start.feedAll (partsOf 1 number lines)).2 = OpenRun.start :=
  OpenRun.feedAll_start ((bracketsBehindAll_partsOf lines 1 0 number).trans h)

variable {allNames : Bool} {number : Nat} {margin : Text}

/-- Behind settled lines at depth one the lines below are read as if they came first. -/
theorem bodyRuns_append {a : List Text} (b : List Text) (hdepth : depthBehindAll 1 a = 1)
    (hsettled : Settled a) :
    bodyRuns number (a ++ b) margin =
      (OpenRun.start.feedAll (partsOf 1 number a)).1 ++ bodyRuns (number + a.length) b margin := by
  have hlen : number + (a ++ b).length = number + a.length + b.length := by
    rw [List.length_append]
    omega
  rw [bodyRuns, bodyRuns, partsOf_append, hdepth, List.append_assoc, OpenRun.feedAll_append,
    feedAll_of_settled hsettled, hlen]
  exact List.append_assoc _ _ _

/-- A blank line in front of the brace adds nothing. -/
theorem bodyFields_nil (h : Text.AllBlank margin) :
    bodyFields allNames number [] margin = [] := by
  have hfeed := OpenRun.feed_allBlank (l := closerPart number margin) h
  have hruns : bodyRuns number [] margin = [OpenRun.wholeLine (closerPart number margin)] := by
    show (OpenRun.start.feed (closerPart number margin)).1 ++ [] ++
      (OpenRun.start.feed (closerPart number margin)).2.pending.toList = _
    rw [hfeed]
    rfl
  rw [bodyFields, hruns, List.flatMap_singleton]
  exact OpenRun.wholeLine_fields_of_allBlank h

/-- Lines that come back to depth one and close their brackets do not interfere with the lines
    behind them. -/
theorem bodyFields_append {a : List Text} (b : List Text) (hmargin : Text.AllBlank margin)
    (hdepth : depthBehindAll 1 a = 1) (hsettled : Settled a) :
    bodyFields allNames number (a ++ b) margin =
      bodyFields allNames number a margin ++ bodyFields allNames (number + a.length) b margin := by
  have halone : bodyFields allNames number a margin =
      (OpenRun.start.feedAll (partsOf 1 number a)).1.flatMap (FieldRun.fields allNames) := by
    have hnil : bodyFields allNames (number + a.length) [] margin = [] := bodyFields_nil hmargin
    rw [bodyFields] at hnil
    have happ : bodyRuns number (a ++ []) margin = _ := bodyRuns_append [] hdepth hsettled
    rw [List.append_nil] at happ
    rw [bodyFields, happ, List.flatMap_append, hnil, List.append_nil]
  rw [halone, bodyFields, bodyRuns_append b hdepth hsettled, List.flatMap_append]
  rfl

/-- The runs of a body further down are its runs further down. -/
theorem bodyRuns_shift (k : Nat) (lines : List Text) :
    bodyRuns (number + k) lines margin =
      (bodyRuns number lines margin).map (FieldRun.shift k) := by
  have hcloser : closerPart (number + k + lines.length) margin =
      (closerPart (number + lines.length) margin).shift k := by
    have hlen : number + k + lines.length = number + lines.length + k := by omega
    rw [hlen]
    rfl
  have hparts : partsOf 1 (number + k) lines ++ [closerPart (number + k + lines.length) margin] =
      (partsOf 1 number lines ++ [closerPart (number + lines.length) margin]).map
        (CodeLine.shift k) := by
    rw [partsOf_shift, hcloser, List.map_append]
    rfl
  -- the start is no further down, since nothing is open in it
  rw [bodyRuns, bodyRuns, hparts, ← OpenRun.allRuns_shift, ← OpenRun.feedAll_shift]
  rfl

/-- Further down the fields are the same, further down. -/
theorem bodyFields_shift (k : Nat) (lines : List Text) :
    bodyFields allNames (number + k) lines margin =
      (bodyFields allNames number lines margin).map (Field.shift k) := by
  rw [bodyFields, bodyRuns_shift, List.flatMap_map, bodyFields, List.map_flatMap]
  exact List.flatMap_congr fun r _ => FieldRun.fields_shift allNames k r

/-! ## The declaration -/

/-- The line behind an opening brace at its end. -/
def openingLine (number : Nat) (raw : Text) (column : Nat) : CodeLine :=
  ⟨number, raw, column, [], false⟩

/-- The struct of a header line, the lines of its body and the line that closes it. -/
def structOf (number : Nat) (raw : Text) (h : Header) (lines : List Text) (margin : Text)
    (below : List Text) : StructSource where
  headerLine := number
  name := h.name
  nameColumn := h.nameColumn raw
  body := closedBody (openingLine number raw raw.length) lines margin below

/-- The declaration of such a struct. -/
def declarationOf (allNames : Bool) (number : Nat) (raw : Text) (h : Header)
    (lines : List Text) (margin : Text) : Declaration where
  name := h.name
  fields := bodyFields allNames (number + 1) lines margin
  span := ⟨number, 0, number + 1 + lines.length, margin.length + 1⟩
  nameLocation := ⟨number, h.nameColumn raw, h.nameColumn raw + h.name.length⟩
  terminated := true

/-- The fields of a struct are those of its lines: nothing of its header line is one. -/
theorem structOf_fields (raw : Text) (h : Header) (lines : List Text) (below : List Text) :
    (structOf number raw h lines margin below).fields allNames =
      bodyFields allNames (number + 1) lines margin := by
  have hopen := OpenRun.feed_allBlank (l := openingLine number raw raw.length)
    Text.allBlank_nil
  have hblank : (OpenRun.wholeLine (openingLine number raw raw.length)).fields allNames = [] :=
    OpenRun.wholeLine_fields_of_allBlank Text.allBlank_nil
  rw [StructSource.fields_eq]
  show (OpenRun.allRuns (OpenRun.start.feedAll (openingLine number raw raw.length :: _))).flatMap
    (FieldRun.fields allNames) = _
  rw [OpenRun.feedAll_cons, hopen]
  show (OpenRun.wholeLine _ :: bodyRuns (number + 1) lines margin).flatMap _ = _
  rw [List.flatMap_cons, hblank]
  rfl

/-- The declaration of such a struct. -/
theorem structOf_declaration (raw : Text) (h : Header) (lines : List Text) (below : List Text) :
    (structOf number raw h lines margin below).declaration allNames =
      declarationOf allNames number raw h lines margin := by
  have hend : (closingLine margin).length = margin.length + 1 := List.length_append
  rw [StructSource.declaration, structOf_fields, StructSource.span]
  show Declaration.mk _ _ ⟨_, _, _, (closingLine margin).length⟩ _ _ = _
  rw [hend]
  rfl

namespace Document

/-- A line without a header is skipped. -/
theorem scan_skip {s : ReadState} {raw : Text} (below : List Text)
    (hfind : Header.find? (s.group = 1) (CodeLine.ofRaw s.number raw s.inBlock).code = none) :
    scan s (raw :: below) = scan (s.skip (CodeLine.ofRaw s.number raw s.inBlock)) below := by
  rw [scan]
  dsimp only
  split
  · rfl
  · next h hsome => rw [hfind] at hsome; cases hsome

/-- A header with a brace is a struct, and reading goes on below its body. -/
theorem scan_header {s : ReadState} {raw : Text} {below rest : List Text} {h : Header}
    {first : CodeLine}
    (hfind : Header.find? (s.group = 1) (CodeLine.ofRaw s.number raw s.inBlock).code = some h)
    (hopening : Body.opening? (h.rest (CodeLine.ofRaw s.number raw s.inBlock)) below =
      some (first, rest)) :
    scan s (raw :: below) =
      (.struct ⟨s.number, h.name, h.nameColumn (CodeLine.ofRaw s.number raw s.inBlock).code,
          read first rest⟩ :: (scan (s.behind (read first rest)) (read first rest).below).1,
        (scan (s.behind (read first rest)) (read first rest).below).2) := by
  rw [scan]
  dsimp only
  -- the matches keep their equations, so the cases are split before these are compared
  split
  · next hnone => rw [hfind] at hnone; cases hnone
  · next h' hsome =>
    obtain rfl : h = h' := Option.some.inj (hfind.symm.trans hsome)
    split
    · next hnone => rw [hopening] at hnone; cases hnone
    · next first' rest' hsome' =>
      obtain ⟨rfl, rfl⟩ := Prod.mk.inj (Option.some.inj (hopening.symm.trans hsome'))
      rfl

/-- A printed header opens its body at its end. -/
theorem opening?_printed {number : Nat} {raw : Text} {h : Header} (below : List Text)
    (hbehind : h.behind = [' ', '{']) (hlen : 2 ≤ raw.length) :
    Body.opening? (h.rest ⟨number, raw, 0, raw, false⟩) below =
      some (openingLine number raw raw.length, below) := by
  have hcolumn : 0 + (raw.length - 2) + 1 + 1 = raw.length := by omega
  have hafter : (h.rest ⟨number, raw, 0, raw, false⟩).afterBrace? =
      some ⟨number, raw, 0 + (raw.length - 2) + 1 + 1, [], false⟩ := by
    rw [Header.rest, hbehind]
    rfl
  rw [Body.opening?, hafter, hcolumn]
  rfl

/-- A printed header, passing lines and a closing brace are one declaration, and reading goes on
    below them. -/
theorem scan_struct {s : ReadState} {raw : Text} {h : Header} {lines : List Text}
    (below : List Text) (hs : s.inBlock = false) (hraw : Plain raw)
    (hfind : Header.find? (s.group = 1) raw = some h) (hbehind : h.behind = [' ', '{'])
    (hlen : 2 ≤ raw.length) (hpass : PassesAll 1 lines) (hdepth : depthBehindAll 1 lines = 1)
    (hmargin : Text.AllBlank margin) :
    scan s (raw :: (lines ++ closingLine margin :: below)) =
      (.struct (structOf s.number raw h lines margin below) ::
          (scan ⟨s.number + lines.length + 2, false, s.group⟩ below).1,
        (scan ⟨s.number + lines.length + 2, false, s.group⟩ below).2) := by
  have hline : CodeLine.ofRaw s.number raw s.inBlock = ⟨s.number, raw, 0, raw, false⟩ := by
    rw [hs, CodeLine.ofRaw, hraw.strip_eq]
  have hread : read (openingLine s.number raw raw.length)
      (lines ++ closingLine margin :: below) = _ := read_closed below rfl rfl hpass hdepth hmargin
  have hbelow : s.behind (closedBody (openingLine s.number raw raw.length) lines margin below) =
      ⟨s.number + lines.length + 2, false, s.group⟩ := by
    have hnumber : s.number + 1 + lines.length + 1 = s.number + lines.length + 2 := by omega
    show (⟨s.number + 1 + lines.length + 1, false, s.group⟩ : ReadState) = _
    rw [hnumber]
  rw [scan_header (by rw [hline]; exact hfind)
    (by rw [hline]; exact opening?_printed _ hbehind hlen), hline, hread, hbelow]
  rfl

end Document

end GoLayout
