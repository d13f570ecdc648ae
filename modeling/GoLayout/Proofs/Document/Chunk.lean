import Mathlib.Data.List.Infix
import GoLayout.Proofs.Document.Struct
import GoLayout.TypeExpr.Form

/-! # Bodies in chunks

    A body falls into chunks of whole lines that close what they open.  Each chunk gives the
    fields that it gives alone, as long as the chunks before it are settled: among their lines
    that start at brace depth one, every round and square bracket is closed again.  The route:

    * a chunk passes and comes back to depth one (`IsChunk.passesAll`);
    * a struct of such lines is one declaration (`declarations_inStruct`);
    * settled chunks are read apart (`bodyFields_flatten`);
    * a chunk that is not settled takes the field behind it into its own last one
      (`line_lt_of_not_settled`), so the condition cannot be dropped. -/

namespace GoLayout

open Body

/-! ## Chunks -/

/-- The characters of some lines that stand outside comments and literals. -/
def codeText (lines : List Text) : Text := lines.flatMap fun raw => liveText (glyphs (codeOf raw))

/-- No start of the text closes more than it opened, and the whole text closes all of it. -/
structure Balanced (opening closing : Char) (t : Text) : Prop where
  count_le : ∀ p, p <+: t → p.count closing ≤ p.count opening
  count_eq : t.count closing = t.count opening

/-- Whole lines that close every bracket, comment and literal they open, and of which none
    starts with the word `type`. -/
structure IsChunk (lines : List Text) : Prop where
  noBreak : ∀ raw ∈ lines, '\n' ∉ raw
  noComment : ∀ raw ∈ readLines lines, (Comment.strip raw false).2 = false
  noLiteral : ∀ raw ∈ readLines lines, Quoting.after .outside (codeOf raw) = .outside
  round : Balanced '(' ')' (codeText (readLines lines))
  square : Balanced '[' ']' (codeText (readLines lines))
  curly : Balanced '{' '}' (codeText (readLines lines))
  noType : ∀ raw ∈ readLines lines,
    Form.startsWithWord ['t', 'y', 'p', 'e'] (Text.trimLeft (codeOf raw)) = false

/-- The document of one struct with the given lines as its body. -/
def inStruct (name : Text) (lines : List Text) : Text :=
  Text.joinWith ['\n'] (Header.typeLine name :: (lines ++ [['}']]))

/-- The fields of some lines as the body of a struct of their own. -/
def fieldsAlone (allNames : Bool) (name : Text) (lines : List Text) : List Field :=
  (Document.declarations allNames (inStruct name lines)).flatMap (·.fields)

/-- The fields of chunks that each are read alone, moved down behind a number of lines and the
    chunks before. -/
def fieldsApart (allNames : Bool) (name : Text) : Nat → List (List Text) → List Field
  | _, [] => []
  | k, c :: cs =>
      (fieldsAlone allNames name c).map (Field.shift k) ++
        fieldsApart allNames name (k + c.length) cs

/-- The chunks in one body are one struct with the fields that they have apart. -/
def Independent (allNames : Bool) (name : Text) (chunks : List (List Text)) : Prop :=
  ∃ d, Document.declarations allNames (inStruct name chunks.flatten) = [d] ∧
    d.name = name ∧ d.fields = fieldsApart allNames name 0 chunks

/-! ## A chunk passes -/

/-- Braces outside literals are what the depth counts. -/
theorem braceSum_eq_count (gs : List Glyph) :
    Bracket.braceSum gs = (liveText gs).count '{' - (liveText gs).count '}' := by
  induction gs with
  | nil => rfl
  | cons g gs ih =>
      obtain ⟨c, live⟩ := g
      rw [Bracket.braceSum_cons, ih]
      cases live with
      | false =>
          have hzero : Bracket.brace ⟨c, false⟩ = 0 := rfl
          have hskip : liveText (⟨c, false⟩ :: gs) = liveText gs := rfl
          rw [hzero, hskip]
          omega
      | true =>
          have htake : liveText (⟨c, true⟩ :: gs) = c :: liveText gs := rfl
          rw [htake, List.count_cons, List.count_cons]
          by_cases hopen : c = '{'
          · subst hopen
            simp [Bracket.brace, Glyph.isLive]
            omega
          · by_cases hclose : c = '}'
            · subst hclose
              simp [Bracket.brace, Glyph.isLive]
              omega
            · simp [Bracket.brace, Glyph.isLive, hopen, hclose]

/-- At every place of the text the depth is at least one. -/
def StaysInsideText (depth : Int) (t : Text) : Prop :=
  ∀ p, p <+: t → 1 ≤ depth + (p.count '{' - p.count '}' : Int)

/-- Where the braces of the live text stay inside, those of the code do. -/
theorem staysInside_of_text {depth : Int} {gs : List Glyph}
    (h : StaysInsideText depth (liveText gs)) : Bracket.StaysInside depth gs := by
  rintro p ⟨q, rfl⟩
  rw [braceSum_eq_count]
  refine h _ ?_
  rw [liveText_append]
  exact List.prefix_append _ _

/-- Text that stays inside does so in both of its parts, the second one started at the depth behind
    the first. -/
theorem StaysInsideText.append {depth : Int} {a b : Text} (h : StaysInsideText depth (a ++ b)) :
    StaysInsideText depth a ∧
      StaysInsideText (depth + (a.count '{' - a.count '}' : Int)) b := by
  constructor
  · intro p hp
    exact h p (hp.trans (List.prefix_append a b))
  · intro p hp
    have happ := h (a ++ p) ((List.prefix_append_right_inj a).mpr hp)
    rw [List.count_append, List.count_append] at happ
    push_cast at happ
    omega

/-- A line that does not start with the word `type` starts with no header. -/
theorem leading?_eq_none {code : Text}
    (h : Form.startsWithWord ['t', 'y', 'p', 'e'] (Text.trimLeft code) = false) :
    Header.leading? code = none := by
  rw [Form.startsWithWord] at h
  rw [Header.leading?, Header.atKeyword?]
  cases hafter : Text.after? "type" (Text.trimLeft code) with
  | none => rfl
  | some rest =>
      cases rest with
      | nil => rfl
      | cons c rest =>
          -- the header needs a blank behind the word, which would make it a word of its own
          have hword : isWord c = true := by
            have hafter' : Text.after? ['t', 'y', 'p', 'e'] (Text.trimLeft code) =
                some (c :: rest) := hafter
            rw [hafter'] at h
            simpa using h
          show (if isBlank c = true then _ else none) = none
          rw [Identifier.not_isBlank_of_isWord hword]
          rfl

/-- Lines without an open comment, without a header and with braces that stay inside are passed as
    lines of a body. -/
theorem passesAll_of_text (lines : List Text) :
    ∀ depth : Int, (∀ raw ∈ lines, (Comment.strip raw false).2 = false) →
      (∀ raw ∈ lines,
        Form.startsWithWord ['t', 'y', 'p', 'e'] (Text.trimLeft (codeOf raw)) = false) →
      StaysInsideText depth (codeText lines) → PassesAll depth lines ∧
        depthBehindAll depth lines =
          depth + ((codeText lines).count '{' - (codeText lines).count '}' : Int) := by
  induction lines with
  | nil =>
      intro depth _ _ _
      refine ⟨trivial, ?_⟩
      show depth = depth + ((0 : Nat) - (0 : Nat) : Int)
      omega
  | cons raw lines ih =>
      intro depth hcomment htype htext
      have hsplit : codeText (raw :: lines) =
          liveText (glyphs (codeOf raw)) ++ codeText lines := List.flatMap_cons
      -- the text of the other lines is read from the depth behind this one
      rw [hsplit] at htext ⊢
      obtain ⟨hhead, htail⟩ := htext.append
      rw [← braceSum_eq_count] at htail
      obtain ⟨hpass, hdepth⟩ := ih (depthBehind depth raw)
        (fun r hr => hcomment r (List.mem_cons_of_mem _ hr))
        (fun r hr => htype r (List.mem_cons_of_mem _ hr)) htail
      refine ⟨⟨⟨hcomment raw List.mem_cons_self,
        fun _ => leading?_eq_none (htype raw List.mem_cons_self),
        staysInside_of_text hhead⟩, hpass⟩, ?_⟩
      show depthBehindAll (depthBehind depth raw) lines = _
      have hbrace := braceSum_eq_count (glyphs (codeOf raw))
      rw [hdepth, depthBehind, List.count_append, List.count_append]
      push_cast
      omega

/-- A chunk is passed and comes back to depth one. -/
theorem IsChunk.passesAll {lines : List Text} (h : IsChunk lines) :
    PassesAll 1 (readLines lines) ∧ depthBehindAll 1 (readLines lines) = 1 := by
  have htext : StaysInsideText 1 (codeText (readLines lines)) := by
    intro p hp
    have hle := h.curly.count_le p hp
    omega
  obtain ⟨hpass, hdepth⟩ := passesAll_of_text _ 1 h.noComment h.noType htext
  refine ⟨hpass, ?_⟩
  have heq := h.curly.count_eq
  omega

/-! ## A struct of passing lines -/

/-- The lines of a struct with some lines in it: its header, those lines, and the closing brace. -/
theorem sourceLines_inStruct {name : Text} {lines : List Text}
    (hname : Identifier.isIdentifier name = true) (hbreak : ∀ raw ∈ lines, '\n' ∉ raw) :
    sourceLines (inStruct name lines) =
      Header.typeLine name :: (readLines lines ++ [closingLine []]) := by
  have hlines : ∀ t ∈ Header.typeLine name :: (lines ++ [['}']]), '\n' ∉ t := by
    intro t ht
    rcases List.mem_cons.mp ht with rfl | hmem
    · exact Header.notMem_header (by decide) hname
    · rcases List.mem_append.mp hmem with hline | hlast
      · exact hbreak t hline
      · rw [List.mem_singleton.mp hlast]
        decide
  rw [inStruct, sourceLines_joinWith (List.cons_ne_nil _ _) hlines, readLines, List.map_cons,
    Header.typeLine, Header.dropTrailing_structTail, List.map_append]
  rfl

/-- Passing lines in a struct are the body of one declaration. -/
theorem declarations_inStruct {allNames : Bool} {name : Text} {lines : List Text}
    (hname : Identifier.isIdentifier name = true) (hbreak : ∀ raw ∈ lines, '\n' ∉ raw)
    (hpass : PassesAll 1 (readLines lines)) (hdepth : depthBehindAll 1 (readLines lines) = 1) :
    Document.declarations allNames (inStruct name lines) =
      [declarationOf allNames 0 (Header.typeLine name) (Header.printed name)
        (readLines lines) []] := by
  have hlen : 2 ≤ (Header.typeLine name).length := by
    have h2 : (['t', 'y', 'p', 'e', ' '] ++ name).length = 5 + name.length :=
      List.length_append
    rw [Header.typeLine, List.length_append, h2]
    omega
  have hscan := Document.scan_struct (s := .start) [] rfl (Header.typeLine_plain hname)
    (Header.find?_typeLine _ hname) rfl hlen hpass hdepth Text.allBlank_nil
  rw [Document.declarations, Document.findings, sourceLines_inStruct hname hbreak, hscan,
    Document.scan, List.filterMap_cons]
  show _ :: List.filterMap _ [] = _
  rw [structOf_declaration]
  rfl

/-- The fields that a chunk gives in a struct of its own are those of its lines. -/
theorem fieldsAlone_eq {allNames : Bool} {name : Text} {lines : List Text}
    (hname : Identifier.isIdentifier name = true) (h : IsChunk lines) :
    fieldsAlone allNames name lines = bodyFields allNames 1 (readLines lines) [] := by
  rw [fieldsAlone, declarations_inStruct hname h.noBreak h.passesAll.1 h.passesAll.2,
    List.flatMap_singleton]
  rfl

/-! ## Chunks behind each other -/

/-- Chunks behind each other pass, and come back to the depth of the struct. -/
theorem flatten_passesAll {chunks : List (List Text)} (h : ∀ c ∈ chunks, IsChunk c) :
    PassesAll 1 (readLines chunks.flatten) ∧
      depthBehindAll 1 (readLines chunks.flatten) = 1 := by
  induction chunks with
  | nil => exact ⟨trivial, rfl⟩
  | cons c chunks ih =>
      obtain ⟨hpass, hdepth⟩ := (h c List.mem_cons_self).passesAll
      obtain ⟨hrest, hdepth'⟩ := ih fun c' hc' => h c' (List.mem_cons_of_mem _ hc')
      rw [List.flatten_cons, readLines_append, passesAll_append, depthBehindAll_append, hdepth]
      exact ⟨⟨hpass, hrest⟩, hdepth'⟩

/-- No line of some chunks holds a line break. -/
theorem flatten_noBreak {chunks : List (List Text)} (h : ∀ c ∈ chunks, IsChunk c) :
    ∀ raw ∈ chunks.flatten, '\n' ∉ raw := by
  intro raw hraw
  obtain ⟨c, hc, hmem⟩ := List.mem_flatten.mp hraw
  exact (h c hc).noBreak raw hmem

/-- Chunks that are settled but for the last one give their fields one after the other. -/
theorem bodyFields_flatten {allNames : Bool} {name : Text} {chunks : List (List Text)}
    (hname : Identifier.isIdentifier name = true) :
    ∀ k, (∀ c ∈ chunks, IsChunk c) → (∀ c ∈ chunks.dropLast, Settled (readLines c)) →
      bodyFields allNames (1 + k) (readLines chunks.flatten) [] =
        fieldsApart allNames name k chunks := by
  induction chunks with
  | nil => intro k _ _; exact bodyFields_nil Text.allBlank_nil
  | cons c chunks ih =>
      intro k hchunk hsettled
      have hc := hchunk c List.mem_cons_self
      have hhead : (fieldsAlone allNames name c).map (Field.shift k) =
          bodyFields allNames (1 + k) (readLines c) [] := by
        rw [fieldsAlone_eq hname hc, bodyFields_shift]
      rw [fieldsApart, hhead, List.flatten_cons, readLines_append]
      -- the last chunk need not be settled, since nothing is behind it
      cases chunks with
      | nil =>
          show bodyFields allNames (1 + k) (readLines c ++ []) [] = _ ++ []
          rw [List.append_nil, List.append_nil]
      | cons c' chunks =>
          have hset : Settled (readLines c) := hsettled c List.mem_cons_self
          have hnumber : 1 + k + (readLines c).length = 1 + (k + c.length) := by
            rw [length_readLines]
            omega
          rw [bodyFields_append _ Text.allBlank_nil hc.passesAll.2 hset, hnumber,
            ih (k + c.length) (fun d hd => hchunk d (List.mem_cons_of_mem _ hd))
              fun d hd => hsettled d (List.mem_cons_of_mem _ hd)]

/-! ## A chunk that is not settled -/

/-- A field line of its own. -/
def plainField : Text := ['\t', 'b', ' ', 'i', 'n', 't']

/-- Text without the two brackets is balanced. -/
theorem Balanced.of_notMem {opening closing : Char} {t : Text} (hopen : opening ∉ t)
    (hclose : closing ∉ t) : Balanced opening closing t := by
  refine ⟨fun p hp => ?_, ?_⟩
  · have hzero : p.count closing = 0 :=
      List.count_eq_zero.mpr fun hmem => hclose (hp.subset hmem)
    omega
  · rw [List.count_eq_zero.mpr hopen, List.count_eq_zero.mpr hclose]

/-- A single field is a chunk. -/
theorem plainField_isChunk : IsChunk [plainField] := by
  have hread : readLines [plainField] = [plainField] := rfl
  have hcode : codeText [plainField] = plainField := by decide +kernel
  constructor
  case noBreak => decide
  case noComment => rw [hread]; decide +kernel
  case noLiteral => rw [hread]; decide +kernel
  case noType => rw [hread]; decide +kernel
  all_goals
    rw [hread, hcode]
    exact Balanced.of_notMem (by decide) (by decide)

theorem fieldsAlone_plainField {allNames : Bool} {name : Text}
    (hname : Identifier.isIdentifier name = true) :
    fieldsAlone allNames name [plainField] = [⟨['b'], ['i', 'n', 't'], ⟨1, 1, 2⟩⟩] := by
  rw [fieldsAlone_eq hname plainField_isChunk]
  cases allNames with
  | false => decide +kernel
  | true => decide +kernel

/-- Code that opens and closes nothing goes on with the open run. -/
theorem OpenRun.feed_of_still {s : OpenRun} {run : FieldRun} {l : CodeLine}
    (hs : s.pending = some run) (hopen : s.brackets > 0) (hstill : Still (glyphs l.code)) :
    s.feed l = ([], ⟨s.brackets, some { run with parts := run.parts ++ [l.code] }⟩) := by
  have hbehind : OpenRun.bracketsBehind s.brackets l = s.brackets := by
    rw [OpenRun.bracketsBehind, Segment.split_snd, Nesting.after_of_still hstill]
  rw [OpenRun.feed_open hs (fun g hg => hstill g hg ';' List.mem_cons_self) (by omega), hbehind]

theorem OpenRun.feedAll_of_still (ls : List CodeLine) :
    ∀ (s : OpenRun) (run : FieldRun), s.pending = some run → s.brackets > 0 →
      (∀ l ∈ ls, Still (glyphs l.code)) →
      ∃ last : FieldRun, last.line = run.line ∧ s.feedAll ls = ([], ⟨s.brackets, some last⟩) := by
  induction ls with
  | nil =>
      intro s run hs _ _
      refine ⟨run, rfl, ?_⟩
      rw [← hs]
      rfl
  | cons l ls ih =>
      intro s run hs hopen hstill
      have hfeed := OpenRun.feed_of_still hs hopen (hstill l List.mem_cons_self)
      obtain ⟨last, hline, hrest⟩ := ih ⟨s.brackets, some { run with parts := run.parts ++ [l.code] }⟩
        _ rfl hopen fun m hm => hstill m (List.mem_cons_of_mem _ hm)
      -- each line is one more part of the run that is open, and completes none
      refine ⟨last, hline, ?_⟩
      rw [OpenRun.feedAll_cons, hfeed, hrest]
      rfl

/-- Neither the field of its own nor the blank text before the brace closes anything. -/
theorem still_behind (number : Nat) :
    ∀ l ∈ partsOf 1 number [plainField] ++ [closerPart (number + 1) []], Still (glyphs l.code) := by
  have hfield : Still (glyphs plainField) := by decide +kernel
  have hstrip : Comment.strip plainField false = (plainField, false) := by decide +kernel
  have hpart : partsOf 1 number [plainField] = [⟨number, plainField, 0, plainField, false⟩] := by
    rw [partsOf, CodeLine.ofRaw, hstrip]
    rfl
  intro l hl
  rw [hpart] at hl
  -- the field itself, and the line of the closing brace, of which nothing is left
  rcases List.mem_cons.mp hl with rfl | hcloser
  · exact hfield
  · rw [List.mem_singleton.mp hcloser]
    intro g hg
    cases hg

/-- Lines that are not settled leave a run open, and a bracket. -/
theorem exists_pending_of_not_settled {lines : List Text} (h : ¬ Settled lines) (number : Nat) :
    (OpenRun.start.feedAll (partsOf 1 number lines)).2.brackets > 0 ∧
      ∃ run, (OpenRun.start.feedAll (partsOf 1 number lines)).2.pending = some run := by
  have hrested := OpenRun.feedAll_rested (partsOf 1 number lines) _ OpenRun.start_rested
  have hbrackets : (OpenRun.start.feedAll (partsOf 1 number lines)).2.brackets ≠ 0 := by
    rw [OpenRun.feedAll_brackets]
    intro h0
    exact h ((bracketsBehindAll_partsOf lines 1 0 number).symm.trans h0)
  refine ⟨?_, Option.ne_none_iff_exists'.mp fun hnone =>
    hbrackets (hrested.pending_iff.mp hnone)⟩
  have hnonneg := hrested.brackets_nonneg
  omega

/-- Behind a chunk that is not settled no field starts on the next line. -/
theorem line_lt_of_not_settled {allNames : Bool} {lines : List Text} {f : Field}
    (hdepth : depthBehindAll 1 lines = 1) (h : ¬ Settled lines)
    (hf : f ∈ bodyFields allNames 1 (lines ++ [plainField]) []) :
    f.location.line < 1 + lines.length := by
  obtain ⟨r, hr, hfr⟩ := List.mem_flatMap.mp hf
  rw [FieldRun.mem_fields_line hfr]
  have hstands : OpenRun.StandsOn (· < 1 + lines.length)
      (OpenRun.start.feedAll (partsOf 1 1 lines)) :=
    OpenRun.feedAll_standsOn _ OpenRun.start (fun run hrun => nomatch hrun)
      fun l hl => (mem_partsOf_number lines 1 1 hl).2
  obtain ⟨hopen, run, hrun⟩ := exists_pending_of_not_settled h 1
  -- the field below and the blank text before the brace only go on with the open run
  obtain ⟨last, hline, hbehind⟩ := OpenRun.feedAll_of_still _ _ run hrun hopen
    (still_behind (1 + lines.length))
  have hlen : 1 + (lines ++ [plainField]).length = 1 + lines.length + 1 := by
    rw [List.length_append]
    rfl
  have hruns : bodyRuns 1 (lines ++ [plainField]) [] =
      (OpenRun.start.feedAll (partsOf 1 1 lines)).1 ++ [last] := by
    rw [bodyRuns, partsOf_append, hdepth, List.append_assoc, OpenRun.feedAll_append, hlen,
      hbehind]
    show _ ++ [] ++ [last] = _
    rw [List.append_nil]
  rw [hruns] at hr
  rcases List.mem_append.mp hr with hdone | hlast
  · exact hstands.1 r hdone
  · rw [List.mem_singleton.mp hlast, hline]
    exact hstands.2 run hrun

/-! ## The condition -/

instance (opening closing : Char) (t : Text) : Decidable (Balanced opening closing t) :=
  decidable_of_iff
    ((∀ p ∈ t.inits, p.count closing ≤ p.count opening) ∧ t.count closing = t.count opening)
    ⟨fun ⟨hle, heq⟩ => ⟨fun p hp => hle p ((List.mem_inits p t).mpr hp), heq⟩,
      fun h => ⟨fun p hp => h.count_le p ((List.mem_inits p t).mp hp), h.count_eq⟩⟩

/-- A chunk whose round bracket is opened on a line at depth one and closed below the brace of
    that line. -/
def heldBracket : List Text :=
  ["\tF struct \x7b g func(", "\tx int) \x7d"].map String.toList

/-- A field whose bracket is closed on a line that is not fed is a chunk. -/
theorem heldBracket_isChunk : IsChunk heldBracket := by
  constructor
  case noBreak => decide
  all_goals decide +kernel

theorem heldBracket_not_settled : ¬ Settled (readLines heldBracket) := by
  rw [Settled]
  decide +kernel

/-- Chunks that are settled but for the last one are independent. -/
theorem independent_of_settled {allNames : Bool} {name : Text} {chunks : List (List Text)}
    (hname : Identifier.isIdentifier name = true) (hchunk : ∀ c ∈ chunks, IsChunk c)
    (hsettled : ∀ c ∈ chunks.dropLast, Settled (readLines c)) :
    Independent allNames name chunks := by
  obtain ⟨hpass, hdepth⟩ := flatten_passesAll hchunk
  refine ⟨_, declarations_inStruct hname (flatten_noBreak hchunk) hpass hdepth, rfl, ?_⟩
  exact bodyFields_flatten hname 0 hchunk hsettled

/-- Two chunks are chunks. -/
theorem isChunk_pair {c behind : List Text} (hc : IsChunk c) (hbehind : IsChunk behind) :
    ∀ d ∈ [c, behind], IsChunk d := by
  intro d hd
  rcases List.mem_cons.mp hd with rfl | hmem
  · exact hc
  · rw [List.mem_singleton.mp hmem]
    exact hbehind

/-- A chunk that leaves a single field behind it alone is settled. -/
theorem settled_of_independent {allNames : Bool} {name : Text} {c : List Text}
    (hname : Identifier.isIdentifier name = true) (hc : IsChunk c)
    (h : Independent allNames name [c, [plainField]]) : Settled (readLines c) := by
  by_contra hopen
  obtain ⟨d, hd, -, hfields⟩ := h
  have hchunk := isChunk_pair hc plainField_isChunk
  obtain ⟨hpass, hdepth⟩ := flatten_passesAll hchunk
  rw [declarations_inStruct hname (flatten_noBreak hchunk) hpass hdepth] at hd
  obtain rfl := List.head_eq_of_cons_eq hd
  -- apart, the field stands on the line below the chunk
  have hmem : (⟨['b'], ['i', 'n', 't'], ⟨1 + c.length, 1, 2⟩⟩ : Field) ∈
      fieldsApart allNames name 0 [c, [plainField]] := by
    have hnumber : 1 + (0 + c.length) = 1 + c.length := by omega
    rw [fieldsApart, fieldsApart, fieldsAlone_plainField hname, ← hnumber]
    exact List.mem_append_right _ List.mem_cons_self
  -- in one body, no field does
  have hlines : readLines [c, [plainField]].flatten = readLines c ++ [plainField] := by
    rw [List.flatten_cons, readLines_append]
    rfl
  rw [← hfields] at hmem
  have hmem' : _ ∈ bodyFields allNames 1 (readLines [c, [plainField]].flatten) [] := hmem
  rw [hlines] at hmem'
  have hlt := line_lt_of_not_settled hc.passesAll.2 hopen hmem'
  rw [length_readLines] at hlt
  exact absurd hlt (Nat.lt_irrefl _)

/-- Chunks are read apart when all but the last one are settled, and a chunk that is not settled
    does not leave every chunk behind it alone. -/
theorem independent_iff_settled (allNames : Bool) {name : Text}
    (hname : Identifier.isIdentifier name = true) :
    (∀ chunks : List (List Text), (∀ c ∈ chunks, IsChunk c) →
      (∀ c ∈ chunks.dropLast, Settled (readLines c)) → Independent allNames name chunks) ∧
    ∀ c, IsChunk c → (Settled (readLines c) ↔
      ∀ behind, IsChunk behind → Independent allNames name [c, behind]) := by
  constructor
  · intro chunks hchunk hsettled
    exact independent_of_settled hname hchunk hsettled
  · intro c hc
    constructor
    · intro hsettled behind hbehind
      refine independent_of_settled hname (isChunk_pair hc hbehind) fun d hd => ?_
      rw [List.mem_singleton.mp hd]
      exact hsettled
    · intro hall
      -- a plain field behind the chunk is enough to show that its brackets are closed
      exact settled_of_independent hname hc (hall [plainField] plainField_isChunk)

/-- Two plain fields are independent, and a held bracket is not independent of what comes behind it.
    -/
theorem independent_iff_settled_plainField :
    Independent true ['S'] [[plainField], [plainField]] ∧
      ¬ ∀ behind, IsChunk behind → Independent true ['S'] [heldBracket, behind] := by
  have hname : Identifier.isIdentifier ['S'] = true := by decide +kernel
  obtain ⟨hapart, hiff⟩ := independent_iff_settled true hname
  refine ⟨hapart _ ?_ ?_, fun hall => ?_⟩
  · intro c hc
    have hsame : c = [plainField] := by simpa using hc
    rw [hsame]
    exact plainField_isChunk
  · intro c hc
    have hsame : c = [plainField] := by simpa using hc
    rw [hsame, Settled]
    decide +kernel
  · exact heldBracket_not_settled ((hiff heldBracket heldBracket_isChunk).mpr hall)

/-- The field behind the held bracket is taken into the type of the field in front of it. -/
theorem heldBracket_not_independent :
    (∀ c ∈ [heldBracket, [plainField]], IsChunk c) ∧
      ∀ allNames, ¬ Independent allNames ['S'] [heldBracket, [plainField]] := by
  refine ⟨isChunk_pair heldBracket_isChunk plainField_isChunk, fun allNames h => ?_⟩
  obtain ⟨d, hd, -, hfields⟩ := h
  have hsame : (Document.declarations allNames
      (inStruct ['S'] [heldBracket, [plainField]].flatten)).flatMap (·.fields) =
      fieldsApart allNames ['S'] 0 [heldBracket, [plainField]] := by
    rw [hd, List.flatMap_singleton, hfields]
  -- both sides are fixed by now: one field against two
  revert hsame
  cases allNames with
  | false => decide +kernel
  | true => decide +kernel

end GoLayout
