import GoLayout.Proofs.Document.BodyLines
import GoLayout.Proofs.Document.Commented

/-! # Code outside of bodies

    Reading a document passes over lines without a header, and over what stands around the bodies
    of structs: in front of the opening brace and behind the closing one.  `Document.outside` lists
    this code.  A body in its braces leaves no brace open, so the braces that the code of some lines
    leaves open are those that the code outside of closed bodies leaves open (`Run.passes`). -/

namespace GoLayout

open GoLayout.Bracket

/-! ## Around one body -/

namespace Bracket

/-- What stands behind the brace that closes a body, on its line. -/
def behindClose (depth : Int) : List Text → List Glyph
  | [] => []
  | code :: below =>
    match scanBraces code depth with
    | (_, some column) => (glyphs code).drop (column + 1)
    | (behind, none) => behindClose behind below

/-- What stands around the body that the first opening brace of some code opens, given what stands
    in front of the code on its first line.  There is no such body if the brace is in a literal. -/
def aroundBody? (front : Text) : List Text → Option (List Glyph)
  | [] => none
  | code :: below =>
    match Text.cutAt? '{' code with
    | some (before, after) =>
      if Quoting.after .outside (front ++ before) = .outside then
        some (glyphs (front ++ before) ++ behindClose 1 (after :: below))
      else none
    | none => (aroundBody? [] below).map (glyphs (front ++ code) ++ ·)

/-- Behind the brace that closes a body stands the rest of its line. -/
theorem behindClose_of_some {depth : Int} {code : Text} {column : Nat} (below : List Text)
    (h : (scanBraces code depth).2 = some column) :
    behindClose depth (code :: below) = (glyphs code).drop (column + 1) := by
  rw [behindClose]
  split
  · next hscan =>
    rw [hscan] at h
    rw [Option.some.inj h]
  · next hscan =>
    rw [hscan] at h
    exact nomatch h

theorem behindClose_of_none {depth behind : Int} {code : Text} (below : List Text)
    (h : scanBraces code depth = (behind, none)) :
    behindClose depth (code :: below) = behindClose behind below := by
  rw [behindClose, h]

/-- What stands around a body and the lines of the body are the code: `front` stands in front of
    the first line, and the body goes on as far as one likes. -/
theorem aroundBody?_eq_some {codes body : List Text} {skipped : Nat}
    (hopens : OpensOn codes skipped body) :
    ∀ {front : Text} {around : List Glyph}, aroundBody? front codes = some around →
      ∃ before, around = before ++ behindClose 1 body ∧
        ∀ count, ((codes.modifyHead (front ++ ·)).take (skipped + count + 1)).flatMap glyphs =
          before ++ ⟨'{', true⟩ :: (body.take (count + 1)).flatMap glyphs := by
  obtain ⟨lines, before, after, below, rfl, rfl, rfl, hbefore, hlines⟩ := hopens
  -- along the lines without a brace, with their code put behind the front
  induction lines with
  | nil =>
      intro front around h
      have hcut : Text.cutAt? '{' (before ++ '{' :: after) = some (before, after) :=
        Text.cutAt?_eq_some.mpr ⟨rfl, hbefore⟩
      rw [List.nil_append, aroundBody?, hcut] at h
      dsimp only at h
      split at h
      · next houtside =>
        refine ⟨_, (Option.some.inj h).symm, fun count => ?_⟩
        have hbrace : glyphs ('{' :: after) = ⟨'{', true⟩ :: glyphs after := rfl
        rw [List.nil_append, List.modifyHead_cons, ← List.append_assoc, List.length_nil,
          Nat.zero_add, List.take_succ_cons, List.take_succ_cons, List.flatMap_cons,
          List.flatMap_cons, glyphs_append _ houtside, hbrace, List.append_assoc]
        rfl
      · exact nomatch h
  | cons code lines ih =>
      intro front around h
      rw [List.cons_append, aroundBody?,
        Text.cutAt?_of_notMem (hlines code List.mem_cons_self)] at h
      obtain ⟨inner, hinner, rfl⟩ := Option.map_eq_some_iff.mp h
      obtain ⟨front', rfl, hcodes⟩ := ih (fun c hc => hlines c (List.mem_cons_of_mem _ hc)) hinner
      refine ⟨glyphs (front ++ code) ++ front', (List.append_assoc _ _ _).symm, fun count => ?_⟩
      have hbelow := hcodes count
      have hid : (fun t : Text => [] ++ t) = id := rfl
      rw [hid, List.modifyHead_id, id_eq] at hbelow
      have hcount : (code :: lines).length + count + 1 = (lines.length + count + 1) + 1 := by
        rw [List.length_cons]
        omega
      rw [List.cons_append, List.modifyHead_cons, hcount, List.take_succ_cons, List.flatMap_cons,
        hbelow, List.append_assoc]

end Bracket

/-- The lines of a closed body are the body, its closing brace and what stands behind it. -/
theorem Body.Extends.exists_inside {depth : Int} {codes : List Text} {count : Nat}
    {ending : Ending} (h : Extends depth codes count ending) :
    1 ≤ depth → ending = .closed → ∃ inside,
      (codes.take (count + 1)).flatMap glyphs = inside ++ ⟨'}', true⟩ :: behindClose depth codes ∧
      StaysInside depth inside ∧ depth + braceSum inside = 1 := by
  induction h with
  | closed hscan =>
      intro hdepth _
      obtain ⟨inside, behind, hsplit, hlength, hinside, hone⟩ :=
        exists_of_closing _ hdepth hscan
      refine ⟨inside, ?_, hinside, hone⟩
      rw [behindClose_of_some _ hscan, List.take_succ_cons, List.take_zero,
        List.flatMap_singleton, hsplit, ← hlength, List.drop_append]
      simp
  | endOfInput _ => exact fun _ h => nomatch h
  | beforeHeader _ _ => exact fun _ h => nomatch h
  | next hscan _ _ ih =>
      intro hdepth hclosed
      obtain ⟨hfirst, hbehind, hpos⟩ := behind_eq hdepth hscan
      obtain ⟨inside, hlines, hinside, hone⟩ := ih hpos hclosed
      -- the inside of this line comes in front of that of the lines below
      refine ⟨glyphs _ ++ inside, ?_, hfirst.glue (hbehind ▸ hinside), ?_⟩
      · rw [behindClose_of_none _ hscan, List.take_succ_cons, List.flatMap_cons, hlines,
          List.append_assoc]
      · rw [braceSum_append]
        omega

/-! ## Outside of all bodies -/

namespace Document

/-- The lines that a struct takes up from its header line on. -/
def structCodes (s : ReadState) (raw : Text) (below : List Text) (body : Body) : List Text :=
  (Comment.codes s.inBlock (raw :: below)).take (body.last.number + 1 - s.number)

/-- The code of a struct that stands around its body.  A body without a closing brace counts as
    code around it, and so does one behind a brace in a literal. -/
def aroundStruct (s : ReadState) (raw : Text) (below : List Text) (h : Header) (body : Body) :
    List Glyph :=
  let l := s.line raw
  let all := (structCodes s raw below body).flatMap glyphs
  if body.ending = .closed then
    (aroundBody? (l.code.take (l.code.length - h.behind.length))
      (h.behind :: Comment.codes l.inBlock below)).getD all
  else all

/-- The code outside of closed bodies, line by line; what stands around a body counts for the
    line of the header. -/
def outside (s : ReadState) : List Text → List (List Glyph)
  | [] => []
  | raw :: below =>
    let l := s.line raw
    match Header.find? (s.group = 1) l.code with
    | none => glyphs l.code :: outside (s.skip l) below
    | some h =>
      match _h : Body.opening? (h.rest l) below with
      | none => glyphs l.code :: outside s.discard below
      | some (first, rest) =>
        let body := Body.read first rest
        aroundStruct s raw below h body :: (List.replicate (body.last.number - s.number) [] ++
          outside (s.behind body) body.below)
termination_by lines => lines.length
decreasing_by
  · simp
  · simp
  · have h1 := Body.opening?_length _h
    have h2 := Body.readFrom_below_length 1 first rest
    simp only [Body.read, List.length_cons]
    omega

variable {s t u : ReadState} {lines rest left below : List Text} {found : List Finding}
  {raw : Text}

/-- A line without a header is outside of all bodies. -/
theorem outside_skip (hfind : Header.find? (s.group = 1) (s.line raw).code = none) :
    outside s (raw :: below) = glyphs (s.line raw).code :: outside (s.skip (s.line raw)) below := by
  rw [outside]
  dsimp only
  split
  · rfl
  · next hsome => rw [hfind] at hsome; cases hsome

/-- Of the lines of a struct, what stands around its body is outside, all of it on the header line.
    -/
theorem outside_struct {h : Header} {first : CodeLine}
    (hfind : Header.find? (s.group = 1) (s.line raw).code = some h)
    (hopen : Body.opening? (h.rest (s.line raw)) below = some (first, rest)) :
    outside s (raw :: below) = aroundStruct s raw below h (Body.read first rest) ::
      (List.replicate ((Body.read first rest).last.number - s.number) [] ++
        outside (s.behind (Body.read first rest)) (Body.read first rest).below) := by
  rw [outside]
  dsimp only
  -- the header and the brace are those that are given, and so the other cases are not there
  split
  · next hnone => rw [hfind] at hnone; cases hnone
  · next h' hsome =>
    obtain rfl : h = h' := Option.some.inj (hfind.symm.trans hsome)
    split
    · next hnone => rw [hopen] at hnone; cases hnone
    · next first' rest' hsome' =>
      obtain ⟨rfl, rfl⟩ := Prod.mk.inj (Option.some.inj (hopen.symm.trans hsome'))
      rfl

/-- The code of the lines from one place of reading to another, and the part of it outside of
    closed bodies: it leaves as many braces open. -/
structure Passes (s : ReadState) (lines : List Text) (t : ReadState) (rest : List Text)
    (passed : List Text) (outer : List (List Glyph)) : Prop where
  codes_eq : Comment.codes s.inBlock lines = passed ++ Comment.codes t.inBlock rest
  outside_eq : outside s lines = outer ++ outside t rest
  number_eq : s.number + passed.length = t.number
  length_eq : outer.length = passed.length
  leftOpen_eq : ∀ count, 0 ≤ count →
    leftOpen count (passed.flatMap glyphs) = leftOpen count outer.flatten

/-- Passing some lines and then others passes both. -/
theorem Passes.trans {passed more : List Text} {outer outerMore : List (List Glyph)}
    (h : Passes s lines t rest passed outer) (h' : Passes t rest u left more outerMore) :
    Passes s lines u left (passed ++ more) (outer ++ outerMore) where
  codes_eq := by rw [h.codes_eq, h'.codes_eq, List.append_assoc]
  outside_eq := by rw [h.outside_eq, h'.outside_eq, List.append_assoc]
  number_eq := by
    rw [List.length_append, ← h'.number_eq, ← h.number_eq, Nat.add_assoc]
  length_eq := by rw [List.length_append, List.length_append, h.length_eq, h'.length_eq]
  leftOpen_eq count hcount := by
    rw [List.flatMap_append, List.flatten_append, leftOpen_append, leftOpen_append,
      h.leftOpen_eq count hcount, h'.leftOpen_eq _ (leftOpen_nonneg _ hcount)]

/-- The lines of a struct and those below it. -/
theorem structCodes_append {h : Header} {first : CodeLine}
    (hopen : Body.opening? (h.rest (s.line raw)) below = some (first, rest)) :
    Comment.codes s.inBlock (raw :: below) = structCodes s raw below (Body.read first rest) ++
        Comment.codes (Body.read first rest).last.inBlock (Body.read first rest).below ∧
      s.number + (structCodes s raw below (Body.read first rest)).length =
        (Body.read first rest).last.number + 1 := by
  let Read : CodeLine → List Text → Prop := fun l lines => ∃ passed,
    Comment.codes s.inBlock (raw :: below) = passed ++ Comment.codes l.inBlock lines ∧
      s.number + passed.length = l.number + 1
  have hnext : ∀ l next lines, Read l (next :: lines) →
      Read (CodeLine.ofRaw (l.number + 1) next l.inBlock) lines := by
    rintro l next lines ⟨passed, hcodes, hnumber⟩
    refine ⟨passed ++ [(Comment.strip next l.inBlock).1], ?_, ?_⟩
    · rw [hcodes, List.append_assoc]
      rfl
    · rw [List.length_append]
      exact congrArg (· + 1) hnumber
  have hbrace : ∀ l l' lines, Read l lines → l.afterBrace? = some l' → Read l' lines := by
    intro l l' lines hread hl
    obtain ⟨_, -, rfl⟩ := Option.map_eq_some_iff.mp hl
    exact hread
  -- every line down to the last one of the body is one of the codes
  have hfirst : Read first rest :=
    Body.opening?_induct hnext hbrace ⟨[(s.line raw).code], rfl, rfl⟩ hopen
  obtain ⟨passed, hcodes, hnumber⟩ := Body.readFrom_induct hnext rest 1 first hfirst
  have hpassed : structCodes s raw below (Body.read first rest) = passed := by
    have hlength : (Body.read first rest).last.number + 1 - s.number = passed.length := by
      have hnumber' : s.number + passed.length = (Body.read first rest).last.number + 1 := hnumber
      omega
    rw [structCodes, hlength, hcodes, List.take_left]
  rw [hpassed]
  exact ⟨hcodes, hnumber⟩

/-- A struct leaves as many braces open as the code around its body. -/
theorem leftOpen_aroundStruct {h : Header} {first : CodeLine}
    (hfind : Header.find? (s.group = 1) (s.line raw).code = some h)
    (hopen : Body.opening? (h.rest (s.line raw)) below = some (first, rest)) {count : Int}
    (hcount : 0 ≤ count) :
    leftOpen count ((structCodes s raw below (Body.read first rest)).flatMap glyphs) =
      leftOpen count (aroundStruct s raw below h (Body.read first rest)) := by
  rw [aroundStruct]
  split
  · next hclosed =>
    cases haround : aroundBody?
        ((s.line raw).code.take ((s.line raw).code.length - h.behind.length))
        (h.behind :: Comment.codes (s.line raw).inBlock below) with
    | none => rfl
    | some around =>
        obtain ⟨skipped, hfirst, hopens⟩ := Body.opening?_opensOn hopen
        obtain ⟨further, hlast, hextends⟩ := Body.readFrom_extends rest 1 first
        obtain ⟨before, rfl, hcodes⟩ := aroundBody?_eq_some hopens haround
        obtain ⟨inside, hbody, hinside, hsum⟩ := hextends.exists_inside (by decide) hclosed
        -- the header in front of the brace and what is behind it are the code of the line
        have hline : ((h.rest (s.line raw)).code ::
              Comment.codes (h.rest (s.line raw)).inBlock below).modifyHead
              ((s.line raw).code.take ((s.line raw).code.length - h.behind.length) ++ ·) =
            Comment.codes s.inBlock (raw :: below) := by
          obtain ⟨front, hcode⟩ := Header.exists_behind hfind
          have hfront : (s.line raw).code.take ((s.line raw).code.length - h.behind.length) =
              front := by
            rw [hcode, List.length_append, Nat.add_sub_cancel, List.take_left]
          show (_ ++ h.behind) :: _ = (s.line raw).code :: _
          rw [hfront, ← hcode]
          rfl
        have htake : (Body.read first rest).last.number + 1 - s.number =
            skipped + further + 1 := by
          have hlast' : (Body.read first rest).last.number = first.number + further := hlast
          have hfirst' : first.number = s.number + skipped := hfirst
          omega
        have hall := hcodes further
        rw [hline, ← htake, hbody] at hall
        rw [structCodes, hall, Option.getD_some, leftOpen_append, leftOpen_append,
          leftOpen_enclosed _ (leftOpen_nonneg _ hcount) hinside hsum]
  · rfl

/-- A step that discards no header passes the code of its lines. -/
theorem Step.passes (h : Step s lines found t rest) (hfound : ∀ name, .noBrace name ∉ found) :
    ∃ passed outer, Passes s lines t rest passed outer := by
  cases h with
  | @skip raw below hfind =>
      refine ⟨[(s.line raw).code], [glyphs (s.line raw).code], rfl, outside_skip hfind, rfl, rfl,
        fun count _ => ?_⟩
      rw [List.flatMap_singleton, List.flatten_singleton]
  | discard _ _ => exact absurd List.mem_cons_self (hfound _)
  | @struct raw below rest h first hfind hopen =>
      obtain ⟨hcodes, hnumber⟩ := structCodes_append hopen
      refine ⟨_, aroundStruct s raw below h (Body.read first rest) ::
        List.replicate ((Body.read first rest).last.number - s.number) [], hcodes,
        outside_struct hfind hopen, hnumber, ?_, fun count hcount => ?_⟩
      · have hle := (Step.struct hfind hopen).number_lt
        have hbehind : (s.behind (Body.read first rest)).number =
          (Body.read first rest).last.number + 1 := rfl
        rw [List.length_cons, List.length_replicate]
        omega
      · rw [leftOpen_aroundStruct hfind hopen hcount, List.flatten_cons,
          List.flatten_replicate_nil, List.append_nil]

/-- A run that discards no header passes the code of its lines. -/
theorem Run.passes (h : Run s lines found t rest) :
    (∀ name, .noBrace name ∉ found) → ∃ passed outer, Passes s lines t rest passed outer := by
  induction h with
  | done => exact fun _ => ⟨[], [], rfl, rfl, rfl, rfl, fun _ _ => rfl⟩
  | step hstep _ ih =>
      intro hfound
      obtain ⟨passed, outer, hpasses⟩ :=
        hstep.passes fun name hmem => hfound name (List.mem_append_left _ hmem)
      obtain ⟨more, outerMore, hmore⟩ :=
        ih fun name hmem => hfound name (List.mem_append_right _ hmem)
      exact ⟨_, _, hpasses.trans hmore⟩

/-- A run comes to every line between its ends that is not inside of a struct. -/
theorem Run.exists_at (h : Run s lines found t rest) (number : Nat) :
    s.number ≤ number → number ≤ t.number →
      (∀ src, .struct src ∈ found →
        ¬ (src.headerLine < number ∧ number ≤ src.body.last.number)) →
      ∃ before u middle behind, found = before ++ behind ∧ u.number = number ∧
        Run s lines before u middle ∧ Run u middle behind t rest := by
  induction h with
  | done s lines =>
      intro hfrom hto _
      exact ⟨[], s, lines, [], rfl, Nat.le_antisymm hfrom hto, .done s lines, .done s lines⟩
  | @step s t u lines rest left found more hstep hrun ih =>
      intro hfrom hto hno
      rcases Nat.lt_or_ge number t.number with hlt | hge
      · -- inside of a step there is only its first line
        have hnumber : s.number = number := by
          cases hstep with
          | skip _ => exact Nat.le_antisymm hfrom (Nat.le_of_lt_succ hlt)
          | discard _ _ => exact Nat.le_antisymm hfrom (Nat.le_of_lt_succ hlt)
          | struct _ _ =>
              refine Nat.le_antisymm hfrom (Nat.le_of_not_lt fun hinside => ?_)
              exact hno _ (List.mem_append_left _ List.mem_cons_self)
                ⟨hinside, Nat.le_of_lt_succ hlt⟩
        exact ⟨[], s, lines, found ++ more, rfl, hnumber, .done s lines, .step hstep hrun⟩
      · obtain ⟨before, v, middle, behind, rfl, hv, hbefore, hbehind⟩ :=
          ih hge hto fun src hmem => hno src (List.mem_append_right _ hmem)
        exact ⟨found ++ before, v, middle, behind, (List.append_assoc _ _ _).symm, hv,
          .step hstep hbefore, hbehind⟩

end Document

end GoLayout
