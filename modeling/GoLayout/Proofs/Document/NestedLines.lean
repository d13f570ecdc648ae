import GoLayout.Proofs.Document.BodyLines

/-! # Nested bodies are opaque

    A line that starts in a nested body gives the fields nothing.  It counts for the brace depth
    and for the block comment that it leaves, and its length for the end of the region.  So any
    other line with the same effect can stand in its place (`declarations_nestedReplaced`), even
    one that looks like a header, a field or a tag.  The route:

    * reading comes to a line of a body in one way (`Body.ComesTo.eq_of_number_eq`) and to a line
      of the document in one struct (`Document.StartsNested.at_step`), so that a line which starts
      in a nested body does so wherever it is read;
    * a body that is read over replaced lines has the same parts and ends alike
      (`Body.readFrom_replaced`), since a line at depth one is never replaced and a nested one has
      no part (`CodeLine.Equivalent`);
    * from this one step (`Document.Step.replaced`) and a whole run (`Document.Run.replaced`) find
      the same declarations. -/

namespace GoLayout

open GoLayout.Bracket

/-! ## The lines that a body is read over -/

namespace Body

variable {depth depth' : Int} {l m : CodeLine} {raw : Text} {lines below left : List Text}

/-- Above a line at another depth than one no body ends that is not closed. -/
theorem endingAbove?_eq_none (hopen : (scanBraces l.code depth).2 = none)
    (hdepth : (scanBraces l.code depth).1 ≠ 1) (raw : Text) : endingAbove? depth l raw = none := by
  rw [endingAbove?, hopen, decide_eq_false hdepth]
  rfl

/-- Reading a body from a line at a depth on comes to another line at another depth. -/
inductive ComesTo : Int → CodeLine → List Text → Int → CodeLine → List Text → Prop where
  | here (depth : Int) (l : CodeLine) (lines : List Text) : ComesTo depth l lines depth l lines
  | next {depth depth' : Int} {l m : CodeLine} {raw : Text} {below left : List Text} :
      endingAbove? depth l raw = none →
      ComesTo (scanBraces l.code depth).1 (CodeLine.ofRaw (l.number + 1) raw l.inBlock) below
        depth' m left →
      ComesTo depth l (raw :: below) depth' m left

namespace ComesTo

/-- The next line. -/
theorem snoc (h : ComesTo depth l lines depth' m (raw :: left))
    (hnone : endingAbove? depth' m raw = none) :
    ComesTo depth l lines (scanBraces m.code depth').1
      (CodeLine.ofRaw (m.number + 1) raw m.inBlock) left := by
  generalize hleft : raw :: left = rest at h
  induction h with
  | here => subst hleft; exact .next hnone (.here _ _ _)
  | next hnone' _ ih => exact .next hnone' (ih hnone hleft)

theorem number_le (h : ComesTo depth l lines depth' m left) : l.number ≤ m.number := by
  induction h with
  | here => exact Nat.le_refl _
  | next _ _ ih => exact Nat.le_of_succ_le ih

/-- There is one way to come to a line. -/
theorem eq_of_number_eq {depth'' : Int} {m' : CodeLine} {left' : List Text}
    (h : ComesTo depth l lines depth' m left) :
    ComesTo depth l lines depth'' m' left' → m.number = m'.number →
      depth' = depth'' ∧ m = m' := by
  induction h with
  | here depth l lines =>
      intro h' hnumber
      -- with one of the two readings ahead of the other, the numbers would differ
      cases h' with
      | here => exact ⟨rfl, rfl⟩
      | next _ h' =>
          have hle : l.number + 1 ≤ m'.number := h'.number_le
          omega
  | @next depth depth' l m raw below left _ h ih =>
      intro h' hnumber
      cases h' with
      | here =>
          have hle : m'.number + 1 ≤ m.number := h.number_le
          omega
      | next _ h' => exact ih h' hnumber

/-- The lines that reading comes to belong to the body. -/
theorem number_le_last (h : ComesTo depth l lines depth' m left) :
    m.number ≤ (readFrom depth l lines).last.number := by
  induction h with
  | here depth l lines => exact Body.number_le_last depth l lines
  | next hnone _ ih => rw [readFrom_next hnone]; exact ih

end ComesTo

end Body

/-! ## Lines that start in a nested body -/

namespace Document

/-- From a state on some lines a struct is read, and the line with the given number starts in one
    of its nested bodies: the line above it leaves more than one brace open.  The depth and
    whether a block comment is open are what that line leaves. -/
def StepNested (s : ReadState) (lines : List Text) (number : Nat) (depth : Int) (isOpen : Bool) :
    Prop :=
  ∃ raw below header first rest depth' above next left, lines = raw :: below ∧
    Header.find? (s.group = 1) (s.line raw).code = some header ∧
    Body.opening? (header.rest (s.line raw)) below = some (first, rest) ∧
    Body.ComesTo 1 first rest depth' above (next :: left) ∧
    scanBraces above.code depth' = (depth, none) ∧ 1 < depth ∧
    above.number + 1 = number ∧ above.inBlock = isOpen

/-- The line of the document with the given number starts in a nested body of a struct, at the
    depth, and with or without an open block comment. -/
def StartsNested (source : Text) (number : Nat) (depth : Int) (isOpen : Bool) : Prop :=
  ∃ found s lines, Run .start (sourceLines source) found s lines ∧
    StepNested s lines number depth isOpen

variable {s t : ReadState} {lines rest : List Text} {found before : List Finding} {number : Nat}
  {depth : Int} {isOpen : Bool} {source : Text}

/-- The step that reads the struct. -/
theorem StepNested.exists_step (h : StepNested s lines number depth isOpen) :
    s.number < number ∧ ∃ found t rest, Step s lines found t rest ∧ number < t.number := by
  obtain ⟨raw, below, header, first, rest, depth', above, next, left, rfl, hfind, hopen, habove,
    hscan, hdepth, rfl, -⟩ := h
  have hfirst : s.number ≤ first.number := Body.number_le_opening? hopen
  have hnone : Body.endingAbove? depth' above next = none := by
    refine Body.endingAbove?_eq_none (congrArg Prod.snd hscan) ?_ next
    rw [hscan]
    exact Int.ne_of_gt hdepth
  have hnext := (habove.snoc hnone).number_le_last
  exact ⟨Nat.lt_succ_of_le (Nat.le_trans hfirst habove.number_le), _, _, _, .struct hfind hopen,
    Nat.lt_succ_of_le hnext⟩

/-- The line stands below one that reading the body comes to. -/
theorem StepNested.exists_above {raw : Text} {below rest : List Text} {header : Header}
    {first : CodeLine} (h : StepNested s (raw :: below) number depth isOpen)
    (hfind : Header.find? (s.group = 1) (s.line raw).code = some header)
    (hopen : Body.opening? (header.rest (s.line raw)) below = some (first, rest)) :
    ∃ depth' above left, Body.ComesTo 1 first rest depth' above left ∧
      scanBraces above.code depth' = (depth, none) ∧ 1 < depth ∧ above.number + 1 = number ∧
      above.inBlock = isOpen := by
  obtain ⟨raw', below', header', first', rest', depth', above, next, left, hlines, hfind', hopen',
    habove, hbehind⟩ := h
  obtain ⟨rfl, rfl⟩ := List.cons.inj hlines
  obtain rfl := Option.some.inj (hfind.symm.trans hfind')
  obtain ⟨rfl, rfl⟩ := Prod.mk.inj (Option.some.inj (hopen.symm.trans hopen'))
  exact ⟨depth', above, _, habove, hbehind⟩

/-- A line that starts in a nested body does so in the step that reads it or stops at it. -/
theorem StartsNested.at_step (h : StartsNested source number depth isOpen)
    (hrun : Run .start (sourceLines source) before s lines) (hstep : Step s lines found t rest)
    (hle : s.number ≤ number) (hle' : number ≤ t.number) :
    StepNested s lines number depth isOpen := by
  obtain ⟨found', s', lines', hrun', hnested⟩ := h
  obtain ⟨hlt, _, t', _, hstep', hlt'⟩ := hnested.exists_step
  -- of two runs from the start one goes on to the other, and then the step that is taken is the
  -- same
  rcases hrun.total hrun' with ⟨_, -, hmore⟩ | ⟨_, -, hmore⟩
  · cases hmore with
    | done => exact hnested
    | step hfirst hmore =>
        obtain ⟨-, rfl, rfl⟩ := hstep.deterministic hfirst
        have hnumber := hmore.number_le
        omega
  · cases hmore with
    | done => exact hnested
    | step hfirst hmore =>
        obtain ⟨-, rfl, rfl⟩ := hstep'.deterministic hfirst
        have hnumber := hmore.number_le
        omega

end Document

/-! ## Replaced lines -/

/-- At a depth, with or without an open block comment, the second line does what the first one
    does: it is as long, leaves the same depth, which is zero if it closes the struct, and leaves
    the same block comment open or none. -/
structure SameEffect (depth : Int) (isOpen : Bool) (raw raw' : Text) : Prop where
  length_eq : raw'.length = raw.length
  depth_eq : (scanBraces (Comment.strip raw' isOpen).1 depth).1 =
    (scanBraces (Comment.strip raw isOpen).1 depth).1
  inBlock_eq : (Comment.strip raw' isOpen).2 = (Comment.strip raw isOpen).2

/-- The line with the given number may be replaced by the other one: it is the same, or it starts
    in a nested body and the other one does what it does. -/
def MayReplace (source : Text) (number : Nat) (raw raw' : Text) : Prop :=
  raw' = raw ∨ ∃ depth isOpen, Document.StartsNested source number depth isOpen ∧
    SameEffect depth isOpen raw raw'

/-- Some lines are replaced by as many other ones, each line as it may be.  The first one has the
    given number. -/
inductive Replaced (source : Text) : Nat → List Text → List Text → Prop where
  | nil (number : Nat) : Replaced source number [] []
  | cons {number : Nat} {raw raw' : Text} {below below' : List Text} :
      MayReplace source number raw raw' → Replaced source (number + 1) below below' →
      Replaced source number (raw :: below) (raw' :: below')

/-- A document that is left alone is one of the replaced ones. -/
theorem Replaced.refl {source : Text} (number : Nat) (lines : List Text) :
    Replaced source number lines lines := by
  induction lines generalizing number with
  | nil => exact .nil number
  | cons raw below ih => exact .cons (.inl rfl) (ih (number + 1))

/-- To read a body on from the second line at a depth is to read it on from the first one. -/
structure CodeLine.Equivalent (depth : Int) (l l' : CodeLine) : Prop where
  number_eq : l'.number = l.number
  length_eq : l'.raw.length = l.raw.length
  inBlock_eq : l'.inBlock = l.inBlock
  depth_eq : (scanBraces l'.code depth).1 = (scanBraces l.code depth).1
  closes_eq : (scanBraces l'.code depth).2.isSome = (scanBraces l.code depth).2.isSome
  part_eq : Body.partOf depth l' (scanBraces l'.code depth).2 =
    Body.partOf depth l (scanBraces l.code depth).2

theorem CodeLine.Equivalent.refl (depth : Int) (l : CodeLine) : l.Equivalent depth l :=
  ⟨rfl, rfl, rfl, rfl, rfl, rfl⟩

/-- A nested line has no part in the fields, and closes the struct if the other one does. -/
theorem SameEffect.equivalent {depth : Int} {isOpen : Bool} {raw raw' : Text}
    (h : SameEffect depth isOpen raw raw') (hdepth : 1 < depth) (number : Nat) :
    (CodeLine.ofRaw number raw isOpen).Equivalent depth (CodeLine.ofRaw number raw' isOpen) := by
  have hpart : ∀ (l : CodeLine) close, Body.partOf depth l close = [] := fun l close =>
    if_neg (Int.ne_of_gt hdepth)
  refine ⟨rfl, h.length_eq, h.inBlock_eq, h.depth_eq, ?_, by rw [hpart, hpart]⟩
  rw [Bool.eq_iff_iff]
  have hiff := closing_isSome_iff (glyphs (Comment.strip raw isOpen).1) (Int.le_of_lt hdepth)
  have hiff' := closing_isSome_iff (glyphs (Comment.strip raw' isOpen).1) (Int.le_of_lt hdepth)
  exact hiff'.trans ((Eq.congr_left h.depth_eq).trans hiff.symm)

/-- Below a line of a body a line may be replaced by the other one: it is the same, or the line
    above it leaves it in a nested body and the other one does what it does. -/
def CodeLine.MayReplaceBelow (depth : Int) (l : CodeLine) (raw raw' : Text) : Prop :=
  raw' = raw ∨ ∃ behind, scanBraces l.code depth = (behind, none) ∧ 1 < behind ∧
    SameEffect behind l.inBlock raw raw'

namespace CodeLine.MayReplaceBelow

variable {depth : Int} {l l' : CodeLine} {raw raw' : Text}

/-- The next lines are equivalent. -/
theorem equivalent (h : l.MayReplaceBelow depth raw raw') (hl : l.Equivalent depth l') :
    (ofRaw (l.number + 1) raw l.inBlock).Equivalent (scanBraces l.code depth).1
      (ofRaw (l'.number + 1) raw' l'.inBlock) := by
  rw [hl.number_eq, hl.inBlock_eq]
  rcases h with rfl | ⟨behind, hscan, hlt, heffect⟩
  · exact .refl _ _
  · rw [hscan]
    exact heffect.equivalent hlt _

/-- A body ends above the one line as it does above the other one: no header counts in a nested
    body. -/
theorem endingAbove?_eq (h : l.MayReplaceBelow depth raw raw') (hl : l.Equivalent depth l') :
    Body.endingAbove? depth l' raw' = Body.endingAbove? depth l raw := by
  rcases h with rfl | ⟨behind, hscan, hlt, -⟩
  · rw [Body.endingAbove?, Body.endingAbove?, hl.closes_eq, hl.depth_eq, hl.number_eq,
      hl.inBlock_eq]
  · have hnone : (scanBraces l'.code depth).2 = none := by
      refine Option.not_isSome_iff_eq_none.mp ?_
      rw [hl.closes_eq, hscan]
      exact Bool.false_ne_true
    have hne := Int.ne_of_gt hlt
    rw [Body.endingAbove?_eq_none hnone (by rw [hl.depth_eq, hscan]; exact hne),
      Body.endingAbove?_eq_none (congrArg Prod.snd hscan) (by rw [hscan]; exact hne)]

end CodeLine.MayReplaceBelow

namespace Body

/-- The two bodies give a struct the same fields, ending and region, and reading goes on behind
    them in the same state. -/
structure Equivalent (b b' : Body) : Prop where
  parts_eq : b'.parts = b.parts
  ending_eq : b'.ending = b.ending
  number_eq : b'.last.number = b.last.number
  length_eq : b'.last.raw.length = b.last.raw.length
  inBlock_eq : b'.last.inBlock = b.last.inBlock

variable {source : Text} {first l l' : CodeLine} {rest lines lines' : List Text} {depth : Int}
  {number : Nat}

/-- A line in front of the bodies. -/
theorem Equivalent.prepend {b b' : Body} (h : b.Equivalent b') (hl : l.Equivalent depth l') :
    Equivalent { b with parts := partOf depth l (scanBraces l.code depth).2 ++ b.parts }
      { b' with parts := partOf depth l' (scanBraces l'.code depth).2 ++ b'.parts } := by
  refine ⟨?_, h.ending_eq, h.number_eq, h.length_eq, h.inBlock_eq⟩
  dsimp only
  rw [hl.part_eq, h.parts_eq]

/-- A body is equivalent over replaced lines, if each line of it is replaced as the line above it
    allows. -/
theorem readFrom_replaced
    (hbody : ∀ depth l left raw raw', ComesTo 1 first rest depth l left →
      MayReplace source (l.number + 1) raw raw' → l.MayReplaceBelow depth raw raw')
    (lines : List Text) :
    ∀ {depth l l' lines'}, ComesTo 1 first rest depth l lines → l.Equivalent depth l' →
      Replaced source (l.number + 1) lines lines' →
      (readFrom depth l lines).Equivalent (readFrom depth l' lines') ∧
        Replaced source ((readFrom depth l lines).last.number + 1) (readFrom depth l lines).below
          (readFrom depth l' lines').below := by
  induction lines with
  | nil =>
      intro depth l l' lines' _ hl hlines
      cases hlines with
      | nil =>
          refine ⟨⟨hl.part_eq, ?_, hl.number_eq, hl.length_eq, hl.inBlock_eq⟩, .nil _⟩
          rw [readFrom, readFrom]
          dsimp only
          rw [hl.closes_eq]
  | cons raw below ih =>
      intro depth l l' lines' hcomes hl hlines
      cases hlines with
      | @cons _ _ raw' _ below' hraw hbelow =>
          have hallowed := hbody depth l _ raw raw' hcomes hraw
          have hending := hallowed.endingAbove?_eq hl
          -- the body ends above the next line in both readings, or in neither
          cases hends : endingAbove? depth l raw with
          | some ending =>
              rw [hends] at hending
              rw [readFrom_ends hends, readFrom_ends hending]
              exact ⟨⟨hl.part_eq, rfl, hl.number_eq, hl.length_eq, hl.inBlock_eq⟩,
                .cons hraw hbelow⟩
          | none =>
              rw [hends] at hending
              rw [readFrom_next hends, readFrom_next hending, hl.depth_eq]
              obtain ⟨hmore, hreplaced⟩ := ih (hcomes.snoc hends) (hallowed.equivalent hl) hbelow
              exact ⟨hmore.prepend hl, hreplaced⟩

/-- The opening brace is found again, if no line down to it is replaced. -/
theorem openingBelow?_replaced (lines : List Text) :
    ∀ {number : Nat} {inBlock : Bool} {lines' : List Text},
      openingBelow? number inBlock lines = some (first, rest) →
      Replaced source number lines lines' →
      (∀ n raw raw', number ≤ n → n ≤ first.number → MayReplace source n raw raw' → raw' = raw) →
      ∃ rest', openingBelow? number inBlock lines' = some (first, rest') ∧
        Replaced source (first.number + 1) rest rest' := by
  induction lines with
  | nil => intro number inBlock lines' hopen; exact nomatch hopen
  | cons raw below ih =>
      intro number inBlock lines' hopen hlines hsame
      obtain ⟨skipped, hnumber, -⟩ := openingBelow?_opensOn _ hopen
      have hle : number ≤ first.number := by omega
      cases hlines with
      | @cons _ _ raw' _ below' hraw hbelow =>
          obtain rfl := hsame number raw raw' (Nat.le_refl _) hle hraw
          rw [openingBelow?] at hopen ⊢
          split at hopen
          · next l hbrace =>
            obtain ⟨rfl, rfl⟩ := Prod.mk.inj (Option.some.inj hopen)
            obtain ⟨_, -, rfl⟩ := Option.map_eq_some_iff.mp hbrace
            exact ⟨below', rfl, hbelow⟩
          · exact ih hopen hbelow fun n raw raw' hn => hsame n raw raw' (Nat.le_of_succ_le hn)

theorem opening?_replaced (hopen : opening? l lines = some (first, rest))
    (hlines : Replaced source (l.number + 1) lines lines')
    (hsame : ∀ n raw raw', l.number < n → n ≤ first.number → MayReplace source n raw raw' →
      raw' = raw) :
    ∃ rest', opening? l lines' = some (first, rest') ∧
      Replaced source (first.number + 1) rest rest' := by
  rw [opening?] at hopen ⊢
  split at hopen
  · obtain ⟨rfl, rfl⟩ := Prod.mk.inj (Option.some.inj hopen)
    next hbrace =>
    obtain ⟨_, -, rfl⟩ := Option.map_eq_some_iff.mp hbrace
    exact ⟨lines', rfl, hlines⟩
  · exact openingBelow?_replaced lines hopen hlines hsame

end Body

/-! ## Steps and runs -/

section

variable {s t : ReadState} {raw raw' next : Text} {below rest lines left : List Text}
  {found before : List Finding} {header : Header} {first l : CodeLine} {source : Text}
  {number : Nat} {depth : Int}

/-- What a step reads or stops at is replaced in the nested bodies of its own struct only. -/
theorem MayReplace.at_step (h : MayReplace source number raw raw')
    (hrun : Document.Run .start (sourceLines source) before s lines)
    (hstep : Document.Step s lines found t rest) (hle : s.number ≤ number)
    (hle' : number ≤ t.number) :
    raw' = raw ∨ ∃ depth isOpen, Document.StepNested s lines number depth isOpen ∧
      SameEffect depth isOpen raw raw' := by
  refine h.imp_right ?_
  rintro ⟨depth, isOpen, hnested, heffect⟩
  exact ⟨depth, isOpen, hnested.at_step hrun hstep hle hle', heffect⟩

/-- The line that a step starts with is not replaced. -/
theorem MayReplace.eq_of_step (h : MayReplace source s.number raw raw')
    (hrun : Document.Run .start (sourceLines source) before s lines)
    (hstep : Document.Step s lines found t rest) : raw' = raw := by
  refine (h.at_step hrun hstep (Nat.le_refl _) (Nat.le_of_lt hstep.number_lt)).resolve_right ?_
  rintro ⟨depth, isOpen, hnested, -⟩
  exact absurd hnested.exists_step.1 (Nat.lt_irrefl _)

/-- No line down to the opening brace of a struct is replaced. -/
theorem MayReplace.eq_of_opening? (h : MayReplace source number raw raw')
    (hrun : Document.Run .start (sourceLines source) before s (next :: below))
    (hfind : Header.find? (s.group = 1) (s.line next).code = some header)
    (hopen : Body.opening? (header.rest (s.line next)) below = some (first, rest))
    (hle : s.number ≤ number) (hle' : number ≤ first.number) : raw' = raw := by
  have hlast : first.number ≤ (Body.read first rest).last.number :=
    Body.number_le_last 1 first rest
  refine (h.at_step hrun (.struct hfind hopen) hle
    (Nat.le_succ_of_le (Nat.le_trans hle' hlast))).resolve_right ?_
  rintro ⟨depth, isOpen, hnested, -⟩
  obtain ⟨_, above, _, habove, -, -, hnumber, -⟩ := hnested.exists_above hfind hopen
  have hfirst := habove.number_le
  omega

/-- In the body of a struct a line is replaced as the line above it allows. -/
theorem MayReplace.of_comesTo (h : MayReplace source (l.number + 1) raw raw')
    (hrun : Document.Run .start (sourceLines source) before s (next :: below))
    (hfind : Header.find? (s.group = 1) (s.line next).code = some header)
    (hopen : Body.opening? (header.rest (s.line next)) below = some (first, rest))
    (hcomes : Body.ComesTo 1 first rest depth l left) : l.MayReplaceBelow depth raw raw' := by
  have hle : s.number ≤ first.number := Body.number_le_opening? hopen
  have hle' := hcomes.number_le
  refine (h.at_step hrun (.struct hfind hopen) (by omega)
    (Nat.succ_le_succ hcomes.number_le_last)).imp_right ?_
  rintro ⟨behind, isOpen, hnested, heffect⟩
  obtain ⟨depth', above, _, habove, hscan, hlt, hnumber, rfl⟩ := hnested.exists_above hfind hopen
  obtain ⟨rfl, rfl⟩ := habove.eq_of_number_eq hcomes (Nat.succ.inj hnumber)
  exact ⟨behind, hscan, hlt, heffect⟩

end

/-- Equivalent bodies make the same declaration. -/
theorem Body.Equivalent.declaration_eq {b b' : Body} (h : b.Equivalent b') (number : Nat)
    (name : Text) (column : Nat) (allNames : Bool) :
    StructSource.declaration allNames ⟨number, name, column, b'⟩ =
      StructSource.declaration allNames ⟨number, name, column, b⟩ := by
  simp only [StructSource.declaration, StructSource.fields_eq, StructSource.span, h.parts_eq,
    h.ending_eq, h.number_eq, h.length_eq]

/-- Behind equivalent bodies reading goes on in one state. -/
theorem Body.Equivalent.behind_eq {b b' : Body} (h : b.Equivalent b') (s : ReadState) :
    s.behind b' = s.behind b := by
  rw [ReadState.behind, ReadState.behind, h.number_eq, h.inBlock_eq]

namespace Document

variable {s t : ReadState} {lines lines' rest : List Text} {found before : List Finding}
  {source : Text}

/-- What is found declares the same. -/
def SameDeclarations (found found' : List Finding) : Prop :=
  ∀ allNames, found'.filterMap (Finding.declaration? allNames) =
    found.filterMap (Finding.declaration? allNames)

/-- A step that discards no header finds the same in replaced lines. -/
theorem Step.replaced (h : Step s lines found t rest)
    (hrun : Run .start (sourceLines source) before s lines)
    (hfound : ∀ name, .noBrace name ∉ found) (hlines : Replaced source s.number lines lines') :
    ∃ found' rest', Step s lines' found' t rest' ∧ SameDeclarations found found' ∧
      Replaced source t.number rest rest' := by
  cases hlines with
  | nil => exact nomatch h
  | @cons _ raw raw' below below' hraw hbelow =>
      obtain rfl := hraw.eq_of_step hrun h
      -- lines without a header and header lines stay as they are, and only a body can have other
      -- lines
      cases h with
      | discard _ _ => exact absurd List.mem_cons_self (hfound _)
      | skip hfind => exact ⟨[], below', .skip hfind, fun _ => rfl, hbelow⟩
      | @struct _ _ rest header first hfind hopen =>
          obtain ⟨rest', hopen', hrest⟩ := Body.opening?_replaced hopen hbelow
            fun n raw raw' hlt hle hraw =>
              hraw.eq_of_opening? hrun hfind hopen (Nat.le_of_lt hlt) hle
          obtain ⟨hbody, hreplaced⟩ := Body.readFrom_replaced
            (fun _ _ _ _ _ hcomes hraw => hraw.of_comesTo hrun hfind hopen hcomes) rest
            (.here _ _ _) (.refl 1 first) hrest
          change (Body.read first rest).Equivalent (Body.read first rest') at hbody
          have hstep := Step.struct hfind hopen'
          rw [hbody.behind_eq s] at hstep
          refine ⟨_, _, hstep, fun allNames => ?_, hreplaced⟩
          exact congrArg (fun d => [d]) (hbody.declaration_eq _ _ _ allNames)

/-- A run that discards no header finds the same in replaced lines. -/
theorem Run.replaced (h : Run s lines found t rest) :
    ∀ {before lines'}, Run .start (sourceLines source) before s lines →
      (∀ name, .noBrace name ∉ found) → Replaced source s.number lines lines' →
      ∃ found' rest', Run s lines' found' t rest' ∧ SameDeclarations found found' ∧
        Replaced source t.number rest rest' := by
  -- along the steps: declarations are the same, and the lines that are left are replaced ones
  induction h with
  | done s lines =>
      intro before lines' _ _ hlines
      exact ⟨[], lines', .done s lines', fun _ => rfl, hlines⟩
  | step hstep _ ih =>
      intro before lines' hrun hfound hlines
      obtain ⟨found', lines'', hstep', hsame, hmore⟩ :=
        hstep.replaced hrun (fun name hmem => hfound name (List.mem_append_left _ hmem)) hlines
      obtain ⟨more', rest', hrun', hsame', hrest⟩ := ih (hrun.trans (.step hstep (.done _ _)))
        (fun name hmem => hfound name (List.mem_append_right _ hmem)) hmore
      refine ⟨_, rest', .step hstep' hrun', fun allNames => ?_, hrest⟩
      rw [List.filterMap_append, List.filterMap_append, hsame, hsame']

end Document

/-- Where no header is discarded, lines that start in nested bodies can be replaced by other ones
    with the same effect: the declarations are the same. -/
theorem declarations_nestedReplaced (allNames : Bool) {source source' : Text}
    (hfound : ∀ name, .noBrace name ∉ Document.findings source)
    (hlines : Replaced source 0 (sourceLines source) (sourceLines source')) :
    Document.declarations allNames source' = Document.declarations allNames source := by
  obtain ⟨found', rest', hrun, hsame, hrest⟩ :=
    (Document.scan_run .start (sourceLines source)).replaced (.done _ _) hfound hlines
  cases hrest with
  | nil =>
      have hscan := hrun.scan_eq
      rw [Document.scan_nil, List.append_nil] at hscan
      rw [Document.declarations, Document.findings, hscan]
      exact hsame allNames

/-- A struct with a nested one. -/
def nestedMap : Text :=
  "type S struct \x7b\n\tf struct \x7b\n\t\tx map[string]T\n\t\x7d\n\tb bool\n\x7d"

/-- The field of the nested struct is replaced by a header. -/
def nestedHeader : Text :=
  "type S struct \x7b\n\tf struct \x7b\ntype T struct \x7b\x7d\n\t\x7d\n\tb bool\n\x7d"

theorem sourceLines_nestedMap : sourceLines nestedMap = "type S struct \x7b".toList ::
    ["\tf struct \x7b".toList, "\t\tx map[string]T".toList, "\t\x7d".toList, "\tb bool".toList,
      ['}']] := by decide +kernel

/-- The third line of the example is nested. -/
theorem startsNested_nestedMap : Document.StartsNested nestedMap 2 2 false :=
  ⟨[], .start, _, .done _ _, _, _, ⟨"S struct \x7b".toList, ['S'], " \x7b".toList⟩,
    ⟨0, "type S struct \x7b".toList, 15, [], false⟩, _, 1,
    CodeLine.ofRaw 1 "\tf struct \x7b".toList false, "\t\tx map[string]T".toList,
    ["\t\x7d".toList, "\tb bool".toList, ['}']], sourceLines_nestedMap, by decide +kernel,
    by decide +kernel, .next (by decide +kernel) (.here _ _ _), by decide +kernel, by decide, rfl,
    rfl⟩

/-- A field of a nested struct may become a header without a change to what is declared. -/
theorem declarations_nestedReplaced_header : nestedHeader ≠ nestedMap ∧
    Document.declarations true nestedHeader = Document.declarations true nestedMap := by
  have hdeclared : ∀ f ∈ Document.findings nestedMap, (f.declaration? true).isSome = true := by
    decide +kernel
  have hlines : sourceLines nestedHeader = "type S struct \x7b".toList ::
      ["\tf struct \x7b".toList, "type T struct \x7b\x7d".toList, "\t\x7d".toList,
        "\tb bool".toList, ['}']] := by decide +kernel
  have heffect : SameEffect 2 false "\t\tx map[string]T".toList "type T struct \x7b\x7d".toList :=
    ⟨by decide +kernel, by decide +kernel, by decide +kernel⟩
  refine ⟨by decide +kernel, declarations_nestedReplaced true (fun name hmem => ?_) ?_⟩
  · exact nomatch hdeclared _ hmem
  · rw [sourceLines_nestedMap, hlines]
    refine .cons (.inl rfl) (.cons (.inl rfl) (.cons ?_ (.refl _ _)))
    exact .inr ⟨2, false, startsNested_nestedMap, heffect⟩

end GoLayout
