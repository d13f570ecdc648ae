import GoLayout.Proofs.Document.Struct

/-! # Reading step by step

    Reading a document is a run of steps: a line is skipped, a header without a brace is
    discarded, or a struct is read.  What holds of a document is proved of one step and from it
    of a whole run:

    * `Document.scan` is the run over all lines (`scan_run`), and whatever it finds is found by
      one step of it (`Run.exists_step`, `exists_reading`);
    * reading stands where it says it does (`Run.standsAt`), and a line that it stops on is a
      line of the document (`CodeLine.StandsIn.opening?`,
      `CodeLine.StandsIn.readFrom`);
    * there is one way to read, so that of two runs one goes on where the other stops
      (`Run.total`). -/

namespace GoLayout

/-! ## Where reading stands -/

/-- The lines from the one with the given number on are the given ones. -/
def StandsAt (doc : List Text) (number : Nat) (lines : List Text) : Prop :=
  ∃ above, doc = above ++ lines ∧ above.length = number

namespace StandsAt

variable {doc lines below : List Text} {number : Nat} {raw : Text}

theorem start (doc : List Text) : StandsAt doc 0 doc := ⟨[], rfl, rfl⟩

/-- The lines below the first one start one number further down. -/
theorem next (h : StandsAt doc number (raw :: below)) : StandsAt doc (number + 1) below := by
  obtain ⟨above, hdoc, rfl⟩ := h
  refine ⟨above ++ [raw], ?_, List.length_append⟩
  rw [hdoc, List.append_assoc]
  rfl

theorem getElem? (h : StandsAt doc number (raw :: below)) : doc[number]? = some raw := by
  obtain ⟨above, rfl, rfl⟩ := h
  rw [List.getElem?_append_right (Nat.le_refl _), Nat.sub_self]
  rfl

theorem take (h : StandsAt doc number (raw :: below)) :
    doc.take (number + 1) = doc.take number ++ [raw] := by
  rw [List.take_add_one, h.getElem?]
  rfl

/-- Where no lines are left, the number is that of all lines. -/
theorem number_eq (h : StandsAt doc number []) : number = doc.length := by
  obtain ⟨above, hdoc, rfl⟩ := h
  rw [hdoc, List.append_nil]

end StandsAt

namespace Body

variable {P Q : CodeLine → List Text → Prop}

/-- What follows for the line behind a brace from something that holds of a line with those below
    it, and of every next line, holds behind the brace that is found. -/
theorem openingBelow?_induct
    (hnext : ∀ l raw below, P l (raw :: below) →
      P (CodeLine.ofRaw (l.number + 1) raw l.inBlock) below)
    (hbrace : ∀ l l' below, P l below → l.afterBrace? = some l' → Q l' below)
    {first : CodeLine} {rest : List Text} (lines : List Text) :
    ∀ l : CodeLine, P l lines →
      openingBelow? (l.number + 1) l.inBlock lines = some (first, rest) → Q first rest := by
  induction lines with
  | nil => intro l _ hopen; exact nomatch hopen
  | cons raw below ih =>
      intro l hl hopen
      have hraw := hnext l raw below hl
      rw [openingBelow?] at hopen
      split at hopen
      · next l' hl' =>
        obtain ⟨rfl, rfl⟩ := Prod.mk.inj (Option.some.inj hopen)
        exact hbrace _ _ _ hraw hl'
      · exact ih _ hraw hopen

/-- What holds of a header line, and is carried along the lines below it, holds where the brace is
    found. -/
theorem opening?_induct
    (hnext : ∀ l raw below, P l (raw :: below) →
      P (CodeLine.ofRaw (l.number + 1) raw l.inBlock) below)
    (hbrace : ∀ l l' below, P l below → l.afterBrace? = some l' → Q l' below)
    {l first : CodeLine} {lines rest : List Text} (hl : P l lines)
    (hopen : opening? l lines = some (first, rest)) : Q first rest := by
  rw [opening?] at hopen
  split at hopen
  · next l' hl' =>
    obtain ⟨rfl, rfl⟩ := Prod.mk.inj (Option.some.inj hopen)
    exact hbrace _ _ _ hl hl'
  · exact openingBelow?_induct hnext hbrace lines l hl hopen

section

variable {depth : Int} {l : CodeLine} {raw : Text} {below : List Text}

/-- How a body ends on a line above another one, if it does. -/
def endingAbove? (depth : Int) (l : CodeLine) (raw : Text) : Option Ending :=
  if (Bracket.scanBraces l.code depth).2.isSome then some .closed
  else if (Bracket.scanBraces l.code depth).1 = 1 &&
      (Header.leading? (CodeLine.ofRaw (l.number + 1) raw l.inBlock).code).isSome then
    some .beforeHeader
  else none

/-- A body ends above a line where the line before closes it or the line itself starts a
    declaration. -/
theorem readFrom_ends {ending : Ending} (h : endingAbove? depth l raw = some ending) :
    readFrom depth l (raw :: below) =
      ⟨partOf depth l (Bracket.scanBraces l.code depth).2, ending, l, raw :: below⟩ := by
  rw [endingAbove?] at h
  rw [readFrom]
  dsimp only
  split at h
  · next hclosed =>
    obtain rfl := Option.some.inj h
    rw [if_pos hclosed]
  · next hopen =>
    split at h
    · next hheader =>
      obtain rfl := Option.some.inj h
      rw [if_neg hopen, if_pos hheader]
    · cases h

/-- Otherwise the line belongs to the body. -/
theorem readFrom_next (h : endingAbove? depth l raw = none) :
    readFrom depth l (raw :: below) =
      { readFrom (Bracket.scanBraces l.code depth).1
          (CodeLine.ofRaw (l.number + 1) raw l.inBlock) below with
        parts := partOf depth l (Bracket.scanBraces l.code depth).2 ++
          (readFrom (Bracket.scanBraces l.code depth).1
            (CodeLine.ofRaw (l.number + 1) raw l.inBlock) below).parts } := by
  rw [endingAbove?] at h
  rw [readFrom]
  dsimp only
  split at h
  · cases h
  · next hopen =>
    split at h
    · cases h
    · next hnone => rw [if_neg hopen, if_neg hnone]

end

/-- What holds of a line with those below it, and of every next line, holds of the last line of
    a body. -/
theorem readFrom_induct
    (hnext : ∀ l raw below, P l (raw :: below) →
      P (CodeLine.ofRaw (l.number + 1) raw l.inBlock) below) (lines : List Text) :
    ∀ (depth : Int) (l : CodeLine), P l lines →
      P (readFrom depth l lines).last (readFrom depth l lines).below := by
  induction lines with
  | nil => intro depth l hl; exact hl
  | cons raw below ih =>
      intro depth l hl
      cases hends : endingAbove? depth l raw with
      | some ending => rw [readFrom_ends hends]; exact hl
      | none => rw [readFrom_next hends]; exact ih _ _ (hnext l raw below hl)

/-- What holds of a line with those below it, and of every next line, holds of each line that
    gives the body a part. -/
theorem readFrom_parts_induct
    (hnext : ∀ l raw below, P l (raw :: below) →
      P (CodeLine.ofRaw (l.number + 1) raw l.inBlock) below) (lines : List Text) :
    ∀ (depth : Int) (l : CodeLine), P l lines → ∀ part ∈ (readFrom depth l lines).parts,
      ∃ depth' m below, P m below ∧
        part ∈ partOf depth' m (Bracket.scanBraces m.code depth').2 := by
  induction lines with
  | nil => intro depth l hl part hpart; exact ⟨depth, l, [], hl, hpart⟩
  | cons raw below ih =>
      intro depth l hl part hpart
      -- the parts are those of this line, and of the lines below if the body goes on
      cases hends : endingAbove? depth l raw with
      | some ending =>
          rw [readFrom_ends hends] at hpart
          exact ⟨depth, l, _, hl, hpart⟩
      | none =>
          rw [readFrom_next hends] at hpart
          rcases List.mem_append.mp hpart with hpart | hpart
          · exact ⟨depth, l, _, hl, hpart⟩
          · exact ih _ _ (hnext l raw below hl) part hpart

/-- The brace stands on the header line or below it. -/
theorem number_le_opening? {l first : CodeLine} {lines rest : List Text}
    (hopen : opening? l lines = some (first, rest)) : l.number ≤ first.number :=
  opening?_induct (P := fun m _ => l.number ≤ m.number) (Q := fun m _ => l.number ≤ m.number)
    (fun _ _ _ hm => Nat.le_succ_of_le hm)
    (fun _ _ _ hm hbrace => by
      obtain ⟨_, -, rfl⟩ := Option.map_eq_some_iff.mp hbrace
      exact hm)
    (Nat.le_refl _) hopen

theorem number_le_last (depth : Int) (l : CodeLine) (lines : List Text) :
    l.number ≤ (readFrom depth l lines).last.number :=
  readFrom_induct (P := fun m _ => l.number ≤ m.number) (fun _ _ _ hm => Nat.le_succ_of_le hm)
    lines depth l (Nat.le_refl _)

end Body

/-- The line is one of the document, and the given lines are those below it. -/
def CodeLine.StandsIn (doc : List Text) (l : CodeLine) (below : List Text) : Prop :=
  StandsAt doc l.number (l.raw :: below)

namespace CodeLine.StandsIn

variable {doc below lines rest : List Text} {l first : CodeLine}

theorem next (raw : Text) (h : l.StandsIn doc (raw :: below)) :
    (CodeLine.ofRaw (l.number + 1) raw l.inBlock).StandsIn doc below := StandsAt.next h

/-- The rest of a line stands where the line does. -/
theorem afterBrace? {l' : CodeLine} (h : l.StandsIn doc below) (hl : l.afterBrace? = some l') :
    l'.StandsIn doc below := by
  obtain ⟨_, -, rfl⟩ := Option.map_eq_some_iff.mp hl
  exact h

/-- The line with the opening brace. -/
theorem opening? (h : l.StandsIn doc lines) (hopen : Body.opening? l lines = some (first, rest)) :
    first.StandsIn doc rest :=
  Body.opening?_induct (P := fun l below => l.StandsIn doc below)
    (fun _ raw _ hl => hl.next raw) (fun _ _ _ hl hbrace => hl.afterBrace? hbrace) h hopen

/-- The last line of a body. -/
theorem readFrom (depth : Int) (h : l.StandsIn doc lines) :
    (Body.readFrom depth l lines).last.StandsIn doc (Body.readFrom depth l lines).below :=
  Body.readFrom_induct (P := fun l below => l.StandsIn doc below)
    (fun _ raw _ hl => hl.next raw) lines depth l h

end CodeLine.StandsIn

/-! ## Steps and runs -/

/-- The line that reading comes to. -/
def ReadState.line (s : ReadState) (raw : Text) : CodeLine :=
  CodeLine.ofRaw s.number raw s.inBlock

namespace Document

/-- One step of reading: from a state and the lines that are left, what is found, and the state
    and the lines behind it. -/
inductive Step : ReadState → List Text → List Finding → ReadState → List Text → Prop where
  | skip {s : ReadState} {raw : Text} {below : List Text} :
      Header.find? (s.group = 1) (s.line raw).code = none →
      Step s (raw :: below) [] (s.skip (s.line raw)) below
  | discard {s : ReadState} {raw : Text} {below : List Text} {h : Header} :
      Header.find? (s.group = 1) (s.line raw).code = some h →
      Body.opening? (h.rest (s.line raw)) below = none →
      Step s (raw :: below) [.noBrace h.name] s.discard below
  | struct {s : ReadState} {raw : Text} {below rest : List Text} {h : Header} {first : CodeLine} :
      Header.find? (s.group = 1) (s.line raw).code = some h →
      Body.opening? (h.rest (s.line raw)) below = some (first, rest) →
      Step s (raw :: below)
        [.struct ⟨s.number, h.name, h.nameColumn (s.line raw).code, Body.read first rest⟩]
        (s.behind (Body.read first rest)) (Body.read first rest).below

/-- Steps one after the other, and all that they find. -/
inductive Run : ReadState → List Text → List Finding → ReadState → List Text → Prop where
  | done (s : ReadState) (lines : List Text) : Run s lines [] s lines
  | step {s t u : ReadState} {lines rest left : List Text} {found more : List Finding} :
      Step s lines found t rest → Run t rest more u left → Run s lines (found ++ more) u left

variable {s t u : ReadState} {lines rest left doc : List Text} {found : List Finding}

/-- A line without a header is skipped, and any other one is the start of a discarded header or
    of a struct. -/
theorem exists_step (s : ReadState) (raw : Text) (below : List Text) :
    ∃ found t rest, Step s (raw :: below) found t rest := by
  cases hfind : Header.find? (s.group = 1) (s.line raw).code with
  | none => exact ⟨_, _, _, .skip hfind⟩
  | some h =>
      cases hopen : Body.opening? (h.rest (s.line raw)) below with
      | none => exact ⟨_, _, _, .discard hfind hopen⟩
      | some found => exact ⟨_, _, _, .struct hfind hopen⟩

/-- A header without a brace is reported, and reading goes on below its line. -/
theorem scan_discard {raw : Text} {below : List Text} {h : Header}
    (hfind : Header.find? (s.group = 1) (s.line raw).code = some h)
    (hopen : Body.opening? (h.rest (s.line raw)) below = none) :
    scan s (raw :: below) =
      (.noBrace h.name :: (scan s.discard below).1, (scan s.discard below).2) := by
  rw [scan]
  dsimp only
  split
  · next hnone => rw [ReadState.line, hnone] at hfind; cases hfind
  · next h' hsome =>
    obtain rfl : h = h' := Option.some.inj (hfind.symm.trans hsome)
    split
    · rfl
    · next hsome' => rw [ReadState.line, hsome'] at hopen; cases hopen

/-- The scan goes on where the step stops. -/
theorem Step.scan_eq (h : Step s lines found t rest) :
    scan s lines = (found ++ (scan t rest).1, (scan t rest).2) := by
  cases h with
  | skip hfind => exact scan_skip _ hfind
  | discard hfind hopen => exact scan_discard hfind hopen
  | struct hfind hopen => exact scan_header hfind hopen

/-- Every step takes at least one line. -/
theorem Step.length_lt (h : Step s lines found t rest) : rest.length < lines.length := by
  cases h with
  | skip _ => exact Nat.lt_succ_self _
  | discard _ _ => exact Nat.lt_succ_self _
  | struct _ hopen =>
      refine Nat.lt_succ_of_le (Nat.le_trans ?_ (Body.opening?_length hopen))
      exact Body.readFrom_below_length 1 _ _

theorem scan_nil (s : ReadState) : scan s [] = ([], s) := by rw [scan]

/-- A scan is a run over all lines. -/
theorem scan_run (s : ReadState) (lines : List Text) :
    Run s lines (scan s lines).1 (scan s lines).2 [] := by
  induction hlen : lines.length using Nat.strongRecOn generalizing s lines with
  | ind n ih =>
      subst hlen
      cases lines with
      | nil =>
          rw [scan_nil]
          exact .done s []
      | cons raw below =>
          obtain ⟨found, t, rest, hstep⟩ := exists_step s raw below
          rw [hstep.scan_eq]
          exact .step hstep (ih _ hstep.length_lt t rest rfl)

/-- Two runs, of which the second goes on where the first one ends, are one. -/
theorem Run.trans {more : List Finding} (h : Run s lines found t rest)
    (h' : Run t rest more u left) : Run s lines (found ++ more) u left := by
  induction h with
  | done => exact h'
  | step hstep _ ih =>
      rw [List.append_assoc]
      exact .step hstep (ih h')

/-- The scan goes on where the run stops. -/
theorem Run.scan_eq (h : Run s lines found t rest) :
    scan s lines = (found ++ (scan t rest).1, (scan t rest).2) := by
  induction h with
  | done => rfl
  | step hstep _ ih => rw [hstep.scan_eq, ih, List.append_assoc]

/-- What a run finds, one of its steps finds, behind a run that finds what comes before. -/
theorem Run.exists_step {f : Finding} {behind : List Finding} (h : Run s lines found t rest) :
    ∀ {before}, found = before ++ f :: behind →
      ∃ u middle v left, Run s lines before u middle ∧ Step u middle [f] v left := by
  induction h with
  | done => intro before hnil; cases before <;> exact nomatch hnil
  | @step s t u lines rest left found more hstep _ ih =>
      intro before hfound
      -- a step finds one thing at most: it is the one in question or stands before it
      have hsplit : found = [] ∨ ∃ g, found = [g] := by
        cases hstep with
        | skip _ => exact .inl rfl
        | discard _ _ => exact .inr ⟨_, rfl⟩
        | struct _ _ => exact .inr ⟨_, rfl⟩
      rcases hsplit with rfl | ⟨g, rfl⟩
      · obtain ⟨u, middle, v, left, hbefore, hf⟩ := ih hfound
        exact ⟨u, middle, v, left, .step hstep hbefore, hf⟩
      · cases before with
        | nil =>
            obtain ⟨rfl, -⟩ := List.cons.inj hfound
            exact ⟨s, lines, t, rest, .done s lines, hstep⟩
        | cons g' before =>
            obtain ⟨rfl, hmore⟩ := List.cons.inj hfound
            obtain ⟨u, middle, v, left, hbefore, hf⟩ := ih hmore
            exact ⟨u, middle, v, left, .step hstep hbefore, hf⟩

/-! ## A run stands in its document -/

theorem Step.standsAt (h : Step s lines found t rest) (hs : StandsAt doc s.number lines) :
    StandsAt doc t.number rest := by
  cases h with
  | skip _ => exact hs.next
  | discard _ _ => exact hs.next
  | @struct raw below rest h first _ hopen =>
      have hline : (h.rest (s.line raw)).StandsIn doc below := hs
      exact StandsAt.next ((hline.opening? hopen).readFrom 1)

/-- Along a run the number of the state is that of the next line. -/
theorem Run.standsAt (h : Run s lines found t rest) (hs : StandsAt doc s.number lines) :
    StandsAt doc t.number rest := by
  induction h with
  | done => exact hs
  | step hstep _ ih => exact ih (hstep.standsAt hs)

/-- A step goes on further down. -/
theorem Step.number_lt (h : Step s lines found t rest) : s.number < t.number := by
  cases h with
  | skip _ => exact Nat.lt_succ_self _
  | discard _ _ => exact Nat.lt_succ_self _
  | @struct raw below rest h first _ hopen =>
      have hfirst : s.number ≤ first.number := Body.number_le_opening? hopen
      exact Nat.lt_succ_of_le (Nat.le_trans hfirst (Body.number_le_last 1 first rest))

theorem Run.number_le (h : Run s lines found t rest) : s.number ≤ t.number := by
  induction h with
  | done => exact Nat.le_refl _
  | step hstep _ ih => exact Nat.le_trans (Nat.le_of_lt hstep.number_lt) ih

/-- A scan ends behind the last line. -/
theorem scan_number (doc : List Text) : (scan .start doc).2.number = doc.length :=
  ((scan_run .start doc).standsAt (StandsAt.start doc)).number_eq

/-! ## There is one way to read -/

theorem Step.deterministic {found' : List Finding} {t' : ReadState} {rest' : List Text}
    (h : Step s lines found t rest) (h' : Step s lines found' t' rest') :
    found = found' ∧ t = t' ∧ rest = rest' := by
  cases h with
  | skip hfind =>
      -- whether there is a header, and a brace behind it, is decided by the lines
      cases h' with
      | skip _ => exact ⟨rfl, rfl, rfl⟩
      | discard hfind' _ => rw [hfind] at hfind'; exact nomatch hfind'
      | struct hfind' _ => rw [hfind] at hfind'; exact nomatch hfind'
  | discard hfind hopen =>
      cases h' with
      | skip hfind' => rw [hfind] at hfind'; exact nomatch hfind'
      | discard hfind' _ =>
          obtain rfl := Option.some.inj (hfind.symm.trans hfind')
          exact ⟨rfl, rfl, rfl⟩
      | struct hfind' hopen' =>
          obtain rfl := Option.some.inj (hfind.symm.trans hfind')
          rw [hopen] at hopen'
          exact nomatch hopen'
  | struct hfind hopen =>
      cases h' with
      | skip hfind' => rw [hfind] at hfind'; exact nomatch hfind'
      | discard hfind' hopen' =>
          obtain rfl := Option.some.inj (hfind.symm.trans hfind')
          rw [hopen] at hopen'
          exact nomatch hopen'
      | struct hfind' hopen' =>
          obtain rfl := Option.some.inj (hfind.symm.trans hfind')
          obtain ⟨rfl, rfl⟩ := Prod.mk.inj (Option.some.inj (hopen.symm.trans hopen'))
          exact ⟨rfl, rfl, rfl⟩

/-- Of two runs one goes on where the other stops. -/
theorem Run.total {found' : List Finding} {t' : ReadState} {rest' : List Text}
    (h : Run s lines found t rest) :
    Run s lines found' t' rest' → (∃ more, found' = found ++ more ∧ Run t rest more t' rest') ∨
      ∃ more, found = found' ++ more ∧ Run t' rest' more t rest := by
  induction h generalizing found' with
  | done => intro h'; exact .inl ⟨found', rfl, h'⟩
  | @step s t u lines rest left found more hstep hrun ih =>
      intro h'
      cases h' with
      | done => exact .inr ⟨_, rfl, .step hstep hrun⟩
      | step hstep' hrun' =>
          obtain ⟨rfl, rfl, rfl⟩ := hstep.deterministic hstep'
          rcases ih hrun' with ⟨more', rfl, hmore⟩ | ⟨more', rfl, hmore⟩
          · exact .inl ⟨more', (List.append_assoc _ _ _).symm, hmore⟩
          · exact .inr ⟨more', (List.append_assoc _ _ _).symm, hmore⟩

/-- A run that goes no further down has no step. -/
theorem Run.eq_of_number_le (h : Run s lines found t rest) (hle : t.number ≤ s.number) :
    s = t ∧ lines = rest := by
  cases h with
  | done => exact ⟨rfl, rfl⟩
  | step hstep hrun => exact absurd (Nat.lt_of_lt_of_le hstep.number_lt hrun.number_le) (by omega)

/-- Reading comes to each line in one state. -/
theorem Run.eq_of_number_eq {found' : List Finding} {t' : ReadState} {rest' : List Text}
    (h : Run s lines found t rest) (h' : Run s lines found' t' rest')
    (hnumber : t.number = t'.number) : t = t' ∧ rest = rest' := by
  rcases h.total h' with ⟨_, -, hmore⟩ | ⟨_, -, hmore⟩
  · exact hmore.eq_of_number_le hnumber.ge
  · obtain ⟨rfl, rfl⟩ := hmore.eq_of_number_le hnumber.le
    exact ⟨rfl, rfl⟩

/-! ## The structs of a document -/

/-- The structs of a document in the order of their headers. -/
def structs (source : Text) : List StructSource :=
  (findings source).filterMap fun
    | .struct s => some s
    | .noBrace _ => none

/-- The declarations are those of the structs that are found. -/
theorem declarations_eq_map (allNames : Bool) (source : Text) :
    declarations allNames source = (structs source).map (StructSource.declaration allNames) := by
  rw [declarations, structs, List.map_filterMap]
  refine List.filterMap_congr fun f _ => ?_
  cases f with
  | struct s => rfl
  | noBrace name => rfl

/-- Every struct is read from a header that reading comes to. -/
theorem exists_reading {source : Text} {s : StructSource} (h : s ∈ structs source) :
    ∃ found t raw below header first rest, Run .start (sourceLines source) found t (raw :: below) ∧
      Header.find? (t.group = 1) (t.line raw).code = some header ∧
      Body.opening? (header.rest (t.line raw)) below = some (first, rest) ∧
      s = ⟨t.number, header.name, header.nameColumn (t.line raw).code, Body.read first rest⟩ := by
  obtain ⟨f, hf, hstruct⟩ := List.mem_filterMap.mp h
  cases f with
  | noBrace name => exact nomatch hstruct
  | struct s' =>
      obtain rfl := Option.some.inj hstruct
      obtain ⟨before, behind, hsplit⟩ := List.append_of_mem hf
      obtain ⟨t, lines, u, left, hrun, hstep⟩ :=
        (scan_run .start (sourceLines source)).exists_step hsplit
      cases hstep with
      | struct hfind hopen => exact ⟨_, _, _, _, _, _, _, hrun, hfind, hopen, rfl⟩

end Document

/-- The runs of the struct, the one that is open at its end included. -/
def StructSource.fieldRuns (s : StructSource) : List FieldRun := s.runs.1 ++ s.runs.2.toList

end GoLayout
