import GoLayout.Proofs.Document.FieldRun
import GoLayout.Proofs.FieldLine.NamesInOrder
import GoLayout.Proofs.Source.Segment

/-! # Where runs lie on their lines

    Every run starts with a segment of a line, and the segments of a line follow each other with
    a semicolon in between.  What the lines fed so far have led to is kept by the next one
    (`OpenRun.Keeps`, `OpenRun.Keeps.feed`) and so by all lines of a body
    (`OpenRun.Keeps.feedAll`):

    * each run, the open one included, lies on one of the lines (`FieldRun.LiesIn`);
    * the runs stand in order, those on one line with a column between them;
    * the open run starts with a segment in which a bracket opens (`Segment.cut_getLast?`), so
      that the text of the lines below has no part in the names of the run. -/

namespace GoLayout

open Text

/-- The text is a part of the code of the line from the column on, and no word goes on beyond
    its ends. -/
def CodeAt (line : Text) (column : Nat) (part : Text) : Prop :=
  ∃ before behind, KeepsWords line (before ++ (part ++ behind)) ∧ before.length = column ∧
    endsInWord before = false ∧ startsInWord behind = false

/-- The text is a part of the code from the column on, and no word goes on beyond its ends. -/
def PartAt (code : Text) (column : Nat) (part : Text) : Prop :=
  ∃ before behind, code = before ++ (part ++ behind) ∧ before.length = column ∧
    endsInWord before = false ∧ startsInWord behind = false

/-- A part of a part. -/
theorem CodeAt.part {line a part b : Text} {column : Nat}
    (h : CodeAt line column (a ++ (part ++ b))) (ha : endsInWord a = false)
    (hb : startsInWord b = false) : CodeAt line (column + a.length) part := by
  obtain ⟨before, behind, hkeeps, rfl, hbefore, hbehind⟩ := h
  refine ⟨before ++ a, b ++ behind, ?_, List.length_append, endsInWord_append hbefore ha,
    startsInWord_append hb hbehind⟩
  simp only [List.append_assoc] at hkeeps ⊢
  exact hkeeps

/-- A part of a part stands behind what is in front of it, unless the cut divides a word. -/
theorem PartAt.part {code a part b : Text} {column : Nat}
    (h : PartAt code column (a ++ (part ++ b))) (ha : endsInWord a = false)
    (hb : startsInWord b = false) : PartAt code (column + a.length) part := by
  obtain ⟨before, behind, rfl, rfl, hbefore, hbehind⟩ := h
  refine ⟨before ++ a, b ++ behind, ?_, List.length_append, endsInWord_append hbefore ha,
    startsInWord_append hb hbehind⟩
  simp only [List.append_assoc]

/-! ## Segments -/

namespace Segment

/-- Segments are placed from the start on. -/
theorem le_start_of_mem_place {s : Segment} (ts : List Text) :
    ∀ {start : Nat}, s ∈ place start ts → start ≤ s.start := by
  induction ts with
  | nil => intro start hs; exact nomatch hs
  | cons t ts ih =>
      intro start hs
      rcases List.mem_cons.mp hs with rfl | hmem
      · exact Nat.le_refl _
      · have hle := ih hmem
        omega

/-- Between two segments of a line there is a column. -/
theorem place_pairwise (ts : List Text) :
    ∀ start : Nat, (place start ts).Pairwise fun s s' => s.start + s.text.length < s'.start := by
  induction ts with
  | nil => intro start; exact .nil
  | cons t ts ih =>
      intro start
      refine .cons (fun s' hs' => ?_) (ih _)
      exact Nat.lt_of_succ_le (le_start_of_mem_place ts hs')

/-- With no bracket open one character can only open one. -/
theorem next_brackets {n : Nesting} {g : Glyph} (h : n.brackets = 0) :
    (n.next g).brackets = 0 ∨ isOpening g.char = true := by
  unfold Nesting.next
  split
  · next hopen =>
    right
    simp only [Glyph.isLive, Bool.or_eq_true, Bool.and_eq_true] at hopen
    rw [isOpening, Bool.or_comm, Bool.or_eq_true]
    exact hopen.imp And.right And.right
  · left
    split
    · show max (n.brackets - 1) 0 = 0
      omega
    · split
      · exact h
      · split
        · exact h
        · exact h

/-- Where a bracket is left open that was not open at the start of the last segment, it opens in
    that segment. -/
theorem cut_getLast? (gs : List Glyph) :
    ∀ n : Nesting, (n.brackets = 0 ∨ 2 ≤ (cut n gs).1.length) → 0 < (cut n gs).2.brackets →
      ∀ t ∈ (cut n gs).1.getLast?, ∃ c ∈ t, isOpening c = true := by
  induction gs with
  | nil =>
      intro n hn hopen
      rcases hn with h0 | hlen
      · have h : 0 < n.brackets := hopen
        omega
      · exact absurd hlen (show ¬ 2 ≤ 1 by decide)
  | cons g gs ih =>
      intro n hn hopen t ht
      rw [cut] at hn hopen ht
      split at ht
      · next hdivides =>
        -- a semicolon divides only where no bracket is open
        have h0 : n.brackets = 0 := by
          rw [Nesting.divides, Bool.and_eq_true, Bool.and_eq_true, beq_iff_eq] at hdivides
          exact hdivides.1.2
        rw [if_pos hdivides] at hopen
        dsimp only at ht hopen
        rw [List.getLast?_cons_of_ne_nil (cut_ne_nil n gs)] at ht
        exact ih n (.inl h0) hopen t ht
      · next hdivides =>
        rw [if_neg hdivides] at hn hopen
        dsimp only at hn ht hopen
        cases hcut : (cut (n.next g) gs).1 with
        | nil => exact absurd hcut (cut_ne_nil _ gs)
        | cons u us =>
            have hih := ih (n.next g)
            rw [hcut] at hn ht hih
            cases us with
            | cons v vs =>
                exact hih (.inr (Nat.le_add_left 2 _)) hopen t ht
            | nil =>
                obtain rfl := Option.mem_some_iff.mp ht
                have h0 := hn.resolve_right (show ¬ 2 ≤ 1 by decide)
                rcases next_brackets h0 with hnext | hchar
                · obtain ⟨c, hc, hc'⟩ := hih (.inl hnext) hopen u rfl
                  exact ⟨c, List.mem_cons_of_mem _ hc, hc'⟩
                · exact ⟨g.char, List.mem_cons_self, hchar⟩

end Segment

/-! ## Runs -/

/-- The code of the line stands where it is said to. -/
def CodeLine.Sits (l : CodeLine) : Prop := CodeAt l.raw l.column l.code

namespace FieldRun

/-- The first segment of the run. -/
def head (r : FieldRun) : Text := r.parts.headD []

/-- A bracket opens in the first segment. -/
def Opens (r : FieldRun) : Prop := ∃ c ∈ r.head, isOpening c = true

/-- The run starts with a segment of the line, which is all of it unless a bracket opens there. -/
structure LiesIn (l : CodeLine) (r : FieldRun) : Prop where
  line_eq : r.line = l.number
  raw_eq : r.raw = l.raw
  codeAt : CodeAt l.raw r.column r.head
  partAt : ∃ column, r.column = l.column + column ∧ PartAt l.code column r.head
  parts_ne_nil : r.parts ≠ []
  whole_or_opens : r.parts = [r.head] ∨ r.Opens

/-- The first run starts further up, or on the same line with a column between the two. -/
def Precedes (r r' : FieldRun) : Prop :=
  r.line < r'.line ∨ r.line = r'.line ∧ r.column + r.head.length < r'.column

/-- The run with more segments. -/
def more (r : FieldRun) (parts : List Text) : FieldRun := { r with parts := r.parts ++ parts }

/-- A run that goes on keeps its first segment. -/
theorem head_more {r : FieldRun} (h : r.parts ≠ []) (parts : List Text) :
    (r.more parts).head = r.head := by
  obtain ⟨line, raw, column, segments⟩ := r
  cases segments with
  | nil => exact absurd rfl h
  | cons t ts => rfl

theorem Opens.more {r : FieldRun} (h : r.Opens) (hne : r.parts ≠ []) (parts : List Text) :
    (r.more parts).Opens := by
  rw [Opens, head_more hne parts]
  exact h

/-- A run that goes on lies where it started. -/
theorem LiesIn.more {l : CodeLine} {r : FieldRun} (h : r.LiesIn l) (hopens : r.Opens)
    (parts : List Text) : (r.more parts).LiesIn l := by
  refine ⟨h.line_eq, h.raw_eq, ?_, ?_, List.append_ne_nil_of_left_ne_nil h.parts_ne_nil parts,
    .inr (hopens.more h.parts_ne_nil parts)⟩
  · rw [head_more h.parts_ne_nil parts]
    exact h.codeAt
  · rw [head_more h.parts_ne_nil parts]
    exact h.partAt

end FieldRun

namespace OpenRun

variable {l : CodeLine} {brackets : Int}

/-- The runs of a line lie on it. -/
theorem liesIn_of_mem_runsOf (h : l.Sits) {r : FieldRun} (hr : r ∈ runsOf brackets l) :
    r.LiesIn l := by
  obtain ⟨s, hs, rfl⟩ := List.mem_map.mp hr
  obtain ⟨a, b, hjoin, hstart, ha, hb⟩ := Segment.exists_of_mem_place _ hs
  -- the segments and the semicolons between them make up the code of the line
  have hcode : l.code = a ++ (s.text ++ b) := by
    rw [← hjoin, Segment.joinWith_cut]
    exact (map_char_glyphsFrom _ l.code).symm
  have hpart : CodeAt l.raw (l.column + a.length) s.text := by
    rw [CodeLine.Sits, hcode] at h
    exact h.part ha hb
  rw [Nat.zero_add] at hstart
  refine ⟨rfl, rfl, ?_, ⟨s.start, rfl, a, b, hcode, hstart.symm, ha, hb⟩, List.cons_ne_nil _ _,
    .inl rfl⟩
  show CodeAt l.raw (l.column + s.start) s.text
  rw [hstart]
  exact hpart

/-- The runs of a line stand behind each other. -/
theorem runsOf_pairwise (brackets : Int) (l : CodeLine) :
    (runsOf brackets l).Pairwise FieldRun.Precedes := by
  refine List.pairwise_map.mpr ((Segment.place_pairwise _ 0).imp ?_)
  intro s s' hlt
  refine .inr ⟨rfl, ?_⟩
  show l.column + s.start + s.text.length < l.column + s'.start
  omega

/-- The first segments of the runs of a line are all of its segments. -/
theorem runsOf_map_head (brackets : Int) (l : CodeLine) :
    (runsOf brackets l).map FieldRun.head = (Segment.cut ⟨brackets, 0⟩ (glyphs l.code)).1 := by
  rw [runsOf, List.map_map]
  exact Segment.place_map_text 0 _

/-- A bracket that is open behind the line and was not in front of its last run opens there. -/
theorem opens_of_getLast?_runsOf (hstart : brackets = 0 ∨ 2 ≤ (runsOf brackets l).length)
    (hopen : 0 < bracketsBehind brackets l) {r : FieldRun}
    (hr : r ∈ (runsOf brackets l).getLast?) : r.Opens := by
  have hlen : (Segment.cut ⟨brackets, 0⟩ (glyphs l.code)).1.length =
      (runsOf brackets l).length := by
    rw [← runsOf_map_head, List.length_map]
  refine Segment.cut_getLast? (glyphs l.code) ⟨brackets, 0⟩ (by rw [hlen]; exact hstart) hopen
    r.head ?_
  rw [← runsOf_map_head, List.getLast?_map, hr]
  rfl

/-- What a line completes and what it leaves open are all of its runs. -/
theorem allRuns_settle (brackets : Int) (runs : List FieldRun) :
    allRuns (settle brackets runs) = runs := by
  rw [settle]
  split
  · cases runs using List.reverseRecOn with
    | nil => rfl
    | append_singleton runs r =>
        rw [List.dropLast_concat, List.getLast?_concat]
        rfl
  · exact List.append_nil runs

/-- The runs lie on the lines in order, above the line with the given number. -/
structure InOrder (lines : List CodeLine) (bound : Nat) (runs : List FieldRun) : Prop where
  liesIn : ∀ r ∈ runs, ∃ l ∈ lines, r.LiesIn l
  ordered : runs.Pairwise FieldRun.Precedes
  line_lt : ∀ r ∈ runs, r.line < bound

variable {lines : List CodeLine} {bound : Nat} {runs done : List FieldRun} {s : OpenRun}

/-- The runs of the next line. -/
theorem InOrder.append (h : InOrder lines bound runs) {new : List FieldRun} (hl : l ∈ lines)
    (hbound : bound ≤ l.number) (hnew : ∀ r ∈ new, r.LiesIn l)
    (hordered : new.Pairwise FieldRun.Precedes) : InOrder lines (l.number + 1) (runs ++ new) := by
  refine ⟨fun r hr => ?_, ?_, fun r hr => ?_⟩
  · rcases List.mem_append.mp hr with hr | hr
    · exact h.liesIn r hr
    · exact ⟨l, hl, hnew r hr⟩
  · refine List.pairwise_append.mpr ⟨h.ordered, hordered, fun r hr r' hr' => .inl ?_⟩
    have hlt := h.line_lt r hr
    have heq := (hnew r' hr').line_eq
    omega
  · rcases List.mem_append.mp hr with hr | hr
    · have hlt := h.line_lt r hr
      omega
    · have heq := (hnew r hr).line_eq
      omega

/-- More segments leave the last run where it is. -/
theorem InOrder.more {p : FieldRun} (h : InOrder lines bound (runs ++ [p])) (hopens : p.Opens)
    (parts : List Text) : InOrder lines bound (runs ++ [p.more parts]) := by
  have hp : p ∈ runs ++ [p] := List.mem_append_right _ List.mem_cons_self
  obtain ⟨hordered, -, hprecedes⟩ := List.pairwise_append.mp h.ordered
  refine ⟨fun r hr => ?_, ?_, fun r hr => ?_⟩
  · -- only the last run is another one, and it stands where it stood
    rcases List.mem_append.mp hr with hr | hr
    · exact h.liesIn r (List.mem_append_left _ hr)
    · obtain ⟨l, hl, hlies⟩ := h.liesIn p hp
      rw [List.mem_singleton.mp hr]
      exact ⟨l, hl, hlies.more hopens parts⟩
  · refine List.pairwise_append.mpr ⟨hordered, List.pairwise_singleton _ _, fun r hr r' hr' => ?_⟩
    rw [List.mem_singleton.mp hr']
    exact hprecedes r hr p List.mem_cons_self
  · rcases List.mem_append.mp hr with hr | hr
    · exact h.line_lt r (List.mem_append_left _ hr)
    · rw [List.mem_singleton.mp hr]
      exact h.line_lt p hp

/-- What lines that were fed have led to: the completed runs and the open one. -/
structure Keeps (lines : List CodeLine) (bound : Nat) (done : List FieldRun) (s : OpenRun) :
    Prop where
  rested : s.Rested
  opens : ∀ r ∈ s.pending, r.Opens
  inOrder : InOrder lines bound (done ++ s.pending.toList)

theorem Keeps.start (lines : List CodeLine) (bound : Nat) : Keeps lines bound [] .start :=
  ⟨start_rested, nofun, nofun, .nil, nofun⟩

/-- Runs in order are kept as they are completed or left open. -/
theorem Keeps.settle (h : InOrder lines bound (done ++ runs))
    (hrested : (settle brackets runs).2.Rested)
    (hopens : 0 < brackets → ∀ r ∈ runs.getLast?, r.Opens) :
    Keeps lines bound (done ++ (OpenRun.settle brackets runs).1)
      (OpenRun.settle brackets runs).2 := by
  refine ⟨hrested, fun r hr => ?_, ?_⟩
  · -- only a bracket that is open leaves a run, and that run is the last one
    rw [OpenRun.settle] at hr
    split at hr
    · next hopen => exact hopens hopen r hr
    · cases hr
  · have hall := allRuns_settle brackets runs
    rw [allRuns] at hall
    rw [List.append_assoc, hall]
    exact h

/-- A line completes runs and leaves one open where a bracket is. -/
theorem Keeps.feed (h : Keeps lines bound done s) (hl : l ∈ lines) (hsits : l.Sits)
    (hbound : bound ≤ l.number) :
    Keeps lines (l.number + 1) (done ++ (s.feed l).1) (s.feed l).2 := by
  have hrested := feed_rested h.rested l
  have hruns : ∀ r ∈ runsOf s.brackets l, r.LiesIn l := fun r hr => liesIn_of_mem_runsOf hsits hr
  have hordered := runsOf_pairwise s.brackets l
  rw [feed_eq] at hrested ⊢
  obtain ⟨b, pending⟩ := s
  cases pending with
  | none =>
      -- nothing is open, so that the line only adds its own runs
      have hextend : (OpenRun.mk b none).extend (runsOf b l) = runsOf b l := by
        cases runsOf b l with
        | nil => rfl
        | cons first rest => rfl
      have hinOrder := h.inOrder
      dsimp only at hrested hruns hordered hinOrder ⊢
      rw [Option.toList_none, List.append_nil] at hinOrder
      rw [hextend] at hrested ⊢
      exact Keeps.settle (hinOrder.append hl hbound hruns hordered) hrested fun hopen r hr =>
        opens_of_getLast?_runsOf (.inl (h.rested.pending_iff.mp rfl)) hopen hr
  | some p =>
      -- the first segment of the line goes on with the open run, which stays where it is
      have hopens := h.opens p rfl
      have hinOrder : InOrder lines bound (done ++ [p]) := h.inOrder
      obtain ⟨_, -, hp⟩ := hinOrder.liesIn p (List.mem_append_right _ List.mem_cons_self)
      have hlast := fun hmore hopen r hr => @opens_of_getLast?_runsOf l b (.inr hmore) hopen r hr
      dsimp only at hrested hruns hordered ⊢
      cases hnew : runsOf b l with
      | nil => exact absurd hnew (runsOf_ne_nil b l)
      | cons first rest =>
          rw [hnew] at hrested hruns hordered hlast
          have hkept : InOrder lines (l.number + 1) (done ++ p.more first.parts :: rest) := by
            rw [List.append_cons]
            exact (hinOrder.more hopens first.parts).append hl hbound
              (fun r hr => hruns r (List.mem_cons_of_mem _ hr)) hordered.of_cons
          refine Keeps.settle hkept hrested fun hopen r hr => ?_
          cases rest with
          | nil =>
              rw [← Option.mem_some_iff.mp hr]
              exact FieldRun.Opens.more hopens hp.parts_ne_nil first.parts
          | cons next rest => exact hlast (Nat.le_add_left 2 _) hopen r hr

/-- What the lines of a body lead to. -/
theorem Keeps.feedAll (ls : List CodeLine) :
    ∀ {bound : Nat} {done : List FieldRun} {s : OpenRun}, Keeps lines bound done s →
      (∀ l ∈ ls, l ∈ lines ∧ l.Sits ∧ bound ≤ l.number) → ls.Pairwise (·.number < ·.number) →
      ∃ bound, Keeps lines bound (done ++ (s.feedAll ls).1) (s.feedAll ls).2 := by
  induction ls with
  | nil =>
      intro bound done s h _ _
      exact ⟨bound, (List.append_nil done).symm ▸ h⟩
  | cons l ls ih =>
      intro bound done s h hls hpairwise
      obtain ⟨hfirst, hrest⟩ := List.pairwise_cons.mp hpairwise
      obtain ⟨hl, hsits, hbound⟩ := hls l List.mem_cons_self
      have hfeed := h.feed hl hsits hbound
      obtain ⟨bound', hkeeps⟩ := ih hfeed (fun m hm => by
        obtain ⟨hm', hsits', -⟩ := hls m (List.mem_cons_of_mem _ hm)
        exact ⟨hm', hsits', hfirst m hm⟩) hrest
      rw [List.append_assoc] at hkeeps
      exact ⟨bound', hkeeps⟩

end OpenRun

end GoLayout
