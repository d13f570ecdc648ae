import GoLayout.Document.Basic
import GoLayout.Proofs.Document.Body
import GoLayout.Proofs.FieldLine.Tag

/-! # Runs of segments, line by line

    What the lines of a body hand on to each other is an `OpenRun`.  The facts that the
    theorems about bodies need:

    * feeding lines composes (`feedAll_append`);
    * a run is open exactly while a bracket is (`feedAll_rested`);
    * the run that is still open at the end is read as it would be without joining its segments
      (`StructSource.fields_eq`);
    * blank code completes one run without a field (`feed_allBlank`);
    * line numbers are carried along and never looked at (`feedAll_shift`, `fields_shift`),
      and the runs stand on lines that were fed (`feedAll_standsOn`). -/

namespace GoLayout

/-! ## The text of a run -/

namespace FieldRun

/-- The run with another text as its only part. -/
def withText (r : FieldRun) (t : Text) : FieldRun := { r with parts := [t] }

/-- Names are placed on the line of a run, whatever its text is. -/
theorem placeNames_withText (r : FieldRun) (t type : Text) (names : List Text) :
    ∀ column, (r.withText t).placeNames type column names = r.placeNames type column names := by
  induction names with
  | nil => exact fun _ => rfl
  | cons name names ih =>
      intro column
      rw [placeNames, placeNames, ih]
      rfl

/-- A text that is read like that of the run gives the same fields. -/
theorem fields_withText (r : FieldRun) {t : Text}
    (h : FieldLine.classify t = FieldLine.classify r.text) (allNames : Bool) :
    (r.withText t).fields allNames = r.fields allNames := by
  have htext : (r.withText t).text = t := rfl
  rw [fields, fields, htext, h]
  cases FieldLine.classify r.text with
  | none => rfl
  | some l => exact placeNames_withText r t l.type _ r.column

/-- The joined segments of a run are its text but for outer blanks: those of a single segment. -/
theorem joined_eq (r : FieldRun) : r.joined = r.text ∨ r.joined = Text.trim r.text := by
  obtain ⟨line, raw, column, parts⟩ := r
  match parts with
  | [] => exact .inl rfl
  | [part] =>
      right
      show Text.joinWith [' '] ([Text.trim part].filter (!·.isEmpty)) = Text.trim part
      -- a blank segment is left out, and its text without blanks is empty as well
      cases Text.trim part with
      | nil => rfl
      | cons c t => rfl
  | _ :: _ :: _ => exact .inl rfl

/-- A run that is read at the end, while it is open, has the fields that it has otherwise. -/
theorem fields_flush (r : FieldRun) (allNames : Bool) :
    r.flush.fields allNames = r.fields allNames := by
  refine fields_withText r ?_ allNames
  rcases r.joined_eq with h | h
  · rw [h]
  · rw [h, FieldLine.classify_trim]

/-- What is reported of such a run is the same as well. -/
theorem records_flush (r : FieldRun) : r.flush.records = r.records := by
  have htext : r.flush.text = r.joined := rfl
  rw [records, records, htext]
  rcases r.joined_eq with h | h
  · rw [h]
    rfl
  · rw [h, Text.isBlankText_trim, FieldLine.classify_trim, FieldLine.records_trim, Text.trim_trim]
    rfl

end FieldRun

/-! ## Moving down -/

/-- The line some lines further down. -/
def CodeLine.shift (k : Nat) (l : CodeLine) : CodeLine := { l with number := l.number + k }

/-- The field some lines further down. -/
def Field.shift (k : Nat) (f : Field) : Field :=
  { f with location := { f.location with line := f.location.line + k } }

namespace FieldRun

/-- The run some lines further down. -/
def shift (k : Nat) (r : FieldRun) : FieldRun := { r with line := r.line + k }

theorem placeNames_shift (k : Nat) (r : FieldRun) (type : Text) (names : List Text) :
    ∀ column, (r.shift k).placeNames type column names =
      (r.placeNames type column names).map (Field.shift k) := by
  induction names with
  | nil => intro column; rfl
  | cons name names ih =>
      intro column
      show _ :: (r.shift k).placeNames type _ names = _ :: _
      rw [ih]
      rfl

/-- The fields of a run further down are its fields further down. -/
theorem fields_shift (allNames : Bool) (k : Nat) (r : FieldRun) :
    (r.shift k).fields allNames = (r.fields allNames).map (Field.shift k) := by
  have htext : (r.shift k).text = r.text := rfl
  rw [fields, fields, htext]
  cases FieldLine.classify r.text with
  | none => rfl
  | some l => exact placeNames_shift k r l.type _ r.column

theorem mem_placeNames_line {r : FieldRun} {type : Text} {names : List Text} {f : Field} :
    ∀ {column}, f ∈ r.placeNames type column names → f.location.line = r.line := by
  induction names with
  | nil => intro column hf; exact nomatch hf
  | cons name names ih =>
      intro column hf
      rcases List.mem_cons.mp hf with rfl | hmem
      · rfl
      · exact ih hmem

/-- Every field of a run stands on the line of the run. -/
theorem mem_fields_line {allNames : Bool} {r : FieldRun} {f : Field}
    (hf : f ∈ r.fields allNames) : f.location.line = r.line := by
  rw [fields] at hf
  cases hc : FieldLine.classify r.text with
  | none => rw [hc] at hf; exact nomatch hf
  | some l => rw [hc] at hf; exact mem_placeNames_line hf

theorem fields_of_allBlank {allNames : Bool} {r : FieldRun} (h : Text.AllBlank r.text) :
    r.fields allNames = [] := by
  have hnone : FieldLine.ofClean? [] = none := by decide +kernel
  rw [fields, FieldLine.classify, Tag.strip_of_allBlank h, hnone]

end FieldRun

namespace OpenRun

/-- The open run some lines further down. -/
def shift (k : Nat) (s : OpenRun) : OpenRun :=
  { s with pending := s.pending.map (FieldRun.shift k) }

theorem extend_shift (k : Nat) (s : OpenRun) (runs : List FieldRun) :
    (s.shift k).extend (runs.map (FieldRun.shift k)) =
      (s.extend runs).map (FieldRun.shift k) := by
  obtain ⟨brackets, pending⟩ := s
  cases runs with
  | nil => cases pending <;> rfl
  | cons first more => cases pending <;> rfl

/-- The runs of a line as they are completed or left open by the depth at its end. -/
def settle (brackets : Int) (runs : List FieldRun) : List FieldRun × OpenRun :=
  if brackets > 0 then (runs.dropLast, ⟨brackets, runs.getLast?⟩) else (runs, ⟨brackets, none⟩)

/-- The depth of brackets behind a line. -/
def bracketsBehind (brackets : Int) (l : CodeLine) : Int := (Segment.split l.code brackets).2

/-- The runs that the segments of a line start. -/
def runsOf (brackets : Int) (l : CodeLine) : List FieldRun :=
  (Segment.split l.code brackets).1.map (FieldRun.ofSegment l)

/-- A line is cut, its first segment goes on with the open run, and the depth at its end settles
    what is open. -/
theorem feed_eq (s : OpenRun) (l : CodeLine) :
    s.feed l = settle (bracketsBehind s.brackets l) (s.extend (runsOf s.brackets l)) := rfl

theorem feedAll_cons (s : OpenRun) (l : CodeLine) (ls : List CodeLine) :
    s.feedAll (l :: ls) =
      ((s.feed l).1 ++ ((s.feed l).2.feedAll ls).1, ((s.feed l).2.feedAll ls).2) := rfl

/-- Lines are fed one after the other. -/
theorem feedAll_append (a b : List CodeLine) :
    ∀ s : OpenRun, s.feedAll (a ++ b) =
      ((s.feedAll a).1 ++ ((s.feedAll a).2.feedAll b).1, ((s.feedAll a).2.feedAll b).2) := by
  induction a with
  | nil => intro s; rfl
  | cons l a ih =>
      intro s
      rw [List.cons_append, feedAll_cons, ih, feedAll_cons, List.append_assoc]

theorem settle_shift (k : Nat) (brackets : Int) (runs : List FieldRun) :
    settle brackets (runs.map (FieldRun.shift k)) =
      ((settle brackets runs).1.map (FieldRun.shift k), (settle brackets runs).2.shift k) := by
  rw [settle, settle]
  by_cases hopen : brackets > 0
  · rw [if_pos hopen, if_pos hopen, ← List.map_dropLast, List.getLast?_map]
    rfl
  · rw [if_neg hopen, if_neg hopen]
    rfl

/-- The runs of a line further down are its runs further down. -/
theorem runsOf_shift (k : Nat) (brackets : Int) (l : CodeLine) :
    runsOf brackets (l.shift k) = (runsOf brackets l).map (FieldRun.shift k) := by
  rw [runsOf, runsOf, List.map_map]
  rfl

theorem feed_shift (k : Nat) (s : OpenRun) (l : CodeLine) :
    (s.shift k).feed (l.shift k) =
      ((s.feed l).1.map (FieldRun.shift k), (s.feed l).2.shift k) := by
  rw [feed_eq, runsOf_shift, extend_shift]
  exact settle_shift k _ _

/-- Reading further down gives the same runs further down. -/
theorem feedAll_shift (k : Nat) (ls : List CodeLine) :
    ∀ s : OpenRun, (s.shift k).feedAll (ls.map (CodeLine.shift k)) =
      ((s.feedAll ls).1.map (FieldRun.shift k), (s.feedAll ls).2.shift k) := by
  induction ls with
  | nil => intro s; rfl
  | cons l ls ih =>
      intro s
      rw [List.map_cons, feedAll_cons, feed_shift, ih, feedAll_cons, List.map_append]

/-- The completed runs and the open one. -/
def allRuns (r : List FieldRun × OpenRun) : List FieldRun := r.1 ++ r.2.pending.toList

/-- Moving what was fed down moves all runs down. -/
theorem allRuns_shift (k : Nat) (r : List FieldRun × OpenRun) :
    allRuns (r.1.map (FieldRun.shift k), r.2.shift k) = (allRuns r).map (FieldRun.shift k) := by
  obtain ⟨runs, brackets, pending⟩ := r
  show runs.map _ ++ (pending.map _).toList = (runs ++ pending.toList).map _
  rw [List.map_append]
  cases pending with
  | none => rfl
  | some run => rfl

/-! ## What is read at the end -/

/-- The completed runs and the open one as they are read when all lines have been fed. -/
def finished (r : List FieldRun × OpenRun) : List FieldRun := r.1 ++ r.2.finish.toList

/-- What does not depend on joining the segments of a run is read of the open one as of the
    others. -/
theorem flatMap_finished {β : Type} {f : FieldRun → List β}
    (h : ∀ run : FieldRun, f run.flush = f run) (r : List FieldRun × OpenRun) :
    (finished r).flatMap f = (allRuns r).flatMap f := by
  obtain ⟨runs, brackets, pending⟩ := r
  rw [finished, allRuns, List.flatMap_append, List.flatMap_append]
  cases pending with
  | none => rfl
  | some run =>
      show runs.flatMap f ++ (f run.flush ++ []) = runs.flatMap f ++ (f run ++ [])
      rw [h]

/-! ## What is open -/

/-- A run is open exactly while a bracket is. -/
structure Rested (s : OpenRun) : Prop where
  brackets_nonneg : 0 ≤ s.brackets
  pending_iff : s.pending = none ↔ s.brackets = 0

theorem start_rested : start.Rested := ⟨Int.le_refl 0, Iff.intro (fun _ => rfl) fun _ => rfl⟩

theorem Rested.pending_isSome_iff {s : OpenRun} (h : s.Rested) :
    s.pending.isSome = true ↔ 0 < s.brackets := by
  have hnonneg := h.brackets_nonneg
  rw [Option.isSome_iff_ne_none, ne_eq, h.pending_iff]
  omega

/-- Behind a line that leaves no bracket open reading is at the start again. -/
theorem Rested.eq_start {s : OpenRun} (h : s.Rested) (h0 : s.brackets = 0) : s = start := by
  obtain ⟨brackets, pending⟩ := s
  have hpending := h.pending_iff.mpr h0
  dsimp only at h0 hpending
  rw [h0, hpending]
  rfl

/-- Every line has a segment, if only an empty one. -/
theorem runsOf_ne_nil (brackets : Int) (l : CodeLine) : runsOf brackets l ≠ [] := by
  intro hnil
  have hplace : Segment.place 0 (Segment.cut ⟨brackets, 0⟩ (glyphs l.code)).1 = [] :=
    List.map_eq_nil_iff.mp hnil
  have htexts := Segment.place_map_text 0 (Segment.cut ⟨brackets, 0⟩ (glyphs l.code)).1
  rw [hplace] at htexts
  exact Segment.cut_ne_nil _ _ htexts.symm

/-- Going on with the open run loses no run. -/
theorem extend_ne_nil (s : OpenRun) {runs : List FieldRun} (h : runs ≠ []) :
    s.extend runs ≠ [] := by
  obtain ⟨brackets, pending⟩ := s
  cases runs with
  | nil => exact absurd rfl h
  | cons first more => cases pending <;> exact List.cons_ne_nil _ _

theorem bracketsBehind_nonneg {brackets : Int} (h : 0 ≤ brackets) (l : CodeLine) :
    0 ≤ bracketsBehind brackets l := by
  rw [bracketsBehind, Segment.split_snd]
  exact Nesting.after_brackets_nonneg _ _ h

theorem settle_brackets (brackets : Int) (runs : List FieldRun) :
    (settle brackets runs).2.brackets = brackets := by
  rw [settle]
  split
  · rfl
  · rfl

theorem feed_brackets (s : OpenRun) (l : CodeLine) :
    (s.feed l).2.brackets = bracketsBehind s.brackets l := settle_brackets _ _

/-- A line keeps a run open exactly while a bracket is. -/
theorem feed_rested {s : OpenRun} (h : s.Rested) (l : CodeLine) : (s.feed l).2.Rested := by
  have hnonneg := bracketsBehind_nonneg h.brackets_nonneg l
  refine ⟨by rw [feed_brackets]; exact hnonneg, ?_⟩
  rw [feed_brackets, feed_eq, settle]
  by_cases hopen : bracketsBehind s.brackets l > 0
  · -- a line always has a segment, so the last one is there to be left open
    rw [if_pos hopen]
    refine ⟨fun hnone => ?_, fun h0 => absurd hopen (by omega)⟩
    exact absurd (List.getLast?_eq_none_iff.mp hnone) (extend_ne_nil s (runsOf_ne_nil _ l))
  · rw [if_neg hopen]
    exact ⟨fun _ => by omega, fun _ => rfl⟩

theorem feedAll_rested (ls : List CodeLine) :
    ∀ s : OpenRun, s.Rested → (s.feedAll ls).2.Rested := by
  induction ls with
  | nil => intro s h; exact h
  | cons l ls ih => intro s h; exact ih _ (feed_rested h l)

/-- The depth of brackets behind some lines. -/
def bracketsBehindAll (brackets : Int) (ls : List CodeLine) : Int :=
  ls.foldl bracketsBehind brackets

/-- The depth behind some lines is carried along them, whatever the runs are. -/
theorem feedAll_brackets (ls : List CodeLine) :
    ∀ s : OpenRun, (s.feedAll ls).2.brackets = bracketsBehindAll s.brackets ls := by
  induction ls with
  | nil => intro s; rfl
  | cons l ls ih =>
      intro s
      rw [feedAll_cons, ih, feed_brackets]
      rfl

/-- Where the brackets are closed again, nothing is left open. -/
theorem feedAll_start {ls : List CodeLine} (h : bracketsBehindAll 0 ls = 0) :
    (start.feedAll ls).2 = start :=
  (feedAll_rested ls start start_rested).eq_start (by rw [feedAll_brackets]; exact h)

/-! ## Lines with one segment -/

/-- The run of a whole line. -/
def wholeLine (l : CodeLine) : FieldRun := ⟨l.number, l.raw, l.column, [l.code]⟩

/-- A line that no semicolon divides and that closes its brackets completes one run. -/
theorem feed_wholeLine {l : CodeLine} (hsemi : ∀ g ∈ glyphs l.code, g.isLive ';' = false)
    (hclosed : bracketsBehind 0 l = 0) : start.feed l = ([wholeLine l], start) := by
  have hruns : runsOf 0 l = [wholeLine l] := by
    rw [runsOf, Segment.split_fst_of_notDivided 0 hsemi]
    rfl
  rw [feed_eq]
  show settle (bracketsBehind 0 l) (start.extend (runsOf 0 l)) = _
  rw [hruns, hclosed]
  rfl

/-- A line that no semicolon divides goes on with the open run as long as a bracket is open. -/
theorem feed_open {s : OpenRun} {run : FieldRun} {l : CodeLine} (hs : s.pending = some run)
    (hsemi : ∀ g ∈ glyphs l.code, g.isLive ';' = false)
    (hopen : bracketsBehind s.brackets l > 0) :
    s.feed l = ([], ⟨bracketsBehind s.brackets l,
      some { run with parts := run.parts ++ [l.code] }⟩) := by
  have hruns : runsOf s.brackets l = [wholeLine l] := by
    rw [runsOf, Segment.split_fst_of_notDivided s.brackets hsemi]
    rfl
  rw [feed_eq, hruns, settle, if_pos hopen, extend, hs]
  rfl

/-- Blank code is a run without fields. -/
theorem feed_allBlank {l : CodeLine} (h : Text.AllBlank l.code) :
    start.feed l = ([wholeLine l], start) := by
  have hstill : Still (glyphs l.code) := by
    rw [(Plain.of_allBlank h).glyphs_eq]
    exact still_of_allBlank h
  exact feed_wholeLine (fun g hg => hstill g hg ';' List.mem_cons_self)
    (by rw [bracketsBehind, Segment.split_snd, Nesting.after_of_still hstill])

theorem wholeLine_fields_of_allBlank {allNames : Bool} {l : CodeLine}
    (h : Text.AllBlank l.code) : (wholeLine l).fields allNames = [] :=
  FieldRun.fields_of_allBlank h

/-! ## Where runs stand -/

/-- All runs, the open one included, stand on the given lines. -/
def StandsOn (lines : Nat → Prop) (r : List FieldRun × OpenRun) : Prop :=
  (∀ run ∈ r.1, lines run.line) ∧ ∀ run ∈ r.2.pending, lines run.line

/-- The open run stays on its own line when a segment is put behind it. -/
theorem extend_line {lines : Nat → Prop} {s : OpenRun} {runs : List FieldRun}
    (hs : ∀ run ∈ s.pending, lines run.line) (hruns : ∀ run ∈ runs, lines run.line) :
    ∀ run ∈ s.extend runs, lines run.line := by
  obtain ⟨brackets, pending⟩ := s
  cases pending with
  | none =>
      cases runs with
      | nil => intro run hrun; exact nomatch hrun
      | cons first more => exact hruns
  | some p =>
      have hp := hs p rfl
      -- with a run open, the first segment goes to its line and the others to theirs
      cases runs with
      | nil =>
          intro run hrun
          rw [List.mem_singleton.mp hrun]
          exact hp
      | cons first more =>
          intro run hrun
          rcases List.mem_cons.mp hrun with rfl | hmem
          · exact hp
          · exact hruns run (List.mem_cons_of_mem _ hmem)

/-- Completing runs or leaving the last one open moves none of them. -/
theorem settle_standsOn {lines : Nat → Prop} {runs : List FieldRun} (brackets : Int)
    (h : ∀ run ∈ runs, lines run.line) : StandsOn lines (settle brackets runs) := by
  rw [settle]
  split
  · exact ⟨fun run hrun => h run (List.dropLast_subset _ hrun),
      fun run hrun => h run (List.mem_of_getLast? hrun)⟩
  · exact ⟨h, fun run hrun => nomatch hrun⟩

/-- The runs that a line starts stand on it. -/
theorem feed_standsOn {lines : Nat → Prop} {s : OpenRun} {l : CodeLine}
    (hs : ∀ run ∈ s.pending, lines run.line) (hl : lines l.number) :
    StandsOn lines (s.feed l) := by
  rw [feed_eq]
  refine settle_standsOn _ (extend_line hs ?_)
  intro run hrun
  obtain ⟨seg, -, rfl⟩ := List.mem_map.mp hrun
  exact hl

/-- Runs stand on the lines that were fed. -/
theorem feedAll_standsOn {lines : Nat → Prop} (ls : List CodeLine) :
    ∀ s : OpenRun, (∀ run ∈ s.pending, lines run.line) → (∀ l ∈ ls, lines l.number) →
      StandsOn lines (s.feedAll ls) := by
  induction ls with
  | nil => intro s hs _; exact ⟨fun run hrun => (nomatch hrun), hs⟩
  | cons l ls ih =>
      intro s hs hls
      have hfeed := feed_standsOn hs (hls l List.mem_cons_self)
      have hrest := ih _ hfeed.2 fun m hm => hls m (List.mem_cons_of_mem _ hm)
      rw [feedAll_cons]
      refine ⟨?_, hrest.2⟩
      intro run hrun
      rcases List.mem_append.mp hrun with hl | hr
      · exact hfeed.1 run hl
      · exact hrest.1 run hr

end OpenRun

/-! ## The fields of a body -/

/-- The fields of a struct are those of its runs, the one that is open at its end included. -/
theorem StructSource.fields_eq (allNames : Bool) (s : StructSource) :
    s.fields allNames = (OpenRun.allRuns (OpenRun.start.feedAll s.body.parts)).flatMap
      (FieldRun.fields allNames) :=
  OpenRun.flatMap_finished (fun run => run.fields_flush allNames) _

end GoLayout
