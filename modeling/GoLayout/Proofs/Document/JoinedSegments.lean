import Mathlib.Data.List.SplitBy
import GoLayout.Proofs.Document.FieldRun

/-! # Which segments are read as one field

    The segments of all lines that are fed, in order, are joined where a bracket that is open at
    the end of a line carries a field on to the next one, and nowhere else: the last segment of
    that line and the first one of the next are parts of one run.  Each run that is not blank is
    read as a field once (`OpenRun.attempts`): a single segment as it stands, several ones joined,
    and a single one joined as well, which takes its outer blanks away, if it is still open at the
    end.  `OpenRun.feedAll_attempts` says that feeding the lines one after the other comes to the
    same, and that the blanks are all that the last case makes a difference to.  The route:

    * a group of pieces is closed by the first piece that does not go on with it
      (`splitBy_append_fresh`), so that completed groups are not looked at again
      (`splitBy_append_of_concat`);
    * one line puts its first piece behind the open group and starts a group with each other one
      (`OpenRun.extend_groups`);
    * along the lines the open run is the open group (`OpenRun.allRuns_feedAll`);
    * at the end the open run is the last group (`OpenRun.finished_feedAll`). -/

namespace GoLayout

/-- A segment of a line, and whether it goes on with the segment in front of it. -/
structure Piece where
  line : CodeLine
  segment : Segment
  goesOn : Bool
  deriving Repr, DecidableEq

namespace Piece

/-- The segments of a line, of which the first one goes on with the line above where a bracket
    is open between the two. -/
def ofLine (brackets : Int) (l : CodeLine) : List Piece :=
  match (Segment.split l.code brackets).1 with
  | [] => []
  | s :: more => ⟨l, s, 0 < brackets⟩ :: more.map fun s => ⟨l, s, false⟩

/-- The segments of some lines in order, each line cut with the depth that is carried to it. -/
def ofLines (brackets : Int) : List CodeLine → List Piece
  | [] => []
  | l :: ls => ofLine brackets l ++ ofLines (Segment.split l.code brackets).2 ls

/-- Is the second piece a part of the run that the first one belongs to? -/
def joins (_ : Piece) (p : Piece) : Bool := p.goesOn

/-- The text of a run: a single segment as it stands, unless it is still open at the end; of any
    others those that are not blank, without outer blanks and with one blank between them. -/
def runText : Bool → List Text → Text
  | false, [part] => part
  | _, parts => Text.joinWith [' '] ((parts.filter (!Text.isBlankText ·)).map Text.trim)

/-- What is read as a field of a run: its text, placed where its first segment starts, unless it
    is blank. -/
def attempt? (isOpen : Bool) : List Piece → Option FieldRun
  | [] => none
  | first :: more =>
    let text := runText isOpen ((first :: more).map (·.segment.text))
    if Text.isBlankText text then none
    else some ⟨first.line.number, first.line.raw, first.line.column + first.segment.start, [text]⟩

/-- The run of some pieces. -/
def run : List Piece → FieldRun
  | [] => ⟨0, [], 0, []⟩
  | first :: more =>
    ⟨first.line.number, first.line.raw, first.line.column + first.segment.start,
      (first :: more).map (·.segment.text)⟩

end Piece

/-- What is read of some runs in order: the text of each of them that is not blank. -/
def OpenRun.attempted (runs : List FieldRun) : List FieldRun :=
  (runs.filter (!Text.isBlankText ·.text)).map fun r => r.withText r.text

/-- What is to be read of some lines in order: the runs of their segments that are not blank, of which
    the last one may still be open. -/
def OpenRun.attempts (isOpen : Bool) (ls : List CodeLine) : List FieldRun :=
  let groups := (Piece.ofLines 0 ls).splitBy Piece.joins
  groups.dropLast.filterMap (Piece.attempt? false) ++
    groups.getLast?.toList.filterMap (Piece.attempt? isOpen)

/-! ## Groups -/

section Groups

variable {α : Type} {r : α → α → Bool}

/-- Elements that go on with nothing start a group each. -/
theorem splitBy_append_fresh {group more : List α} (hne : group ≠ [])
    (hchain : group.IsChain fun x y => r x y) (hfresh : ∀ y ∈ more, ∀ x, r x y = false) :
    (group ++ more).splitBy r = group :: more.map ([·]) := by
  induction more generalizing group with
  | nil =>
      rw [List.append_nil, List.splitBy_of_isChain hne hchain]
      rfl
  | cons y more ih =>
      have hy := hfresh y List.mem_cons_self
      have hmore := ih (List.cons_ne_nil y []) (List.isChain_singleton y)
        fun z hz => hfresh z (List.mem_cons_of_mem _ hz)
      rw [List.splitBy_append_cons more fun x _ => hy x, List.splitBy_of_isChain hne hchain]
      exact congrArg (group :: ·) hmore

/-- What comes behind some groups can only change the last one of them. -/
theorem splitBy_append_of_concat {front more group : List α} {groups : List (List α)}
    (h : front.splitBy r = groups ++ [group]) :
    (front ++ more).splitBy r = groups ++ (group ++ more).splitBy r := by
  obtain ⟨hflatten, hne, hchain, hapart⟩ := List.splitBy_eq_iff.mp h
  rw [List.flatten_append, List.flatten_singleton] at hflatten
  obtain ⟨hgroups, -, hlast⟩ := List.isChain_append.mp hapart
  have hfront : groups.flatten.splitBy r = groups :=
    List.splitBy_eq_iff.mpr ⟨rfl, fun hnil => hne (List.mem_append_left _ hnil),
      fun g hg => hchain g (List.mem_append_left _ hg), hgroups⟩
  rw [hflatten, List.append_assoc, List.splitBy_append, hfront]
  intro x hx y hy
  have hgroup : group ≠ [] := fun hnil => hne (by simp [hnil])
  rw [List.head?_append_of_ne_nil _ hgroup] at hy
  -- the last element of all groups in front is the last one of the last group
  rcases List.eq_nil_or_concat groups with rfl | ⟨others, last, rfl⟩
  · exact nomatch hx
  · rw [List.concat_eq_append] at hlast hne hx
    obtain ⟨ha, hb, hr⟩ := hlast last (by simp) group rfl
    rw [List.flatten_append, List.flatten_singleton, List.getLast?_append_of_ne_nil _ ha,
      List.getLast?_eq_some_getLast ha] at hx
    rw [List.head?_eq_some_head hb] at hy
    rwa [Option.mem_some_iff.mp hx, Option.mem_some_iff.mp hy] at hr

end Groups

/-! ## Lines one after the other -/

namespace Piece

/-- The run of some pieces as it is read: joined, if it is still open at the end. -/
def readRun (isOpen : Bool) (group : List Piece) : FieldRun :=
  if isOpen then (run group).flush else run group

/-- Joining the segments of a run filters them by what is left of them, and so by blankness. -/
theorem filter_trim (parts : List Text) : (parts.map Text.trim).filter (!·.isEmpty) =
    (parts.filter (!Text.isBlankText ·)).map Text.trim := by
  rw [List.filter_map]
  congr 2
  funext t
  rw [Function.comp_apply, Bool.eq_iff_iff, Bool.not_eq_true', Bool.not_eq_true',
    ← Bool.not_eq_true, ← Bool.not_eq_true, List.isEmpty_iff, Text.trim_eq_nil_iff,
    Text.isBlankText_iff]

/-- The run of a group is read by the text that its segments have. -/
theorem readRun_text (isOpen : Bool) (group : List Piece) :
    (readRun isOpen group).text = runText isOpen (run group).parts := by
  have hjoined : (run group).joined = Text.joinWith [' ']
      (((run group).parts.filter (!Text.isBlankText ·)).map Text.trim) :=
    congrArg (Text.joinWith [' ']) (filter_trim _)
  cases isOpen with
  | true => exact hjoined
  | false =>
      show (run group).text = _
      rw [FieldRun.text]
      -- a single segment is the one case in which nothing is joined
      match hparts : (run group).parts with
      | [] => rw [hjoined, hparts]; rfl
      | [part] => rfl
      | _ :: _ :: _ => rw [hjoined, hparts]; rfl

/-- A group is attempted where the text of its run is not blank. -/
theorem attempt?_eq (isOpen : Bool) {group : List Piece} (hne : group ≠ []) :
    attempt? isOpen group =
      if Text.isBlankText (readRun isOpen group).text then none
      else some ((readRun isOpen group).withText (readRun isOpen group).text) := by
  obtain ⟨first, more, rfl⟩ := List.exists_cons_of_ne_nil hne
  rw [readRun_text]
  cases isOpen with
  | true => rfl
  | false => rfl

/-- A piece behind others is one more part of their run. -/
theorem run_concat {group : List Piece} (hne : group ≠ []) (p : Piece) :
    run (group ++ [p]) = { run group with parts := (run group).parts ++ [p.segment.text] } := by
  obtain ⟨first, more, rfl⟩ := List.exists_cons_of_ne_nil hne
  have hparts : (first :: (more ++ [p])).map (·.segment.text) =
      (first :: more).map (·.segment.text) ++ [p.segment.text] := by
    rw [← List.cons_append, List.map_append]
    rfl
  exact congrArg (FieldRun.mk _ _ _) hparts

/-- The first of some pieces goes on with what is open in front of it. -/
theorem head_ofLines {brackets : Int} {ls : List CodeLine} :
    ∀ p ∈ (ofLines brackets ls).head?, p.goesOn = decide (0 < brackets) := by
  intro p hp
  cases ls with
  | nil => exact nomatch hp
  | cons l ls =>
      rw [ofLines, ofLine] at hp
      cases hsplit : (Segment.split l.code brackets).1 with
      | nil =>
          have hruns := OpenRun.runsOf_ne_nil brackets l
          rw [OpenRun.runsOf, hsplit] at hruns
          exact absurd rfl hruns
      | cons seg more =>
          rw [hsplit] at hp
          rw [← Option.mem_some_iff.mp hp]

end Piece

namespace OpenRun

open Piece

/-- The open run is that of some pieces, each of which goes on with the one in front of it; there
    are none exactly if no bracket is open. -/
structure Holds (s : OpenRun) (group : List Piece) : Prop where
  chain : group.IsChain fun a b => joins a b
  pending : s.pending = if group = [] then none else some (run group)
  open_iff : group ≠ [] ↔ 0 < s.brackets

/-- The first segment of a line goes on with the open run, and each other one starts a run. -/
theorem extend_groups {s : OpenRun} {group : List Piece} (h : s.Holds group) (l : CodeLine) :
    s.extend (runsOf s.brackets l) = ((group ++ ofLine s.brackets l).splitBy joins).map run := by
  have hruns := runsOf_ne_nil s.brackets l
  rw [runsOf] at hruns ⊢
  rw [ofLine]
  cases hsplit : (Segment.split l.code s.brackets).1 with
  | nil => exact absurd (by rw [hsplit]; rfl) hruns
  | cons seg more =>
      obtain ⟨first, hfirst⟩ : ∃ p : Piece, p = ⟨l, seg, decide (0 < s.brackets)⟩ := ⟨_, rfl⟩
      obtain ⟨others, hothers⟩ : ∃ ps : List Piece, ps = more.map fun s => ⟨l, s, false⟩ :=
        ⟨_, rfl⟩
      -- the first segment goes on with the open group, which is there exactly if a bracket is open
      have hchain : (group ++ [first]).IsChain fun a b => joins a b := by
        refine List.isChain_append.mpr ⟨h.chain, List.isChain_singleton _, ?_⟩
        intro a ha b hb
        obtain rfl := Option.mem_some_iff.mp hb
        rw [joins, hfirst]
        exact decide_eq_true (h.open_iff.mp (List.ne_nil_of_mem (List.mem_of_getLast? ha)))
      have hfresh : ∀ y ∈ others, ∀ x, joins x y = false := by
        rw [hothers]
        intro y hy x
        obtain ⟨s, -, rfl⟩ := List.mem_map.mp hy
        rfl
      have hgroups : (group ++ first :: others).splitBy joins =
          (group ++ [first]) :: others.map ([·]) := by
        rw [← splitBy_append_fresh (List.append_ne_nil_of_right_ne_nil _ (by simp)) hchain hfresh,
          List.append_assoc]
        rfl
      have hrest : more.map (FieldRun.ofSegment l) = (others.map ([·])).map run := by
        rw [hothers, List.map_map, List.map_map]
        rfl
      dsimp only
      rw [← hfirst, ← hothers, hgroups, List.map_cons, List.map_cons, hrest, extend, h.pending]
      -- without an open group the first segment starts a run of its own
      by_cases hnil : group = []
      · rw [if_pos hnil, hnil, hfirst]
        rfl
      · rw [if_neg hnil, run_concat hnil, hfirst]
        rfl

/-- What a line leaves open is the last of the groups, if a bracket is open at its end. -/
theorem feed_groups {s : OpenRun} {group : List Piece} (h : s.Holds group) (l : CodeLine) :
    ∃ done next, (s.feed l).1 = done.map run ∧ (s.feed l).2.Holds next ∧
      ∀ more, (group ++ ofLine s.brackets l ++ ofLines (s.feed l).2.brackets more).splitBy joins =
        done ++ (next ++ ofLines (s.feed l).2.brackets more).splitBy joins := by
  have hruns := extend_groups h l
  have hne : (group ++ ofLine s.brackets l).splitBy joins ≠ [] := by
    intro hnil
    rw [hnil] at hruns
    exact extend_ne_nil s (runsOf_ne_nil s.brackets l) hruns
  rw [feed_eq, hruns, settle]
  -- a bracket that is open keeps the last group, and nothing else, for the line below
  by_cases hopen : bracketsBehind s.brackets l > 0
  · rw [if_pos hopen]
    obtain ⟨done, next, hsplit⟩ := List.eq_nil_or_concat _ |>.resolve_left hne
    rw [List.concat_eq_append] at hsplit
    have hmem : next ∈ (group ++ ofLine s.brackets l).splitBy joins := by
      rw [hsplit]
      exact List.mem_append_right _ List.mem_cons_self
    have hnext := List.ne_nil_of_mem_splitBy hmem
    refine ⟨done, next, ?_, ⟨List.isChain_of_mem_splitBy hmem, ?_, iff_of_true hnext hopen⟩,
      fun more => splitBy_append_of_concat hsplit⟩
    · rw [hsplit, ← List.map_dropLast, List.dropLast_concat]
    · rw [if_neg hnext, hsplit, List.map_append]
      exact List.getLast?_concat
  · rw [if_neg hopen]
    refine ⟨_, [], rfl, ⟨List.isChain_nil, rfl, iff_of_false (fun hnil => hnil rfl) hopen⟩,
      fun more => List.splitBy_append fun x _ y hy => ?_⟩
    rw [joins, head_ofLines y hy]
    exact decide_eq_false hopen

/-- The runs of some lines, the open one included, are those of the groups of their pieces. -/
theorem allRuns_feedAll (ls : List CodeLine) : ∀ (s : OpenRun) (group : List Piece),
    s.Holds group →
      allRuns (s.feedAll ls) = ((group ++ ofLines s.brackets ls).splitBy joins).map run := by
  induction ls with
  | nil =>
      intro s group h
      rw [ofLines, List.append_nil]
      show s.pending.toList = _
      rw [h.pending]
      by_cases hnil : group = []
      · rw [if_pos hnil, hnil]
        rfl
      · rw [if_neg hnil, List.splitBy_of_isChain hnil h.chain]
        rfl
  | cons l ls ih =>
      intro s group h
      obtain ⟨done, next, hdone, hnext, hgroups⟩ := feed_groups h l
      have hbrackets : (Segment.split l.code s.brackets).2 = (s.feed l).2.brackets :=
        (feed_brackets s l).symm
      rw [feedAll_cons, ofLines, hbrackets, ← List.append_assoc, hgroups, List.map_append, ← hdone,
        ← ih _ _ hnext, allRuns, allRuns, List.append_assoc]

theorem start_holds : start.Holds [] :=
  ⟨List.isChain_nil, rfl, iff_of_false (fun h => h rfl) (Int.lt_irrefl 0)⟩

/-- What is read of a run at a time is read of those that are not blank, each by its text. -/
theorem flatMap_notBlank {β : Type} {f : FieldRun → List β}
    (hblank : ∀ r : FieldRun, Text.isBlankText r.text = true → f r = [])
    (htext : ∀ r : FieldRun, f (r.withText r.text) = f r) (runs : List FieldRun) :
    runs.flatMap f = (attempted runs).flatMap f := by
  induction runs with
  | nil => rfl
  | cons r runs ih =>
      rw [List.flatMap_cons, ih, attempted, attempted, List.filter_cons]
      by_cases h : Text.isBlankText r.text = true
      · rw [hblank r h, h]
        rfl
      · rw [Bool.not_eq_true] at h
        rw [h, Bool.not_false, if_pos rfl, List.map_cons, List.flatMap_cons, htext]

theorem attempted_append (a b : List FieldRun) :
    attempted (a ++ b) = attempted a ++ attempted b := by
  rw [attempted, List.filter_append, List.map_append]
  rfl

/-- Groups are attempted as their runs are. -/
theorem filterMap_attempt? (isOpen : Bool) {groups : List (List Piece)}
    (hne : ∀ g ∈ groups, g ≠ []) :
    groups.filterMap (attempt? isOpen) = attempted (groups.map (readRun isOpen)) := by
  induction groups with
  | nil => rfl
  | cons group groups ih =>
      have hgroup := attempt?_eq isOpen (hne group List.mem_cons_self)
      have hrest := ih fun g hg => hne g (List.mem_cons_of_mem _ hg)
      rw [List.filterMap_cons, hgroup, hrest, List.map_cons, attempted, attempted,
        List.filter_cons]
      by_cases h : Text.isBlankText (readRun isOpen group).text = true
      · rw [if_pos h, h]
        rfl
      · rw [if_neg h]
        rw [Bool.not_eq_true] at h
        rw [h]
        rfl

/-- The runs of some groups, of which the last one may still be open at the end. -/
def readRuns (isOpen : Bool) (groups : List (List Piece)) : List FieldRun :=
  groups.dropLast.map (readRun false) ++ groups.getLast?.toList.map (readRun isOpen)

theorem readRuns_concat (isOpen : Bool) (groups : List (List Piece)) (last : List Piece) :
    readRuns isOpen (groups ++ [last]) = groups.map run ++ [readRun isOpen last] := by
  rw [readRuns, List.dropLast_concat, List.getLast?_concat]
  rfl

/-- Where no run is open at the end, all are read as they stand. -/
theorem readRuns_false (groups : List (List Piece)) : readRuns false groups = groups.map run := by
  rcases List.eq_nil_or_concat groups with rfl | ⟨front, last, rfl⟩
  · rfl
  · rw [List.concat_eq_append, readRuns_concat, List.map_append]
    rfl

/-- What is to be read of some lines is what is read of the runs of their groups. -/
theorem attempts_eq (isOpen : Bool) (ls : List CodeLine) :
    attempts isOpen ls = attempted (readRuns isOpen ((ofLines 0 ls).splitBy joins)) := by
  have hne : ∀ g ∈ (ofLines 0 ls).splitBy joins, g ≠ [] := fun _ => List.ne_nil_of_mem_splitBy
  rw [attempts, readRuns, attempted_append,
    ← filterMap_attempt? false fun g hg => hne g (List.dropLast_subset _ hg),
    ← filterMap_attempt? isOpen fun g hg => hne g (List.mem_of_getLast? (Option.mem_toList.mp hg))]

/-- Where the runs are those of some groups, the one that is open is the run of the last group. -/
theorem finished_eq {r : List FieldRun × OpenRun} {groups : List (List Piece)}
    (h : allRuns r = groups.map run) : finished r = readRuns r.2.pending.isSome groups := by
  obtain ⟨done, brackets, pending⟩ := r
  cases pending with
  | none =>
      show done ++ [] = readRuns false groups
      rw [readRuns_false, ← h]
      rfl
  | some last =>
      change done ++ [last] = _ at h
      -- the open run is the last of all runs, and so that of the last group
      rcases List.eq_nil_or_concat groups with rfl | ⟨front, group, rfl⟩
      · exact absurd h (List.append_ne_nil_of_right_ne_nil _ (List.cons_ne_nil _ _))
      · rw [List.concat_eq_append, List.map_append] at h
        obtain ⟨rfl, hlast⟩ := List.append_inj' h rfl
        rw [List.concat_eq_append, Option.isSome_some, readRuns_concat, readRun, if_pos rfl,
          ← List.singleton_inj.mp hlast]
        rfl

/-- When all lines have been fed, the runs are those of the groups of the segments, and the last
    one is still open if a bracket is. -/
theorem finished_feedAll (ls : List CodeLine) :
    finished (start.feedAll ls) =
      readRuns (0 < (start.feedAll ls).2.brackets) ((ofLines 0 ls).splitBy joins) := by
  rw [finished_eq (allRuns_feedAll ls start [] start_holds)]
  congr 1
  rw [Bool.eq_iff_iff, decide_eq_true_iff]
  exact (feedAll_rested ls start start_rested).pending_isSome_iff

/-- What does not depend on joining the segments of a run is read of all runs alike, open or not. -/
theorem flatMap_readRuns {β : Type} {f : FieldRun → List β}
    (h : ∀ run : FieldRun, f run.flush = f run) (isOpen : Bool) (groups : List (List Piece)) :
    (readRuns isOpen groups).flatMap f = (groups.map run).flatMap f := by
  rcases List.eq_nil_or_concat groups with rfl | ⟨front, last, rfl⟩
  · rfl
  · have hlast : f (readRun isOpen last) = f (run last) := by
      cases isOpen with
      | true => exact h (run last)
      | false => rfl
    rw [List.concat_eq_append, readRuns_concat, List.map_append, List.flatMap_append,
      List.flatMap_append]
    show _ ++ (f _ ++ []) = _ ++ (f _ ++ [])
    rw [hlast]

/-- What is read of the runs of some lines is read of those that are attempted, whether the last
    of them counts as open or not. -/
theorem flatMap_attempts {β : Type} {f : FieldRun → List β}
    (hblank : ∀ run : FieldRun, Text.isBlankText run.text = true → f run = [])
    (htext : ∀ run : FieldRun, f (run.withText run.text) = f run)
    (hflush : ∀ run : FieldRun, f run.flush = f run) (isOpen : Bool) (ls : List CodeLine) :
    (finished (start.feedAll ls)).flatMap f = (attempts isOpen ls).flatMap f := by
  rw [attempts_eq, ← flatMap_notBlank hblank htext, finished_feedAll, flatMap_readRuns hflush,
    flatMap_readRuns hflush]

/-- The segments of all lines are joined where an open bracket carries a field from one line to the
    next, and each run of them that is not blank is read as a field once, in order: the last one
    without outer blanks, if a bracket is still open at the end.  Nothing else is read, those blanks
    make no difference to the fields and to what is reported, and a run is open exactly while a
    bracket is. -/
theorem feedAll_attempts (ls : List CodeLine) :
    attempted (finished (start.feedAll ls)) = attempts (0 < (start.feedAll ls).2.brackets) ls ∧
      (∀ isOpen allNames, (finished (start.feedAll ls)).flatMap (FieldRun.fields allNames) =
        (attempts isOpen ls).flatMap (FieldRun.fields allNames)) ∧
      (∀ isOpen, (finished (start.feedAll ls)).flatMap FieldRun.records =
        (attempts isOpen ls).flatMap FieldRun.records) ∧
      (start.feedAll ls).2.brackets = bracketsBehindAll 0 ls ∧
      ((start.feedAll ls).2.pending.isSome = true ↔ 0 < (start.feedAll ls).2.brackets) := by
  -- the first clause is about the texts themselves, and the next two about what is made of them
  refine ⟨?_, fun isOpen allNames => ?_, fun isOpen => ?_, feedAll_brackets ls start,
    (feedAll_rested ls start start_rested).pending_isSome_iff⟩
  · rw [attempts_eq, ← finished_feedAll]
  · exact flatMap_attempts (fun r h => FieldRun.fields_of_allBlank (Text.isBlankText_iff.mp h))
      (fun r => r.fields_withText rfl allNames) (fun r => r.fields_flush allNames) isOpen ls
  · refine flatMap_attempts (fun r h => ?_) (fun r => rfl) FieldRun.records_flush isOpen ls
    rw [FieldRun.records, h]
    rfl

/-- The line of a field whose brackets are never closed. -/
def openLine : CodeLine := ⟨1, "\tF func(".toList, 0, "\tF func(".toList, false⟩

/-- Its segment is not read as it stands but without the tab in front of it: it is still open at
    the end, so that it is joined like several ones. -/
theorem openLine_trimmed :
    (attempted (finished (start.feedAll [openLine]))).map FieldRun.text = ["F func(".toList] ∧
      (attempts false [openLine]).map FieldRun.text = ["\tF func(".toList] ∧
      attempted (finished (start.feedAll [openLine])) ≠ attempts false [openLine] := by
  decide +kernel

end OpenRun

end GoLayout
