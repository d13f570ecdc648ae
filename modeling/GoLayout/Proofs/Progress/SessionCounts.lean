import GoLayout.Proofs.Layout.DigitLimit
import GoLayout.Session
import Mathlib.Algebra.GroupWithZero.Nat
import Mathlib.Data.List.DropRight

/-! # The counters of a session are exact

    However the calls of a session follow one another, and wherever some of them fail, its counters
    tell what was done since counting last began (`Session.counters_after`).  The route:

    * the analysis of declarations completes those in front of the first one whose size has too
      many digits, and it fails exactly if there is such a one (`Progressed.analyses_eq`,
      `Progressed.result_eq`);
    * one call adds its file, if that was read, and the declarations that it completed, and it
      leaves the configuration as it is (`Session.perform_eq`);
    * a call behind others goes on with the calls since the last reset, or it is one
      (`Session.Configured.after`). -/

namespace GoLayout

/-- The declarations in front of the first one whose size has too many digits to be reported. -/
def completed (w : WordSize) (ds : List Declaration) : List Declaration :=
  ds.takeWhile fun d => (d.packed w).totalSize < 10 ^ Decimal.digitLimit

/-- Analyses count for one declaration each, and for as many fields as these have. -/
theorem Counters.countAnalyses_eq (c : Counters) (as : List Analysis) :
    c.countAnalyses as = ⟨c.documents, c.declarations + as.length,
      c.fields + ((as.map (·.declaration.fields.length)).sum : Nat)⟩ := by
  induction as generalizing c with
  | nil => simp
  | cons a as ih =>
      rw [countAnalyses_cons, ih, List.length_cons, List.map_cons, List.sum_cons]
      simp only [countDeclaration, mk.injEq, true_and]
      omega

namespace Progressed

theorem analyses_eq (w : WordSize) (ds : List Declaration) :
    (ofDeclarations w ds).analyses = (completed w ds).map (Analysis.ofPacked w) := by
  induction ds with
  | nil => rfl
  | cons d ds ih =>
      rw [ofDeclarations, completed, List.takeWhile_cons]
      by_cases h : (d.packed w).totalSize < 10 ^ Decimal.digitLimit
      · rw [Analysis.ofDeclaration_of_writable ((d.totalSize_writable_iff w).mpr h),
          if_pos (decide_eq_true h), List.map_cons]
        exact congrArg (Analysis.ofPacked w d :: ·) ih
      · have hnot := mt (d.totalSize_writable_iff w).mp h
        rw [Analysis.ofDeclaration_of_not_writable (eq_false_of_ne_true hnot),
          if_neg (mt of_decide_eq_true h)]
        rfl

/-- All declarations are completed exactly if the sizes of all can be written. -/
theorem completed_eq_self_iff {w : WordSize} {ds : List Declaration} :
    completed w ds = ds ↔ ∀ d ∈ ds, Decimal.writable (d.packed w).totalSize = true := by
  rw [completed, List.takeWhile_eq_self_iff]
  refine forall₂_congr fun d _ => ?_
  rw [decide_eq_true_iff, d.totalSize_writable_iff w]

theorem result_eq (w : WordSize) (ds : List Declaration) :
    (ofDeclarations w ds).result =
      if completed w ds = ds then .ok (ds.map (Analysis.ofPacked w)) else .error ⟨⟩ := by
  by_cases h : completed w ds = ds
  · rw [if_pos h]
    exact result_of_writable (completed_eq_self_iff.mp h)
  · rw [if_neg h]
    have hsome := mt completed_eq_self_iff.mpr h
    push Not at hsome
    obtain ⟨d, hd, hsize⟩ := hsome
    exact result_of_not_writable hd (eq_false_of_ne_true hsize)

end Progressed

namespace Session

/-- A call of a session: a document is opened, given as a text or as the path of a file in the tree
    that is there at the time, or counting begins anew. -/
inductive Call where
  | text (source : Text)
  | file (tree : FileTree) (path : Path)
  | reset
  deriving DecidableEq

/-- What a call gives back, and the session behind it. -/
def perform (s : Session) : Call → Option (Except Fault (List Analysis)) × Session
  | .text source => (some (s.openText source).1, (s.openText source).2)
  | .file tree path =>
    (some ({ s with tree }.openFile path).1, ({ s with tree }.openFile path).2)
  | .reset => (none, s.resetCounters)

/-- The session behind some calls. -/
def after (s : Session) (calls : List Call) : Session :=
  calls.foldl (fun s call => (s.perform call).2) s

/-! ## What the calls amount to -/

namespace Call

/-- The document that a call comes to analyse, if it does. -/
def source? : Call → Option Text
  | text source => some source
  | file tree path => (tree.read path).toOption
  | reset => none

/-- Does the call read a file, down to its last character? -/
def readsFile : Call → Bool
  | file tree path => (tree.read path).isOk
  | _ => false

/-- The declarations whose analyses a call completes. -/
def completed (w : WordSize) (allNames : Bool) (call : Call) : List Declaration :=
  call.source?.elim [] fun source => GoLayout.completed w (Document.declarations allNames source)

/-- What a call gives back of a document: an entry for each declaration, unless one of them is not
    completed. -/
def answerTo (w : WordSize) (allNames : Bool) (source : Text) : Except Fault (List Analysis) :=
  if GoLayout.completed w (Document.declarations allNames source) =
      Document.declarations allNames source then
    .ok ((Document.declarations allNames source).map (Analysis.ofPacked w))
  else .error (.size ⟨⟩)

/-- What a call gives back. -/
def answer (w : WordSize) (allNames : Bool) : Call → Option (Except Fault (List Analysis))
  | text source => some (answerTo w allNames source)
  | file tree path =>
    match tree.read path with
    | .ok source => some (answerTo w allNames source)
    | .error f => some (.error (.file f))
  | reset => none

end Call

/-- The counters behind a call: one document more if the call read a file, and the declarations more
    that it completed. -/
def Call.counted (w : WordSize) (allNames : Bool) (call : Call) (c : Counters) : Counters :=
  if call = .reset then .zero
  else
    (if call.readsFile then c.countDocument else c).countAnalyses
      ((call.completed w allNames).map (Analysis.ofPacked w))

/-- What was done by some calls: the files that were read, the declarations that were completed, and
    the fields of these. -/
def tally (w : WordSize) (allNames : Bool) (calls : List Call) : Counters where
  documents := calls.countP Call.readsFile
  declarations := (calls.flatMap (Call.completed w allNames)).length
  fields := (((calls.flatMap (Call.completed w allNames)).map (·.fields.length)).sum : Nat)

/-- The calls since counting last began anew. -/
def sinceReset (calls : List Call) : List Call := calls.rtakeWhile (· ≠ .reset)

/-! ## One call -/

variable {s : Session} {w : WordSize} {allNames : Bool} {calls : List Call}

/-- The session counts, for a configuration that stays as it is. -/
structure Configured (w : WordSize) (allNames : Bool) (s : Session) : Prop where
  word : s.word = w
  allNames : s.allNames = allNames
  counting : s.counting = true

theorem Configured.count (h : s.Configured w allNames) (f : Counters → Counters) :
    s.count f = { s with counters := f s.counters } := if_pos h.counting

/-- A document adds the declarations of it that are completed, and nothing else counts. -/
theorem openText_eq (h : s.Configured w allNames) (source : Text) : ∃ analyses,
    s.openText source = (Call.answerTo w allNames source,
      { s with
        counters := s.counters.countAnalyses
          ((GoLayout.completed w (Document.declarations allNames source)).map
            (Analysis.ofPacked w))
        analyses }) := by
  have hcount := h.count
  obtain ⟨rfl, rfl, -⟩ := h
  have hanalyses : (Progressed.ofSource s.word s.allNames source).analyses = _ :=
    Progressed.analyses_eq s.word (Document.declarations s.allNames source)
  have hresult : (Progressed.ofSource s.word s.allNames source).result = _ :=
    Progressed.result_eq s.word (Document.declarations s.allNames source)
  rw [openText, hcount, hanalyses, hresult, Call.answerTo]
  -- the analyses that were completed are counted, whether or not they are handed out
  by_cases hall : GoLayout.completed s.word (Document.declarations s.allNames source) =
      Document.declarations s.allNames source
  · rw [if_pos hall, if_pos hall]
    exact ⟨_, rfl⟩
  · rw [if_neg hall, if_neg hall]
    exact ⟨s.analyses, rfl⟩

/-- What a call does: it gives its answer, it counts, and it leaves the configuration as it is. -/
theorem perform_eq (h : s.Configured w allNames) (call : Call) : ∃ tree analyses,
    s.perform call = (call.answer w allNames,
      { s with tree, counters := call.counted w allNames s.counters, analyses }) := by
  cases call with
  | text source =>
      obtain ⟨analyses, hopen⟩ := openText_eq h source
      refine ⟨s.tree, analyses, ?_⟩
      rw [perform, hopen, Call.counted, if_neg (by simp)]
      rfl
  | file tree path =>
      have hs : ({ s with tree } : Session).Configured w allNames :=
        ⟨h.word, h.allNames, h.counting⟩
      have htree : ({ s with tree } : Session).tree.read path = tree.read path := rfl
      rw [perform, openFile, htree, hs.count, Call.counted, if_neg (by simp), Call.answer,
        Call.readsFile, Call.completed, Call.source?]
      -- a file that cannot be read leaves the counters as they are
      cases tree.read path with
      | error f => exact ⟨tree, s.analyses, rfl⟩
      | ok source =>
          obtain ⟨analyses, hopen⟩ := openText_eq
            (s := { s with tree, counters := s.counters.countDocument })
            ⟨h.word, h.allNames, h.counting⟩ source
          refine ⟨tree, analyses, ?_⟩
          dsimp only
          rw [hopen]
          rfl
  | reset => exact ⟨s.tree, s.analyses, rfl⟩

/-! ## All calls -/

/-- One call more adds what this call counts. -/
theorem tally_concat (call : Call) (h : call ≠ .reset) :
    tally w allNames (calls ++ [call]) = call.counted w allNames (tally w allNames calls) := by
  rw [Call.counted, if_neg h, Counters.countAnalyses_eq, List.length_map, List.map_map]
  simp only [tally, List.countP_append, List.countP_singleton, List.flatMap_append,
    List.flatMap_singleton, List.length_append, List.map_append, List.sum_append, Int.natCast_add]
  cases call.readsFile with
  | false =>
      rw [if_neg Bool.false_ne_true, if_neg Bool.false_ne_true]
      rfl
  | true => rfl

/-- A reset leaves no calls behind it, any other call is one more. -/
theorem sinceReset_concat (call : Call) :
    sinceReset (calls ++ [call]) = if call = .reset then [] else sinceReset calls ++ [call] := by
  rw [sinceReset, List.rtakeWhile_concat]
  by_cases h : call = .reset
  · simp [h]
  · simp [h, sinceReset]

theorem after_concat (s : Session) (calls : List Call) (call : Call) :
    s.after (calls ++ [call]) = ((s.after calls).perform call).2 := by
  rw [after, List.foldl_append]
  rfl

/-- Behind any calls the counters tell what was done since the last reset. -/
theorem Configured.after (h : s.Configured w allNames) (hzero : s.counters = .zero)
    (calls : List Call) :
    (s.after calls).Configured w allNames ∧
      (s.after calls).counters = tally w allNames (sinceReset calls) := by
  -- along the calls from the front, so that the last one acts on what the others have left
  induction calls using List.reverseRecOn with
  | nil => exact ⟨h, hzero⟩
  | append_singleton calls call ih =>
      obtain ⟨hconfigured, hcounters⟩ := ih
      obtain ⟨tree, analyses, hperform⟩ := perform_eq hconfigured call
      rw [after_concat, hperform, sinceReset_concat]
      refine ⟨⟨hconfigured.word, hconfigured.allNames, hconfigured.counting⟩, ?_⟩
      show call.counted w allNames (s.after calls).counters = _
      by_cases hreset : call = .reset
      · rw [if_pos hreset, Call.counted, if_pos hreset]
        rfl
      · rw [if_neg hreset, tally_concat call hreset, hcounters]

/-- A session starts with its counters at zero, and counts if it is asked to. -/
theorem start_eq_ok {c : Config} (h : start c true = .ok s) :
    s.Configured s.word s.allNames ∧ s.counters = .zero := by
  rw [start] at h
  cases hcheck : WordSize.check c.wordSize with
  | error e =>
      rw [hcheck] at h
      exact nomatch h
  | ok word =>
      rw [hcheck] at h
      obtain rfl := Except.ok.inj h
      exact ⟨⟨rfl, rfl, rfl⟩, rfl⟩

/-- Behind any calls the counters of a session tell how many files were read since counting last
    began anew, how many declarations were completed and how many fields these have.  What a call
    gives back does not depend on the calls before it: an entry for each declaration if all are
    completed, and otherwise the reason why it failed. -/
theorem counters_after {c : Config} (h : start c true = .ok s) (calls : List Call) :
    (s.after calls).counters = tally s.word s.allNames (sinceReset calls) ∧
      ∀ call, ((s.after calls).perform call).1 = call.answer s.word s.allNames := by
  obtain ⟨hconfigured, hzero⟩ := start_eq_ok h
  obtain ⟨hafter, hcounters⟩ := hconfigured.after hzero calls
  refine ⟨hcounters, ?_⟩
  intro call
  obtain ⟨tree, analyses, hperform⟩ := perform_eq hafter call
  rw [hperform]

/-- One file of Go source and one that is no text. -/
def twoFiles : FileTree :=
  ⟨[(["a.go"],
      ("type A struct \x7b x, y int; z bool \x7d\ntype B struct \x7b\x7d" : String).toList.map
        fun c => c.toNat.toUInt8),
    (["c.go"], [0xff])], []⟩

/-- Two documents before the reset, and behind it a text and three files, of which one is read. -/
def mixedCalls : List Call :=
  [.text "type D struct \x7b d int \x7d", .file twoFiles ⟨[], ["a.go"]⟩, .reset,
    .file twoFiles ⟨[], ["c.go"]⟩, .file twoFiles ⟨[], ["a.go"]⟩, .file .empty ⟨[], ["a.go"]⟩,
    .text "type C struct \x7b c int \x7d"]

/-- What was counted before the reset is forgotten, and the files that cannot be read count for
    nothing. -/
theorem counters_after_mixed : ∃ s, start Config.default true = .ok s ∧
    (s.after mixedCalls).counters = ⟨1, 3, 3⟩ ∧
    ∃ f, ((s.after mixedCalls).perform (.file .empty ⟨[], ["a.go"]⟩)).1 =
      some (.error (.file f)) := by
  have hstart : start Config.default true =
      .ok ⟨.empty, .eight, false, true, true, .zero, []⟩ := rfl
  obtain ⟨hcounters, hanswers⟩ := counters_after hstart mixedCalls
  have htally : tally .eight false (sinceReset mixedCalls) = ⟨1, 3, 3⟩ := by decide +kernel
  exact ⟨_, hstart, hcounters.trans htally, _, hanswers _⟩

end Session

end GoLayout
