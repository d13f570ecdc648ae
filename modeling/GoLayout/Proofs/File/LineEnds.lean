import GoLayout.Proofs.File.Utf8
import GoLayout.Proofs.Text.Lines
import GoLayout.Session

/-! # Line ends of files

    A file is opened as the text that it encodes (`openFile_encode`), although carriage returns
    go at two different places: a file loses them while it is read, and a text at the end of each
    of its lines. Where every carriage return belongs to a line end, both lead to the text with
    plain line feeds:

    * reading a file makes a line feed of every line end, which is all it changes in a text whose
      carriage returns are paired (`unify_eq_unpair`);
    * a text and the text with plain line feeds have the same lines (`sourceLines_unpair`), and
      all that is found in a document is found in its lines. -/

namespace GoLayout

/-! ## Paired carriage returns -/

namespace Newline

/-- Every carriage return is directly followed by a line feed. -/
def Paired : Text → Prop
  | [] => True
  | c :: t => (c = '\r' → t.head? = some '\n') ∧ Paired t

instance decidablePaired : (t : Text) → Decidable (Paired t)
  | [] => isTrue trivial
  | c :: t =>
      have := decidablePaired t
      inferInstanceAs (Decidable ((c = '\r' → t.head? = some '\n') ∧ Paired t))

/-- The text with a line feed in place of every carriage return and line feed. -/
def unpair : Text → Text
  | [] => []
  | c :: t => if c = '\r' ∧ t.head? = some '\n' then unpair t else c :: unpair t

theorem unpair_return {t : Text} (h : t.head? = some '\n') : unpair ('\r' :: t) = unpair t :=
  if_pos ⟨rfl, h⟩

theorem unpair_cons {c : Char} (h : c ≠ '\r') (t : Text) : unpair (c :: t) = c :: unpair t :=
  if_neg fun hc => h hc.1

namespace Reader

/-- What has been read in front of the carriage return that may have been the last character. -/
def settled (r : Reader) : Text := if r.afterReturn then r.done.tail else r.done

/-- A carriage return has been read as a line feed, and its own line feed comes next. -/
def Awaits (r : Reader) (t : Text) : Prop :=
  r.afterReturn = true → r.done.head? = some '\n' ∧ t.head? = some '\n'

theorem awaits_of_false (done t : Text) : Awaits ⟨done, false⟩ t := fun h => nomatch h

/-- Without a line feed ahead no carriage return is waited for. -/
theorem Awaits.afterReturn_eq_false {t : Text} {r : Reader} (hr : r.Awaits t)
    (h : t.head? ≠ some '\n') : r.afterReturn = false :=
  Bool.eq_false_iff.mpr fun hafter => h (hr hafter).2

/-- Any other character than a carriage return is read as it is. -/
theorem read_of_ne {c : Char} (h : c ≠ '\r') {t : Text} {r : Reader} (hr : r.Awaits (c :: t)) :
    r.read c = ⟨c :: r.settled, false⟩ := by
  rw [read, if_neg h]
  obtain ⟨done, afterReturn⟩ := r
  cases afterReturn with
  | false => simp [settled]
  | true =>
      obtain ⟨hdone, hnext⟩ := hr rfl
      obtain ⟨done, rfl⟩ := List.head?_eq_some_iff.mp hdone
      obtain rfl : c = '\n' := Option.some.inj hnext
      rfl

/-- A line feed that was read ahead, for a carriage return, is settled by the one that follows. -/
theorem foldl_read {t : Text} (h : Paired t) {r : Reader} (hr : r.Awaits t) :
    (t.foldl read r).done = (unpair t).reverse ++ r.settled := by
  induction t generalizing r with
  | nil =>
      have hafter := hr.afterReturn_eq_false (by simp)
      simp [settled, hafter, unpair]
  | cons c t ih =>
      obtain ⟨hpair, ht⟩ := h
      rw [List.foldl_cons]
      -- a carriage return is held back until the line feed behind it is read
      by_cases hreturn : c = '\r'
      · subst hreturn
        have hnext := hpair rfl
        have hafter := hr.afterReturn_eq_false (by simp)
        rw [unpair_return hnext, ih ht (r := r.read '\r') fun _ => ⟨rfl, hnext⟩]
        simp [read, settled, hafter]
      · rw [read_of_ne hreturn hr, ih ht (awaits_of_false _ t), unpair_cons hreturn,
          List.reverse_cons, List.append_assoc]
        rfl

end Reader

/-- Reading a file changes nothing but the line ends of two characters. -/
theorem unify_eq_unpair {t : Text} (h : Paired t) : unify t = unpair t := by
  rw [unify, Reader.foldl_read h (Reader.awaits_of_false [] t), List.reverse_append,
    List.reverse_reverse]
  rfl

end Newline

/-! ## Lines -/

/-- A character in front changes the lines of texts with the same lines in the same way. -/
theorem sourceLines_cons_congr (c : Char) {t u : Text} (h : sourceLines t = sourceLines u) :
    sourceLines (c :: t) = sourceLines (c :: u) := by
  rw [sourceLines, sourceLines, Text.splitOn_cons, Text.splitOn_cons]
  by_cases hbreak : c = '\n'
  · rw [if_pos hbreak, if_pos hbreak, List.map_cons, List.map_cons]
    exact congrArg _ h
  · rw [if_neg hbreak, if_neg hbreak]
    rw [sourceLines, sourceLines] at h
    obtain ⟨first, more, ht⟩ := List.exists_cons_of_ne_nil (Text.splitOn_ne_nil '\n' t)
    obtain ⟨first', more', hu⟩ := List.exists_cons_of_ne_nil (Text.splitOn_ne_nil '\n' u)
    rw [ht, hu, List.map_cons, List.map_cons, List.cons.injEq] at h
    rw [ht, hu, Text.glue, Text.glue, List.map_cons, List.map_cons, Text.dropTrailing_cons,
      Text.dropTrailing_cons, h.1, h.2]

/-- A text has the lines of the text with plain line feeds. -/
theorem sourceLines_unpair (t : Text) : sourceLines (Newline.unpair t) = sourceLines t := by
  induction t with
  | nil => rfl
  | cons c t ih =>
      rw [Newline.unpair]
      split
      · next h =>
        obtain ⟨rfl, hnext⟩ := h
        obtain ⟨t, rfl⟩ := List.head?_eq_some_iff.mp hnext
        exact ih
      · exact sourceLines_cons_congr c ih

/-! ## Documents -/

/-- All that is found in a document is found in its lines. -/
theorem Progressed.ofSource_congr {t u : Text} (h : sourceLines t = sourceLines u)
    (w : WordSize) (allNames : Bool) : ofSource w allNames t = ofSource w allNames u := by
  have hfindings : Document.findings t = Document.findings u := by
    rw [Document.findings, Document.findings, h]
  have hdeclarations : Document.declarations allNames t = Document.declarations allNames u := by
    rw [Document.declarations, Document.declarations, hfindings]
  have hrecords : Document.records allNames t = Document.records allNames u := by
    rw [Document.records, Document.records, hfindings, hdeclarations, h]
  rw [ofSource, ofSource, hdeclarations, hrecords]

/-- A text is read back from its bytes, with its line ends translated. -/
theorem textOfBytes_encode {t : Text} (h : Newline.Paired t) :
    textOfBytes (Utf8.encode t) = .ok (Newline.unpair t) := by
  rw [textOfBytes, Utf8.decode_encode, ← Newline.unify_eq_unpair h]

namespace Session

variable {s : Session}

theorem openText_congr {t u : Text} (h : sourceLines t = sourceLines u) :
    s.openText t = s.openText u := by
  rw [openText, openText, Progressed.ofSource_congr h]

/-- What comes of a document hangs on two settings of the session. -/
theorem openText_fst (source : Text) : (s.openText source).1 =
    (Progressed.ofSource s.word s.allNames source).result.mapError Fault.size := by
  rw [openText]
  cases (Progressed.ofSource s.word s.allNames source).result <;> rfl

/-- What was counted before makes no difference to what is opened. -/
theorem openText_count (f : Counters → Counters) (source : Text) :
    ((s.count f).openText source).1 = (s.openText source).1 := by
  rw [openText_fst, openText_fst, count]
  split <;> rfl

/-- A file with the bytes of a text whose carriage returns are paired is read as the text with
    plain line feeds, and opened as the text itself: both texts have the same analyses, with the
    same records. -/
theorem openFile_encode {path : Path} {source : Text} (hpaired : Newline.Paired source)
    (hbytes : s.tree.bytes path = .ok (Utf8.encode source)) :
    s.tree.read path = .ok (Newline.unpair source) ∧
    (∀ w allNames, Progressed.ofSource w allNames (Newline.unpair source) =
      Progressed.ofSource w allNames source) ∧
    s.openFile path = (s.count Counters.countDocument).openText source ∧
    (s.openFile path).1 = (s.openText source).1 ∧
    s.openText (Newline.unpair source) = s.openText source := by
  have hlines := sourceLines_unpair source
  have hread : s.tree.read path = .ok (Newline.unpair source) := by
    rw [FileTree.read, hbytes]
    exact textOfBytes_encode hpaired
  have hopen : s.openFile path = (s.count Counters.countDocument).openText source := by
    rw [openFile, hread]
    exact openText_congr hlines
  refine ⟨hread, Progressed.ofSource_congr hlines, hopen, ?_, openText_congr hlines⟩
  rw [hopen, openText_count]

/-- A struct between line ends of two characters, with characters of one to four bytes. -/
def returnsSource : Text :=
  "\ufeff// \u00e9\u20ac\r\ntype S struct \x7b\r\n\ta bool // \u4e16\r\n\tb int\r\n\x7d\r\n" ++
    [Char.ofNat 0x1f600, '\r', '\n']

/-- A session in a directory with a file of that text. -/
def returnsSession : Session :=
  ⟨⟨[(["a.go"], Utf8.encode returnsSource)], []⟩, .eight, false, true, true, .zero, []⟩

/-- A file with line ends of two characters. -/
theorem openFile_returnsSource : Newline.Paired returnsSource ∧
    returnsSession.tree.bytes ⟨[], ["a.go"]⟩ = .ok (Utf8.encode returnsSource) ∧
    Newline.unpair returnsSource ≠ returnsSource ∧
    (returnsSession.openFile ⟨[], ["a.go"]⟩).1 = (returnsSession.openText returnsSource).1 ∧
    returnsSession.openText (Newline.unpair returnsSource) =
      returnsSession.openText returnsSource := by
  have hpaired : Newline.Paired returnsSource := by decide +kernel
  have hbytes : returnsSession.tree.bytes ⟨[], ["a.go"]⟩ = .ok (Utf8.encode returnsSource) := rfl
  obtain ⟨-, -, -, hopen, hplain⟩ := openFile_encode hpaired hbytes
  exact ⟨hpaired, hbytes, by decide +kernel, hopen, hplain⟩

end Session

end GoLayout
