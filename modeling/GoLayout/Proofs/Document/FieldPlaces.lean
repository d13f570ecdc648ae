import GoLayout.Proofs.Document.RunPlaces
import GoLayout.Proofs.FieldLine.Placing

/-! # Where fields are named on their lines

    The names of a run are located one behind the other from the column on where it starts, and
    none of them beyond the end of its first segment (`FieldRun.LiesIn.namedIn`).  So the fields of
    runs in order are named in order, with a column between neighbours on a line
    (`OpenRun.InOrder.fields_pairwise`). -/

namespace GoLayout

open Text

/-- The field is named on the line between two columns, as a whole word. -/
structure Field.NamedIn (raw : Text) (line first limit : Nat) (f : Field) : Prop where
  line_eq : f.location.line = line
  first_le : first ≤ f.location.startColumn
  end_le : f.location.endColumn ≤ limit
  end_eq : f.location.endColumn = f.location.startColumn + f.name.length
  isIdentifier : Identifier.isIdentifier f.name = true
  isWordAt : IsWordAt raw f.name f.location.startColumn

/-- The first field is named on a line further up, or on the same line with a column between the
    two names. -/
def Field.Precedes (f g : Field) : Prop :=
  f.location.line < g.location.line ∨
    f.location.line = g.location.line ∧ f.location.endColumn < g.location.startColumn

/-- Where some names stand there is room for them. -/
theorem StandIn.le_limit {line : Text} {limit : Nat} (names : List Text) :
    ∀ {start : Nat}, StandIn line limit start names → start ≤ limit := by
  induction names with
  | nil => intro start h; exact h
  | cons name names ih =>
      intro start h
      obtain ⟨column, hle, -, -, hrest⟩ := h
      have hlimit := ih hrest
      omega

namespace FieldRun

variable {r : FieldRun} {l : CodeLine} {limit : Nat} {names rest : List Text} {next : Text}

/-- Names that stand on the line in order are placed on it in order. -/
theorem placeNames_namedIn (r : FieldRun) (type : Text) (names : List Text) :
    ∀ {column start : Nat}, column ≤ start → StandIn r.raw limit start names →
      (∀ f ∈ r.placeNames type column names, f.NamedIn r.raw r.line column limit) ∧
        (r.placeNames type column names).Pairwise Field.Precedes := by
  induction names with
  | nil => intro column start _ _; exact ⟨nofun, .nil⟩
  | cons name names ih =>
      intro column start hle h
      obtain ⟨real, hreal, hname, hword, hrest⟩ := h
      obtain ⟨hge, hreach, hfound⟩ := Column.locate_isWordAt hword (Nat.le_trans hle hreal)
      rw [placeNames]
      generalize Column.locate r.raw name column = found at hge hreach hfound
      -- the next search starts no further to the right than the next name stands
      obtain ⟨hmore, hpairwise⟩ := ih (Nat.add_le_add_right hreach name.length) hrest
      have hlimit := StandIn.le_limit names hrest
      refine ⟨fun f hf => ?_, .cons (fun g hg => .inr ?_) hpairwise⟩
      · rcases List.mem_cons.mp hf with rfl | hf
        · exact ⟨rfl, hge, show found + name.length ≤ limit by omega, rfl, hname, hfound⟩
        · have h := hmore f hf
          have hfirst := h.first_le
          exact ⟨h.line_eq, by omega, h.end_le, h.end_eq, h.isIdentifier, h.isWordAt⟩
      · have h := hmore g hg
        refine ⟨h.line_eq.symm, Nat.lt_of_le_of_ne h.first_le fun heq => ?_⟩
        refine hfound.not_adjacent h.isIdentifier ?_
        have heq' : found + name.length = g.location.startColumn := heq
        rw [heq']
        exact h.isWordAt

/-- A run of several segments starts with what stands between the outer blanks of the first. -/
theorem exists_text (h : r.Opens) (hparts : r.parts = r.head :: next :: rest) :
    ∃ more, r.text = Text.trim r.head ++ more ∧ ∃ c ∈ Text.trim r.head, isOpening c = true := by
  obtain ⟨c, hc, hopening⟩ := h
  have htrim : c ∈ Text.trim r.head := by
    obtain ⟨before, behind, hbefore, hbehind, hsplit⟩ := Text.exists_trim r.head
    have hblank : isBlank c = false := by
      refine eq_false_of_ne_true fun hblank => ?_
      rw [isOpening_of_isBlank hblank] at hopening
      exact nomatch hopening
    rw [hsplit, List.mem_append, List.mem_append] at hc
    refine (hc.resolve_left fun hmem => ?_).resolve_right fun hmem => ?_
    · exact absurd (hbefore c hmem) (ne_true_of_eq_false hblank)
    · exact absurd (hbehind c hmem) (ne_true_of_eq_false hblank)
  -- the bracket in the first segment keeps it from being left out as blank
  have hkept : (!(Text.trim r.head).isEmpty) = true := by
    cases hnil : Text.trim r.head with
    | nil => rw [hnil] at htrim; exact nomatch htrim
    | cons d t => rfl
  have htext : r.text = Text.joinWith [' '] (Text.trim r.head ::
      ((next :: rest).map Text.trim).filter (!·.isEmpty)) := by
    rw [text, hparts]
    dsimp only
    rw [joined, hparts, List.map_cons]
    exact congrArg (Text.joinWith [' ']) (List.filter_cons_of_pos hkept)
  rw [htext]
  generalize ((next :: rest).map Text.trim).filter (!·.isEmpty) = parts
  cases parts with
  | nil => exact ⟨[], (List.append_nil _).symm, c, htrim, hopening⟩
  | cons part parts => exact ⟨_, List.append_assoc _ _ _, c, htrim, hopening⟩

/-- Behind an opening bracket nothing is named, so that the names of a run stand in its first
    segment. -/
theorem LiesIn.namesInOrder (h : r.LiesIn l) (hnames : NamesInOrder r.text names) :
    NamesInOrder r.head names := by
  have hsingle : r.parts = [r.head] → r.text = r.head := by
    intro hparts
    rw [text, hparts]
  cases hparts : r.parts with
  | nil => exact absurd hparts h.parts_ne_nil
  | cons first rest =>
      have hfirst : r.head = first := by rw [head, hparts]; rfl
      -- a single segment is the text; of several ones only the first can be open, and it holds the
      -- names
      cases rest with
      | nil => rwa [hsingle (by rw [hparts, hfirst])] at hnames
      | cons next rest =>
          have hopens : r.Opens := h.whole_or_opens.resolve_left fun hwhole => by
            rw [hparts] at hwhole
            exact nomatch hwhole
          rw [← hfirst] at hparts
          obtain ⟨more, htext, hbracket⟩ := exists_text hopens hparts
          have htrim := hnames.of_append htext (.inr hbracket)
          obtain ⟨before, behind, hbefore, hbehind, hsplit⟩ := Text.exists_trim r.head
          rw [hsplit]
          exact (htrim.append (startsInWord_of_allBlank hbehind)).prepend_blank hbefore

/-- The fields of a run are named in its first segment. -/
theorem LiesIn.namedIn (h : r.LiesIn l) (allNames : Bool) :
    (∀ f ∈ r.fields allNames,
        f.NamedIn l.raw l.number r.column (r.column + r.head.length)) ∧
      (r.fields allNames).Pairwise Field.Precedes := by
  rw [fields]
  cases hclassify : FieldLine.classify r.text with
  | none => exact ⟨List.forall_mem_nil _, .nil⟩
  | some found =>
      -- without all names the first one is placed, which is a prefix of them
      have hprefix : (if allNames then found.names else found.names.take 1) <+: found.names := by
        split
        · exact List.prefix_rfl
        · exact List.take_prefix _ _
      have hnames := h.namesInOrder ((FieldLine.classify_namesInOrder hclassify).of_first hprefix)
      obtain ⟨before, behind, hkeeps, hcolumn, hbefore, hbehind⟩ := h.codeAt
      have hstand := hnames.standIn hbehind hkeeps (.inl hbefore)
      rw [hcolumn, ← h.raw_eq] at hstand
      have hplaced := placeNames_namedIn r found.type _ (Nat.le_refl _) hstand
      rw [h.raw_eq, h.line_eq] at hplaced
      exact hplaced

end FieldRun

/-- The fields of runs in order are named in order, each on a line that the runs lie on. -/
theorem OpenRun.InOrder.fields_pairwise {lines : List CodeLine} {bound : Nat}
    {runs : List FieldRun} (h : OpenRun.InOrder lines bound runs) (allNames : Bool) :
    (runs.flatMap (FieldRun.fields allNames)).Pairwise Field.Precedes := by
  refine List.pairwise_flatMap.mpr ⟨fun r hr => ?_, ?_⟩
  · obtain ⟨l, -, hlies⟩ := h.liesIn r hr
    exact (hlies.namedIn allNames).2
  · refine h.ordered.imp_of_mem fun {r r'} hr hr' hprecedes f hf g hg => ?_
    -- fields of two runs: the one in front ends where its own segment does
    obtain ⟨l, -, hlies⟩ := h.liesIn r hr
    obtain ⟨l', -, hlies'⟩ := h.liesIn r' hr'
    have hfirst := (hlies.namedIn allNames).1 f hf
    have hsecond := (hlies'.namedIn allNames).1 g hg
    rw [← hlies.line_eq] at hfirst
    rw [← hlies'.line_eq] at hsecond
    have hend := hfirst.end_le
    have hstart := hsecond.first_le
    rw [Field.Precedes, hfirst.line_eq, hsecond.line_eq]
    rcases hprecedes with hline | ⟨hline, hcolumn⟩
    · exact .inl hline
    · exact .inr ⟨hline, by omega⟩

end GoLayout
