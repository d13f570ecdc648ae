import GoLayout.Proofs.Document.BodyPlaces
import GoLayout.Proofs.Layout.BestOrder
import GoLayout.Analysis

/-! # Cursors find what they stand on

    A cursor anywhere on the name of a field, or right behind it, finds the struct of the field,
    the field and its place in the layout (`Analysis.foundAt_location`).  The route:

    * reading goes on below the body of a struct, so that the regions of structs have no line in
      common (`Document.Run.located`);
    * the fields of a struct are named in order inside its region, with a column between
      neighbours on a line, so that no cursor touches two names;
    * where at most one entry of a list holds a cursor, every look-up finds that one
      (`lookup_of_pairwise`). -/

namespace GoLayout

/-- Where at most one entry of a list passes a test, every look-up finds that one. -/
theorem lookup_of_pairwise {α : Type} {R : α → α → Prop} {l : List α} {p : α → Bool} {i : Nat}
    {a : α} (h : l.Pairwise R) (hR : ∀ x y, R x y → p x = true → p y = true → False)
    (hi : l[i]? = some a) (ha : p a = true) :
    l.find? p = some a ∧ l.findIdx? p = some i ∧
      ∀ j b, l[j]? = some b → p b = true → j = i := by
  obtain ⟨hlt, hget⟩ := List.getElem?_eq_some_iff.mp hi
  have hunique : ∀ j b, l[j]? = some b → p b = true → j = i := by
    intro j b hj hb
    obtain ⟨hlt', hget'⟩ := List.getElem?_eq_some_iff.mp hj
    rcases Nat.lt_trichotomy j i with hbefore | heq | hbehind
    · have hrel := List.pairwise_iff_getElem.mp h j i hlt' hlt hbefore
      rw [hget, hget'] at hrel
      exact (hR b a hrel hb ha).elim
    · exact heq
    · have hrel := List.pairwise_iff_getElem.mp h i j hlt hlt' hbehind
      rw [hget, hget'] at hrel
      exact (hR a b hrel ha hb).elim
  have hbefore : ∀ (j : Nat) (hj : j < l.length), j < i → ¬ p l[j] = true := by
    intro j hj hlt' hp
    have heq := hunique j _ (List.getElem?_eq_getElem hj) hp
    omega
  refine ⟨?_, ?_, hunique⟩
  · refine List.find?_eq_some_iff_getElem.mpr ⟨ha, i, hlt, hget, fun j hj => ?_⟩
    rw [eq_false_of_ne_true (hbefore j _ hj)]
    rfl
  · exact List.findIdx?_eq_some_iff_getElem.mpr
      ⟨hlt, by rw [hget]; exact ha, fun j hj => hbefore j _ hj⟩

/-! ## Regions -/

/-- The fields of the declaration are named in order on lines of its region, which ends with the
    last of these lines. -/
structure Declaration.Located (doc : List Text) (d : Declaration) : Prop where
  named : ∀ f ∈ d.fields, f.NamedBetween doc d.span.startLine d.span.endLine
  ordered : d.fields.Pairwise Field.Precedes
  startColumn_eq : d.span.startColumn = 0
  getElem?_endLine : ∃ raw, doc[d.span.endLine]? = some raw ∧ d.span.endColumn = raw.length

/-- The first region ends on a line above the second. -/
def Declaration.Above (d e : Declaration) : Prop := d.span.endLine < e.span.startLine

/-- A cursor on the name of a field is inside the region. -/
theorem Declaration.Located.contains {doc : List Text} {d : Declaration} (h : d.Located doc)
    {f : Field} (hf : f ∈ d.fields) {column : Int} (hstart : f.location.startColumn ≤ column)
    (hend : column ≤ f.location.endColumn) : d.span.contains f.location.line column = true := by
  have hnamed := h.named f hf
  obtain ⟨raw, hraw, before, behind, hsplit, hcolumn, -⟩ := hnamed.isWordAt
  obtain ⟨last, hlast, hwidth⟩ := h.getElem?_endLine
  have hfirst := hnamed.first_le
  have hle := hnamed.le_last
  have hstop := hnamed.end_eq
  have hzero := h.startColumn_eq
  have hlength : f.location.endColumn ≤ raw.length := by
    rw [hsplit, List.length_append, List.length_append]
    omega
  -- on the last line of the span the column has to be within it as well
  have hbound : f.location.line = d.span.endLine → column ≤ d.span.endColumn := by
    intro hline
    rw [hline, hlast] at hraw
    rw [hwidth, Option.some.inj hraw]
    omega
  simp only [Span.contains, Span.covers, Bool.and_eq_true, Bool.not_eq_true',
    Bool.and_eq_false_iff, decide_eq_true_eq, decide_eq_false_iff_not]
  omega

namespace Document

variable {doc lines rest : List Text} {s t : ReadState} {found : List Finding}

/-- What a step declares lies between the line where the step starts and the one where it
    stops. -/
theorem Step.located (h : Step s lines found t rest) (hs : StandsAt doc s.number lines)
    (allNames : Bool) : ∀ d ∈ found.filterMap (Finding.declaration? allNames),
      d.Located doc ∧ s.number ≤ d.span.startLine ∧ d.span.endLine < t.number := by
  cases h with
  | skip _ => exact nofun
  | discard _ _ => exact nofun
  | @struct raw below rest h first hfind hopen =>
      intro d hd
      obtain rfl := List.mem_singleton.mp hd
      have hheader : (h.rest (s.line raw)).StandsIn doc below := hs
      -- the body stands on the lines below the header, and its parts on their own
      obtain ⟨hstands, hsits⟩ :=
        Body.sits_of_opening? hheader (CodeLine.IsRest.header hfind) hopen
      obtain ⟨hparts, hpairwise⟩ := Body.readFrom_parts rest 1 first hstands hsits
      have hlast := StandsAt.getElem? (hstands.readFrom 1)
      have hfirst : s.number ≤ first.number := Body.number_le_opening? hopen
      obtain ⟨hnamed, hordered⟩ := StructSource.fields_namedBetween
        ⟨s.number, h.name, h.nameColumn (s.line raw).code, Body.read first rest⟩ hparts hpairwise
        allNames
      refine ⟨⟨fun f hf => ?_, hordered, rfl, _, hlast, rfl⟩, Nat.le_refl _, Nat.lt_succ_self _⟩
      have hf := hnamed f hf
      exact ⟨hf.isWordAt, hf.end_eq, Nat.le_trans hfirst hf.first_le, hf.le_last⟩

/-- What a run declares lies in its document, and the regions have no line in common. -/
theorem Run.located (h : Run s lines found t rest) (hs : StandsAt doc s.number lines)
    (allNames : Bool) :
    (∀ d ∈ found.filterMap (Finding.declaration? allNames),
        d.Located doc ∧ s.number ≤ d.span.startLine) ∧
      (found.filterMap (Finding.declaration? allNames)).Pairwise Declaration.Above := by
  induction h with
  | done => exact ⟨nofun, .nil⟩
  | @step s t u lines rest left found more hstep hrun ih =>
      obtain ⟨hmore, hpairwise⟩ := ih (hstep.standsAt hs)
      have hfirst := hstep.located hs allNames
      have hlt := hstep.number_lt
      rw [List.filterMap_append]
      refine ⟨fun d hd => ?_, List.pairwise_append.mpr ⟨?_, hpairwise, fun d hd e he => ?_⟩⟩
      · rcases List.mem_append.mp hd with hd | hd
        · exact ⟨(hfirst d hd).1, (hfirst d hd).2.1⟩
        · have hd := hmore d hd
          exact ⟨hd.1, by omega⟩
      · -- a step declares one struct at most
        cases hstep with
        | skip _ => exact .nil
        | discard _ _ => exact .nil
        | struct _ _ => exact List.pairwise_singleton _ _
      · exact Nat.lt_of_lt_of_le (hfirst d hd).2.2 (hmore e he).2

/-- The declarations of a document lie in it, one below the other. -/
theorem declarations_located (allNames : Bool) (source : Text) :
    (∀ d ∈ declarations allNames source, d.Located (sourceLines source)) ∧
      (declarations allNames source).Pairwise Declaration.Above := by
  have hrun := (scan_run .start (sourceLines source)).located (StandsAt.start _) allNames
  exact ⟨fun d hd => (hrun.1 d hd).1, hrun.2⟩

end Document

/-- A cursor is not inside two regions of which one ends above the other. -/
theorem Declaration.Above.disjoint {d e : Declaration} (h : d.Above e) {line column : Int}
    (hd : d.span.contains line column = true) (he : e.span.contains line column = true) :
    False := by
  simp only [Span.contains, Span.covers, Bool.and_eq_true, decide_eq_true_eq] at hd he
  have hlt : (d.span.endLine : Int) < e.span.startLine := Int.ofNat_lt.mpr h
  omega

/-- A cursor does not touch two fields of which one precedes the other. -/
theorem Field.Precedes.disjoint {f g : Field} (h : f.Precedes g) {line column : Int}
    (hf : f.location.contains line column = true) (hg : g.location.contains line column = true) :
    False := by
  simp only [Location.contains, Location.covers, Bool.and_eq_true, decide_eq_true_eq] at hf hg
  rcases h with hline | ⟨-, hcolumn⟩
  · omega
  · omega

/-! ## Analyses -/

/-- The layout of a declaration has a place for each of its fields. -/
theorem Analysis.ofDeclaration_eq_ok {w : WordSize} {d : Declaration} {a : Analysis}
    (h : Analysis.ofDeclaration w d = .ok a) :
    a.declaration = d ∧ a.layout.fields.length = d.fields.length := by
  rw [ofDeclaration] at h
  cases hlayout : d.layout w with
  | error e =>
      rw [hlayout, Except.map] at h
      exact nomatch h
  | ok l =>
      rw [hlayout, Except.map] at h
      rw [← Except.ok.inj h]
      refine ⟨rfl, ?_⟩
      show l.fields.length = d.fields.length
      have hplaces := congrArg List.length (map_placeAll (d.sizedFields w) 0)
      rw [List.length_map, List.length_map, Declaration.sizedFields, List.length_map] at hplaces
      rw [Declaration.eq_packed_of_layout hlayout]
      exact hplaces

/-- An analysis that is not stopped has an entry for each declaration. -/
theorem Progressed.ofDeclarations_of_not_stopped {w : WordSize} (ds : List Declaration) :
    (ofDeclarations w ds).stopped = none →
      (ofDeclarations w ds).analyses.map (·.declaration) = ds ∧
        ∀ a ∈ (ofDeclarations w ds).analyses,
          a.layout.fields.length = a.declaration.fields.length := by
  induction ds with
  | nil => exact fun _ => ⟨rfl, fun a ha => absurd ha List.not_mem_nil⟩
  | cons d ds ih =>
      intro h
      rw [ofDeclarations] at h ⊢
      cases hfirst : Analysis.ofDeclaration w d with
      | error e =>
          rw [hfirst] at h
          have hstopped : some e = none := h
          exact nomatch hstopped
      | ok a =>
          rw [hfirst] at h
          obtain ⟨hmap, hlength⟩ := ih h
          obtain ⟨hdeclaration, hfields⟩ := Analysis.ofDeclaration_eq_ok hfirst
          refine ⟨?_, fun b hb => ?_⟩
          · show a.declaration :: (ofDeclarations w ds).analyses.map (·.declaration) = d :: ds
            rw [hmap, hdeclaration]
          · rcases List.mem_cons.mp hb with rfl | hb
            · rw [hfields, hdeclaration]
            · exact hlength b hb

/-- An analysis that succeeds is one of each declaration, with a place for each of its fields. -/
theorem Progressed.result_eq_ok {w : WordSize} {allNames : Bool} {source : Text}
    {analyses : List Analysis} (h : (ofSource w allNames source).result = .ok analyses) :
    analyses.map (·.declaration) = Document.declarations allNames source ∧
      ∀ a ∈ analyses, a.layout.fields.length = a.declaration.fields.length := by
  rw [result] at h
  split at h
  · exact nomatch h
  · next hstopped =>
    obtain rfl := Except.ok.inj h
    exact ofDeclarations_of_not_stopped _ hstopped

/-- The source line spells the name of the field at the columns of its location. -/
def Field.Spelled (doc : List Text) (f : Field) : Prop :=
  ∃ before behind, doc[f.location.line]? = some (before ++ (f.name ++ behind)) ∧
    f.location.startColumn = before.length ∧
    f.location.endColumn = before.length + f.name.length

/-- Among the analyses of a document a cursor finds the struct, the field with its number and
    the place of the field, and nothing else. -/
structure Analysis.FoundAt (analyses : List Analysis) (a : Analysis) (i : Nat) (f : Field)
    (line column : Int) : Prop where
  structAt : structAt? analyses line column = some a
  onlyStruct : ∀ b ∈ analyses, b.declaration.span.contains line column = true → b = a
  fieldAt : a.fieldAt? line column = some f
  fieldIndexAt : a.fieldIndexAt? line column = some i
  onlyField : ∀ j g, a.declaration.fields[j]? = some g →
    g.location.contains line column = true → j = i
  place : ∃ p, a.layout.fields[i]? = some p ∧ a.placedFieldAt? line column = some (f, p)

/-- A field of a located struct is spelled where its location says. -/
theorem Declaration.Located.spelled {doc : List Text} {d : Declaration} (h : d.Located doc)
    {f : Field} (hf : f ∈ d.fields) : f.Spelled doc := by
  have hnamed := h.named f hf
  obtain ⟨raw, hraw, before, behind, rfl, hcolumn, -⟩ := hnamed.isWordAt
  exact ⟨before, behind, hraw, hcolumn.symm, by rw [hnamed.end_eq, hcolumn]⟩

theorem Location.contains_of_le {l : Location} {column : Int} (hstart : l.startColumn ≤ column)
    (hend : column ≤ l.endColumn) : l.contains l.line column = true := by
  simp only [contains, covers, Bool.and_eq_true, decide_eq_true_eq]
  exact ⟨⟨trivial, hstart⟩, hend⟩

/-- The field at a place and its layout have the same index. -/
theorem Analysis.placedFieldAt?_eq_some {a : Analysis} {line column : Int} {i : Nat} {f : Field}
    {p : Placement} (hindex : a.fieldIndexAt? line column = some i)
    (hf : a.declaration.fields[i]? = some f) (hp : a.layout.fields[i]? = some p) :
    a.placedFieldAt? line column = some (f, p) := by
  rw [placedFieldAt?, hindex]
  show (a.declaration.fields[i]?).bind _ = _
  rw [hf]
  show (a.placement? i).bind _ = _
  rw [placement?, hp]
  rfl

/-- A cursor on the name of a field or right behind it finds the field; its line spells the name
    there, and the fields of a struct are named in order. -/
theorem Analysis.foundAt_location {w : WordSize} {allNames : Bool} {source : Text}
    {analyses : List Analysis} (h : (Progressed.ofSource w allNames source).result = .ok analyses)
    {a : Analysis} (ha : a ∈ analyses) :
    a.declaration.fields.Pairwise Field.Precedes ∧
      ∀ i f, a.declaration.fields[i]? = some f → f.Spelled (sourceLines source) ∧
        ∀ column : Int, f.location.startColumn ≤ column → column ≤ f.location.endColumn →
          a.FoundAt analyses i f f.location.line column := by
  obtain ⟨hmap, hlength⟩ := Progressed.result_eq_ok h
  obtain ⟨hlocated, habove⟩ := Document.declarations_located allNames source
  rw [← hmap] at hlocated habove
  have hd := hlocated a.declaration (List.mem_map_of_mem ha)
  refine ⟨hd.ordered, fun i f hf => ?_⟩
  have hmem : f ∈ a.declaration.fields := List.mem_of_getElem? hf
  refine ⟨hd.spelled hmem, fun column hstart hend => ?_⟩
  obtain ⟨k, hk⟩ := List.mem_iff_getElem?.mp ha
  -- spans do not overlap, so that no other struct holds the place
  obtain ⟨hstruct, -, hstructIndex⟩ := lookup_of_pairwise
    (p := fun b => b.declaration.span.contains f.location.line column)
    (List.pairwise_map.mp habove) (fun b c habove hb hc => habove.disjoint hb hc) hk
    (hd.contains hmem hstart hend)
  obtain ⟨hfield, hindex, hfieldIndex⟩ := lookup_of_pairwise
    (p := fun g => g.location.contains f.location.line column)
    hd.ordered (fun g g' hprecedes hg hg' => hprecedes.disjoint hg hg') hf
    (Location.contains_of_le hstart hend)
  have honly : ∀ b ∈ analyses,
      b.declaration.span.contains f.location.line column = true → b = a := by
    intro b hb hcontains
    obtain ⟨j, hj⟩ := List.mem_iff_getElem?.mp hb
    rw [hstructIndex j b hj hcontains, hk] at hj
    exact (Option.some.inj hj).symm
  have hlt : i < a.layout.fields.length := by
    rw [hlength a ha]
    exact (List.getElem?_eq_some_iff.mp hf).1
  have hplace := List.getElem?_eq_getElem hlt
  exact ⟨hstruct, honly, hfield, hindex, hfieldIndex, _, hplace,
    placedFieldAt?_eq_some hindex hf hplace⟩

/-- A field over two lines, and behind it two more, the second of which a comment names too. -/
def namedInComment : Text := "type S struct \x7b\n\tf func( // g\n\t\tx int); g, /* h */ h T\n\x7d"

/-- The name in the comment is the first one that the line has behind the other. -/
theorem Analysis.foundAt_location_inComment : ∃ analyses a,
    (Progressed.ofSource .eight true namedInComment).result = .ok analyses ∧ a ∈ analyses ∧
      a.declaration.fields[2]? = some ⟨['h'], ['T'], ⟨2, 16, 17⟩⟩ ∧
      a.FoundAt analyses 2 ⟨['h'], ['T'], ⟨2, 16, 17⟩⟩ 2 17 := by
  have hstopped : (Progressed.ofSource .eight true namedInComment).stopped = none := by
    decide +kernel
  have hresult : (Progressed.ofSource .eight true namedInComment).result =
      .ok (Progressed.ofSource .eight true namedInComment).analyses := by
    rw [Progressed.result, hstopped]
  -- the third field of the struct, whose name stands in a comment as well
  have hfield : ∃ a ∈ (Progressed.ofSource .eight true namedInComment).analyses,
      a.declaration.fields[2]? = some ⟨['h'], ['T'], ⟨2, 16, 17⟩⟩ := by decide +kernel
  obtain ⟨a, ha, hf⟩ := hfield
  exact ⟨_, a, hresult, ha, hf,
    ((foundAt_location hresult ha).2 2 _ hf).2 17 (by decide) (by decide)⟩

end GoLayout
