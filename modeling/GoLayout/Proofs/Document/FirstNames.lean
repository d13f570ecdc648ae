import GoLayout.Proofs.Document.Reading
import GoLayout.Proofs.Layout.FewerFields

/-! # Only the first names

    A field line with several names counts as one field, unless all names are asked for.  Leaving
    the other names out changes nothing else (`declarations_firstNames`).  The route:

    * names are placed one behind the other, so that fewer of them are placed like the first of all
      (`FieldRun.placeNames_take`);
    * each field line declares one group of fields (`FieldRun.declares`), of which only the first
      is left (`StructSource.fields_false`);
    * the fields left out have the type of one that stays, so that the struct without them is not
      larger (`Declaration.HasFewer.layout_noLarger`). -/

namespace GoLayout

/-! ## The names of a field line -/

namespace FieldLine

/-- A list of names that is read has more names than were there before. -/
theorem longest?_length (chain : List (Text × Text)) :
    ∀ {before names : List Text} {type : Text}, longest? before chain = some (names, type) →
      before.length < names.length := by
  induction chain with
  | nil => intro before names type h; exact nomatch h
  | cons entry chain ih =>
      intro before names type h
      obtain ⟨name, rest⟩ := entry
      rw [longest?] at h
      split at h
      · next found hfound =>
        obtain rfl := Option.some.inj h
        have hlt := ih hfound
        rw [List.length_append, List.length_singleton] at hlt
        omega
      · obtain ⟨t, -, ht⟩ := Option.map_eq_some_iff.mp h
        obtain ⟨rfl, -⟩ := Prod.mk.inj ht
        rw [List.length_append, List.length_singleton]
        exact Nat.lt_succ_self _

/-- A field line has at least one name, and two or more exactly if it is a list of names. -/
structure CountsNames (l : FieldLine) : Prop where
  length_pos : 0 < l.names.length
  multiName_iff : l.shape = .multiName ↔ 2 ≤ l.names.length

/-- A line with one name has the shape of such a line. -/
theorem countsNames_single (name type : Text) {shape : FieldShape} (h : shape ≠ .multiName) :
    CountsNames ⟨[name], type, shape⟩ := by
  refine ⟨Nat.one_pos, ?_⟩
  constructor
  · intro hshape
    exact absurd hshape h
  · intro hlen
    exact absurd hlen (show ¬ 2 ≤ 1 by decide)

theorem classify_countsNames {text : Text} {l : FieldLine} (h : classify text = some l) :
    l.CountsNames := by
  rcases (Option.orElse_eq_some _ _ _).mp h with hnamed | ⟨-, hmore⟩
  · obtain ⟨⟨name, rest⟩, -, hnamed⟩ := Option.bind_eq_some_iff.mp hnamed
    obtain ⟨type, -, htype⟩ := Option.bind_eq_some_iff.mp hnamed
    split at htype
    · exact nomatch htype
    · obtain rfl := Option.some.inj htype
      exact countsNames_single name _ (by decide)
  rcases (Option.orElse_eq_some _ _ _).mp hmore with hmulti | ⟨-, hembedded⟩
  · rw [multiName?] at hmulti
    split at hmulti
    · exact nomatch hmulti
    · obtain ⟨⟨names, type⟩, hlongest, rfl⟩ := Option.map_eq_some_iff.mp hmulti
      have hlt : 1 < names.length := longest?_length _ hlongest
      exact ⟨Nat.lt_of_succ_lt hlt, iff_of_true rfl hlt⟩
  · obtain ⟨base, -, rfl⟩ := Option.map_eq_some_iff.mp hembedded
    exact countsNames_single base _ (by decide)

/-- The fields are those that the field line declares, which starts on the given line: one for each
    of its names, in order and all of its type. -/
structure Declares (line : Nat) (l : FieldLine) (fields : List Field) : Prop where
  counts : l.CountsNames
  names_eq : fields.map (·.name) = l.names
  type_eq : ∀ f ∈ fields, f.type = l.type
  line_eq : ∀ f ∈ fields, f.location.line = line

theorem Declares.ne_nil {line : Nat} {l : FieldLine} {fields : List Field}
    (h : l.Declares line fields) : fields ≠ [] := by
  rintro rfl
  have hpos := h.counts.length_pos
  rw [← h.names_eq] at hpos
  exact absurd hpos (Nat.lt_irrefl 0)

end FieldLine

/-! ## The fields of a run -/

namespace FieldRun

/-- The first names are placed as they are among all of them. -/
theorem placeNames_take (r : FieldRun) (type : Text) (names : List Text) :
    ∀ (k column : Nat), r.placeNames type column (names.take k) =
      (r.placeNames type column names).take k := by
  induction names with
  | nil => intro k column; rw [List.take_nil, placeNames, List.take_nil]
  | cons name names ih =>
      intro k column
      cases k with
      | zero => rfl
      | succ k => exact congrArg (_ :: ·) (ih k _)

/-- The fields have the names in their order. -/
theorem map_name_placeNames (r : FieldRun) (type : Text) (names : List Text) :
    ∀ column, (r.placeNames type column names).map (·.name) = names := by
  induction names with
  | nil => intro column; rfl
  | cons name names ih => intro column; exact congrArg (name :: ·) (ih _)

/-- All fields of a line have its type. -/
theorem type_of_mem_placeNames {r : FieldRun} {type : Text} {names : List Text} {f : Field} :
    ∀ {column}, f ∈ r.placeNames type column names → f.type = type := by
  induction names with
  | nil => intro column hf; exact nomatch hf
  | cons name names ih =>
      intro column hf
      rcases List.mem_cons.mp hf with rfl | hf
      · rfl
      · exact ih hf

/-- The fields of a run that is a field line. -/
theorem declares {r : FieldRun} {l : FieldLine} (h : FieldLine.classify r.text = some l) :
    l.Declares r.line (r.fields true) := by
  have hfields : r.fields true = r.placeNames l.type r.column l.names := by
    rw [fields, h]
    rfl
  rw [hfields]
  refine ⟨FieldLine.classify_countsNames h, r.map_name_placeNames l.type l.names r.column, ?_, ?_⟩
  · intro f hf
    exact type_of_mem_placeNames hf
  · intro f hf
    exact mem_placeNames_line hf

/-- With first names only a run has the first of its fields. -/
theorem fields_false (r : FieldRun) : r.fields false = (r.fields true).take 1 := by
  rw [fields, fields]
  cases FieldLine.classify r.text with
  | none => rfl
  | some l => exact r.placeNames_take l.type l.names 1 r.column

end FieldRun

/-! ## The fields of a struct -/

namespace StructSource

/-- The field lines of the struct, each with the number of the line that it starts on. -/
def fieldLines (s : StructSource) : List (Nat × FieldLine) :=
  s.fieldRuns.filterMap fun r => (FieldLine.classify r.text).map (r.line, ·)

/-- The fields of runs, one group for each field line. -/
theorem exists_groups (runs : List FieldRun) : ∃ groups : List (List Field),
    List.Forall₂ (fun e g => e.2.Declares e.1 g)
      (runs.filterMap fun r => (FieldLine.classify r.text).map (r.line, ·)) groups ∧
      runs.flatMap (FieldRun.fields true) = groups.flatten ∧
      runs.flatMap (FieldRun.fields false) = groups.flatMap (List.take 1) := by
  induction runs with
  | nil => exact ⟨[], .nil, rfl, rfl⟩
  | cons r runs ih =>
      obtain ⟨groups, hgroups, hall, hfirst⟩ := ih
      rw [List.flatMap_cons, List.flatMap_cons, hall, hfirst]
      -- a run that declares nothing adds no group, and any other one adds that of its fields
      cases hline : FieldLine.classify r.text with
      | none =>
          have hnone : ∀ allNames, r.fields allNames = [] := by
            intro allNames
            rw [FieldRun.fields, hline]
          refine ⟨groups, ?_, by rw [hnone]; rfl, by rw [hnone]; rfl⟩
          rw [List.filterMap_cons, hline]
          exact hgroups
      | some l =>
          refine ⟨r.fields true :: groups, ?_, rfl, ?_⟩
          · rw [List.filterMap_cons, hline]
            exact .cons (FieldRun.declares hline) hgroups
          · rw [List.flatMap_cons, r.fields_false]

end StructSource

/-- The declaration is the other one with the first names of its field lines only: where it stands
    is the same, and each field line has the first of its fields and none of the others. -/
structure Declaration.FirstNamesOf (lines : List (Nat × FieldLine)) (all first : Declaration) :
    Prop where
  name_eq : first.name = all.name
  span_eq : first.span = all.span
  nameLocation_eq : first.nameLocation = all.nameLocation
  terminated_eq : first.terminated = all.terminated
  fields : ∃ groups : List (List Field), List.Forall₂ (fun e g => e.2.Declares e.1 g) lines groups ∧
    all.fields = groups.flatten ∧ first.fields = groups.flatMap (List.take 1)

/-- The two ways to read a struct differ in the names of its field lines only. -/
theorem StructSource.firstNamesOf (s : StructSource) :
    (s.declaration true).FirstNamesOf s.fieldLines (s.declaration false) := by
  refine ⟨rfl, rfl, rfl, rfl, ?_⟩
  show ∃ groups, _ ∧ s.fields true = _ ∧ s.fields false = _
  rw [s.fields_eq, s.fields_eq]
  exact exists_groups s.fieldRuns

/-- The first fields of some groups are among all of their fields, in order. -/
theorem firsts_sublist (groups : List (List Field)) :
    (groups.flatMap (List.take 1)).Sublist groups.flatten := by
  induction groups with
  | nil => exact .slnil
  | cons g groups ih =>
      rw [List.flatMap_cons, List.flatten_cons]
      exact (List.take_sublist 1 g).append ih

/-- Every group of fields is declared by a field line. -/
theorem exists_declares {lines : List (Nat × FieldLine)} {groups : List (List Field)}
    (h : List.Forall₂ (fun e g => e.2.Declares e.1 g) lines groups) :
    ∀ g ∈ groups, ∃ line l, FieldLine.Declares line l g := by
  induction h with
  | nil => intro g hg; exact nomatch hg
  | @cons e g lines groups hdeclares _ ih =>
      intro g' hg'
      rcases List.mem_cons.mp hg' with rfl | hg'
      · exact ⟨e.1, e.2, hdeclares⟩
      · exact ih g' hg'

/-- No field line is left without a field, and its other fields have the same type. -/
theorem Declaration.FirstNamesOf.hasFewer {lines : List (Nat × FieldLine)}
    {all first : Declaration} (h : all.FirstNamesOf lines first) : first.HasFewer all := by
  obtain ⟨groups, hgroups, hall, hfirst⟩ := h.fields
  constructor
  · rw [hall, hfirst]
    exact firsts_sublist groups
  · intro f hf
    rw [hall] at hf
    obtain ⟨g, hg, hfg⟩ := List.mem_flatten.mp hf
    obtain ⟨line, l, hdeclares⟩ := exists_declares hgroups g hg
    -- a line that declares something has a first field, which has the type of all of them
    obtain ⟨f', g', rfl⟩ := List.exists_cons_of_ne_nil hdeclares.ne_nil
    refine ⟨f', ?_, ?_⟩
    · rw [hfirst]
      exact List.mem_flatMap.mpr ⟨_, hg, List.mem_cons_self⟩
    · rw [hdeclares.type_eq f' List.mem_cons_self, hdeclares.type_eq f hfg]

open Document in
/-- With first names only the same structs are found, each with the first field of every field
    line, and wherever the struct with all fields has a layout, it has one that is not larger. -/
theorem declarations_firstNames (source : Text) :
    declarations false source = (structs source).map (StructSource.declaration false) ∧
      declarations true source = (structs source).map (StructSource.declaration true) ∧
      ∀ s ∈ structs source,
        (s.declaration true).FirstNamesOf s.fieldLines (s.declaration false) ∧
        ∀ w large, (s.declaration true).layout w = .ok large →
          ∃ small, (s.declaration false).layout w = .ok small ∧
            (s.declaration false).NoLarger w (s.declaration true) small large := by
  refine ⟨declarations_eq_map false source, declarations_eq_map true source, ?_⟩
  intro s _
  refine ⟨s.firstNamesOf, ?_⟩
  intro w large hlarge
  exact s.firstNamesOf.hasFewer.layout_noLarger hlarge

/-- A struct with a list of two names and one more field. -/
def pairAndNumber : Text := "type S struct \x7b\n\ta, b bool; c int\n\x7d"

theorem declarations_firstNames_pair : ∃ s ∈ Document.structs pairAndNumber, ∃ large small,
    (s.declaration true).fields.length = 3 ∧ (s.declaration false).fields.length = 2 ∧
      (s.declaration true).layout .four = .ok large ∧
      (s.declaration false).layout .four = .ok small ∧
      (s.declaration false).NoLarger .four (s.declaration true) small large := by
  have hread : ∃ s ∈ Document.structs pairAndNumber, (s.declaration true).fields.length = 3 ∧
      (s.declaration false).fields.length = 2 ∧
      Decimal.writable ((s.declaration true).packed .four).totalSize = true := by decide +kernel
  obtain ⟨s, hs, hall, hfirst, hwritable⟩ := hread
  have hlarge := (s.declaration true).layout_eq_ok hwritable
  obtain ⟨-, hlayouts⟩ := (declarations_firstNames pairAndNumber).2.2 s hs
  obtain ⟨small, hsmall, hnoLarger⟩ := hlayouts .four _ hlarge
  exact ⟨s, hs, _, small, hall, hfirst, hlarge, hsmall, hnoLarger⟩

end GoLayout
