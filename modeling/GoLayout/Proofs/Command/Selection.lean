import GoLayout.Command.Selection
import GoLayout.Proofs.Document.Lookup

/-! # A name and a cursor select at most one struct

    A name asks for the first struct that has it, a cursor for the struct whose region holds it.
    With both given, the name comes first: the first struct of the name is selected if the cursor
    stands in it (`Command.Options.select_asking`).  A struct further below may have the same name,
    and then the order matters.  The route:

    * no cursor stands in two regions, so that the struct at a cursor is all there is at it
      (`Analysis.toList_structAt?`);
    * what a name selects has one entry at most, so that the cursor keeps it or leaves nothing
      (`Command.Options.mem_select_both`);
    * what a cursor selects has one entry at most as well, so that the cursor first and the name
      second leave every struct that has the name and holds the cursor
      (`Command.Options.select_name_select_cursor`). -/

namespace GoLayout

/-- Where at most one entry of a list passes a test, the first one is all that pass. -/
theorem toList_find?_of_pairwise {α : Type} {R : α → α → Prop} {l : List α} {p : α → Bool}
    (h : l.Pairwise R) (hR : ∀ x y, R x y → p x = true → p y = true → False) :
    (l.find? p).toList = l.filter p := by
  induction l with
  | nil => rfl
  | cons a l ih =>
      obtain ⟨hfirst, hrest⟩ := List.pairwise_cons.mp h
      rw [List.find?_cons, List.filter_cons]
      by_cases ha : p a = true
      · have hnone : l.filter p = [] := by
          refine List.filter_eq_nil_iff.mpr ?_
          intro b hb hp
          exact hR a b (hfirst b hb) ha hp
        rw [ha, if_pos rfl, hnone]
        rfl
      · rw [eq_false_of_ne_true ha, if_neg Bool.false_ne_true]
        exact ih hrest

theorem pairwise_toList {α : Type} {R : α → α → Prop} (x : Option α) : x.toList.Pairwise R := by
  cases x with
  | none => exact .nil
  | some a => exact List.pairwise_singleton R a

namespace Analysis

variable {analyses : List Analysis} {a : Analysis} {name : Text} {c : Cursor}

/-- The cursor stands in the region of the struct. -/
def holds (c : Cursor) (a : Analysis) : Bool := a.declaration.span.contains c.line c.column

/-- The struct has the name, and none in front of it has. -/
def IsFirstNamed (analyses : List Analysis) (name : Text) (a : Analysis) : Prop :=
  ∃ before behind, analyses = before ++ a :: behind ∧ a.name = name ∧ ∀ b ∈ before, b.name ≠ name

theorem IsFirstNamed.mem (h : IsFirstNamed analyses name a) : a ∈ analyses := by
  obtain ⟨before, behind, hsplit, -, -⟩ := h
  rw [hsplit]
  exact List.mem_append_cons_self

theorem IsFirstNamed.name_eq (h : IsFirstNamed analyses name a) : a.name = name := by
  obtain ⟨before, behind, -, hname, -⟩ := h
  exact hname

/-- The lookup by name gives the first struct of that name. -/
theorem named?_eq_some : named? analyses name = some a ↔ IsFirstNamed analyses name a := by
  rw [named?, List.find?_eq_some_iff_append]
  simp only [decide_eq_true_eq, Bool.not_eq_true', decide_eq_false_iff_not]
  constructor
  · rintro ⟨hname, before, behind, hsplit, hbefore⟩
    exact ⟨before, behind, hsplit, hname, hbefore⟩
  · rintro ⟨before, behind, hsplit, hname, hbefore⟩
    exact ⟨hname, before, behind, hsplit, hbefore⟩

/-- The structs stand one below the other. -/
def Below (analyses : List Analysis) : Prop :=
  analyses.Pairwise fun a b => a.declaration.Above b.declaration

/-- The structs of a text stand below each other. -/
theorem Below.of_result {w : WordSize} {allNames : Bool} {source : Text}
    (h : (Progressed.ofSource w allNames source).result = .ok analyses) : Below analyses := by
  have habove := (Document.declarations_located allNames source).2
  rw [← (Progressed.result_eq_ok h).1] at habove
  exact List.pairwise_map.mp habove

/-- The struct at a cursor is all there is at it. -/
theorem toList_structAt? (h : Below analyses) (c : Cursor) :
    (structAt? analyses c.line c.column).toList = analyses.filter (holds c) :=
  toList_find?_of_pairwise h fun _ _ habove ha hb => habove.disjoint ha hb

end Analysis

namespace Command.Options

open Analysis

/-- The options with a name, which may be empty, and a cursor, if there is one. -/
def asking (o : Options) (name : Text) (cursor : Option Cursor) : Options :=
  { o.setStructName name with cursor }

/-- The structs that have the name and hold the cursor. -/
def wanted (analyses : List Analysis) (name : Text) (c : Cursor) : List Analysis :=
  analyses.filter fun a => a.name = name && a.holds c

variable {w : WordSize} {allNames : Bool} {source : Text} {o : Options} {warnings : Bool}
  {analyses : List Analysis} {name : Text} {c : Cursor}

/-! ## One of the two -/

/-- By a name alone, the first struct of that name is selected. -/
theorem select_name (h : o.onlyOptimizable = false) (hname : name ≠ []) :
    (o.asking name none).select warnings analyses = (named? analyses name).toList := by
  simp [asking, setStructName, select, h, hname]

theorem select_noName (h : o.onlyOptimizable = false) :
    (o.asking [] none).select warnings analyses = analyses := by
  simp [asking, setStructName, select, h]

/-- By a cursor alone, the struct at the cursor is selected. -/
theorem select_cursor (h : o.onlyOptimizable = false) :
    (o.asking [] (some c)).select warnings analyses =
      (structAt? analyses c.line c.column).toList := by
  simp [asking, setStructName, select, h]

/-- With an empty name the structs that hold the cursor are selected. -/
theorem mem_select_noName (hbelow : Below analyses) (h : o.onlyOptimizable = false) {a : Analysis} :
    a ∈ (o.asking [] (some c)).select warnings analyses ↔
      a ∈ analyses ∧ a.holds c = true := by
  rw [select_cursor h, toList_structAt? hbelow, List.mem_filter]

/-! ## Both -/

/-- With both given, the name comes first. -/
theorem select_both (h : o.onlyOptimizable = false) :
    (o.asking name (some c)).select warnings analyses =
      (o.asking [] (some c)).select warnings ((o.asking name none).select warnings analyses) := by
  by_cases hname : name = []
  · rw [hname, select_noName h]
  · rw [select_name h hname, select_cursor h]
    simp [asking, setStructName, select, h, hname]

theorem mem_wanted {a : Analysis} :
    a ∈ wanted analyses name c ↔ a ∈ analyses ∧ a.name = name ∧ a.holds c = true := by
  simp [wanted]

/-- The cursor first and the name second leave every struct that has the name and holds the
    cursor. -/
theorem select_name_select_cursor (hbelow : Below analyses) (h : o.onlyOptimizable = false)
    (hname : name ≠ []) :
    (o.asking name none).select warnings ((o.asking [] (some c)).select warnings analyses) =
      wanted analyses name c := by
  rw [select_name h hname, select_cursor h, named?]
  have hnamed := toList_find?_of_pairwise (p := fun a : Analysis => a.name = name)
    (pairwise_toList (R := fun _ _ => False) (structAt? analyses c.line c.column))
    fun _ _ hfalse _ _ => hfalse
  rw [hnamed, toList_structAt? hbelow, List.filter_filter, wanted]

/-- The name first and the cursor second leave the first struct of the name if it holds the
    cursor. -/
theorem mem_select_both (h : o.onlyOptimizable = false) (hname : name ≠ []) {a : Analysis} :
    a ∈ (o.asking name (some c)).select warnings analyses ↔
      IsFirstNamed analyses name a ∧ a.holds c = true := by
  rw [select_both h, select_cursor h, select_name h hname,
    toList_structAt? (pairwise_toList _), List.mem_filter, Option.mem_toList, named?_eq_some]

/-- By a name and a cursor at most one struct is selected. -/
theorem select_both_length_le_one (h : o.onlyOptimizable = false) :
    ((o.asking name (some c)).select warnings analyses).length ≤ 1 := by
  rw [select_both h, select_cursor h]
  cases structAt? _ c.line c.column with
  | none => exact Nat.zero_le 1
  | some a => exact Nat.le_refl 1

/-- What the cursor and the name leave in the other order is selected if it is the first of the
    name, and only then. -/
theorem select_both_eq_wanted_iff (hbelow : Below analyses) (h : o.onlyOptimizable = false)
    (hname : name ≠ []) :
    (o.asking name (some c)).select warnings analyses = wanted analyses name c ↔
      ∀ a ∈ wanted analyses name c, IsFirstNamed analyses name a := by
  constructor
  · intro heq a ha
    rw [← heq] at ha
    exact ((mem_select_both h hname).mp ha).1
  · intro hfirst
    have hmem : ∀ a, a ∈ (o.asking name (some c)).select warnings analyses ↔
        a ∈ wanted analyses name c := by
      intro a
      rw [mem_select_both h hname]
      constructor
      · rintro ⟨hisFirst, hholds⟩
        exact mem_wanted.mpr ⟨hisFirst.mem, hisFirst.name_eq, hholds⟩
      · intro ha
        exact ⟨hfirst a ha, (mem_wanted.mp ha).2.2⟩
    -- both are the one entry of a look-up, if there is one
    have hlookup : wanted analyses name c =
        (named? ((o.asking [] (some c)).select warnings analyses) name).toList := by
      rw [← select_name_select_cursor hbelow h hname, select_name h hname]
    rw [hlookup, select_both h, select_cursor h] at hmem ⊢
    refine congrArg Option.toList (Option.ext ?_)
    intro a
    rw [← Option.mem_toList, ← Option.mem_toList]
    exact hmem a

/-- A name and a cursor select the first struct of the name if it holds the cursor, and an empty
    name is none.  The other order leaves every struct that has the name and holds the cursor, which
    is the same unless that struct has the name of one above. -/
theorem select_asking (hresult : (Progressed.ofSource w allNames source).result = .ok analyses)
    (h : o.onlyOptimizable = false) :
    let both := (o.asking name (some c)).select warnings analyses
    let named := (o.asking name none).select warnings
    let placed := (o.asking [] (some c)).select warnings
    both.length ≤ 1 ∧
      (∀ a, a ∈ both ↔
        a ∈ analyses ∧ a.holds c = true ∧ (name ≠ [] → IsFirstNamed analyses name a)) ∧
      placed (named analyses) = both ∧
      (name = [] → named (placed analyses) = both) ∧
      (name ≠ [] → named (placed analyses) = wanted analyses name c ∧
        (both = wanted analyses name c ↔
          ∀ a ∈ wanted analyses name c, IsFirstNamed analyses name a)) := by
  intro both named placed
  have hbelow := Below.of_result hresult
  refine ⟨select_both_length_le_one h, ?_, (select_both h).symm, ?_, ?_⟩
  · intro a
    -- an empty name leaves the cursor alone; another one picks a struct before the cursor is looked
    -- at
    by_cases hname : name = []
    · subst hname
      rw [mem_select_noName hbelow h]
      simp
    · rw [mem_select_both h hname]
      constructor
      · rintro ⟨hfirst, hholds⟩
        exact ⟨hfirst.mem, hholds, fun _ => hfirst⟩
      · rintro ⟨-, hholds, hfirst⟩
        exact ⟨hfirst hname, hholds⟩
  · intro hname
    subst hname
    exact select_noName h
  · intro hname
    exact ⟨select_name_select_cursor hbelow h hname, select_both_eq_wanted_iff hbelow h hname⟩

/-- Two structs of one name, each local to a function. -/
def localStructs : Text :=
  "func f() \x7b\n\ttype T struct \x7b a int \x7d\n\x7d\n" ++
    "func g() \x7b\n\ttype T struct \x7b b int \x7d\n\x7d"

/-- The analysis of the example succeeds. -/
theorem localStructs_result : (Progressed.ofSource .eight false localStructs).result =
    .ok (Progressed.ofSource .eight false localStructs).analyses := by
  have hstopped : (Progressed.ofSource .eight false localStructs).stopped = none := by
    decide +kernel
  rw [Progressed.result, hstopped]

/-- With a cursor on the first of them, the order does not matter. -/
theorem select_asking_localStructs : ∃ analyses a,
    (Progressed.ofSource .eight false localStructs).result = .ok analyses ∧
      a.declaration.fields.map Field.name = [['a']] ∧
      (empty.asking ['T'] (some ⟨1, 6⟩)).select true analyses = [a] ∧
      (empty.asking ['T'] none).select true
        ((empty.asking [] (some ⟨1, 6⟩)).select true analyses) = [a] := by
  have hfields : (named? (Progressed.ofSource .eight false localStructs).analyses ['T']).map
      (·.declaration.fields.map Field.name) = some [['a']] := by decide +kernel
  have hwanted : wanted (Progressed.ofSource .eight false localStructs).analyses ['T'] ⟨1, 6⟩ =
      (named? (Progressed.ofSource .eight false localStructs).analyses ['T']).toList := by
    decide +kernel
  obtain ⟨a, hnamed, hfields⟩ := Option.map_eq_some_iff.mp hfields
  rw [hnamed, Option.toList_some] at hwanted
  have hname : (['T'] : Text) ≠ [] := List.cons_ne_nil _ _
  -- the theorem gives the selection, and evaluation only which struct is the first of the name
  have hselect :=
    @select_asking .eight false localStructs empty true _ ['T'] ⟨1, 6⟩ localStructs_result rfl
  obtain ⟨-, -, -, -, hgiven⟩ := hselect
  obtain ⟨horder, hiff⟩ := hgiven hname
  refine ⟨_, a, localStructs_result, hfields, ?_, ?_⟩
  · rw [hiff.mpr, hwanted]
    intro b hb
    rw [hwanted, List.mem_singleton] at hb
    rw [hb]
    exact named?_eq_some.mp hnamed
  · rw [horder, hwanted]

/-- With a cursor on the second of them, nothing is selected, though the other order leaves it.  No
    struct has the empty name, yet with it the struct at the cursor is selected. -/
theorem select_localStructs : ∃ analyses,
    (Progressed.ofSource .eight false localStructs).result = .ok analyses ∧
      (empty.asking ['T'] (some ⟨4, 6⟩)).select true analyses ≠ wanted analyses ['T'] ⟨4, 6⟩ ∧
      (empty.asking [] (some ⟨4, 6⟩)).select true
          ((empty.asking ['T'] none).select true analyses) ≠
        (empty.asking ['T'] none).select true
          ((empty.asking [] (some ⟨4, 6⟩)).select true analyses) ∧
      (empty.asking [] (some ⟨4, 6⟩)).select true analyses ≠ wanted analyses [] ⟨4, 6⟩ := by
  refine ⟨_, localStructs_result, ?_, ?_, ?_⟩
  all_goals decide +kernel

end Command.Options

end GoLayout
