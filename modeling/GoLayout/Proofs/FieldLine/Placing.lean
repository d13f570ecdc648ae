import GoLayout.FieldLine.Column
import GoLayout.Proofs.FieldLine.NamesInOrder

/-! # Names found again on their line

    The names of a field come from its code, and their columns from a search in the source line,
    comments and all.  The search never goes too far: the whole word that it finds stands where
    the code has the name, or before it (`Column.locate_isWordAt`).  So the names that stand in
    order in a part of the code stand in order on the line, within that part
    (`NamesInOrder.standIn`). -/

namespace GoLayout

open Text

namespace Column

variable {name : Text}

/-- The check for a whole word is one for a word at that place. -/
theorem isWholeWord_iff {before text : Text} :
    isWholeWord before.getLast? name text = true ↔
      IsWordAt (before ++ text) name before.length := by
  constructor
  · intro h
    rw [isWholeWord] at h
    split at h
    · next behind hafter =>
      rw [Bool.and_eq_true, Bool.not_eq_true', Bool.not_eq_true'] at h
      rw [after?_eq_some.mp hafter]
      exact ⟨before, behind, rfl, rfl, h.1, h.2⟩
    · exact nomatch h
  · rintro ⟨front, behind, hsplit, hlength, hfront, hbehind⟩
    obtain ⟨rfl, rfl⟩ := List.append_inj hsplit hlength.symm
    have hafter : after? name (name ++ behind) = some behind := after?_eq_some.mpr rfl
    rw [isWholeWord, hafter]
    show (!endsInWord before && !startsInWord behind) = true
    rw [hfront, hbehind]
    rfl

/-- The search finds a whole word no further than any other one. -/
theorem exists_wholeWord? (text : Text) :
    ∀ {before : Text} {column : Nat}, IsWordAt (before ++ text) name column →
      before.length ≤ column →
      ∃ found, wholeWord? name before.length before.getLast? text = some found ∧
        before.length ≤ found ∧ found ≤ column ∧ IsWordAt (before ++ text) name found := by
  induction text with
  | nil =>
      intro before column h hle
      have hcolumn : column = before.length := by
        obtain ⟨front, behind, hsplit, hlength, -⟩ := h
        have hlen := congrArg List.length hsplit
        simp only [List.length_append, List.length_nil] at hlen
        omega
      rw [hcolumn] at h ⊢
      exact ⟨before.length, if_pos (isWholeWord_iff.mpr h), Nat.le_refl _, Nat.le_refl _, h⟩
  | cons c text ih =>
      intro before column h hle
      rw [wholeWord?]
      by_cases hhere : isWholeWord before.getLast? name (c :: text) = true
      · rw [if_pos hhere]
        exact ⟨before.length, rfl, Nat.le_refl _, hle, isWholeWord_iff.mp hhere⟩
      · have hne : column ≠ before.length := by
          rintro rfl
          exact hhere (isWholeWord_iff.mpr h)
        rw [List.append_cons] at h ⊢
        obtain ⟨found, hfound, hge, hle', hword⟩ := ih h (by
          rw [List.length_append, List.length_singleton]
          omega)
        rw [List.getLast?_concat, List.length_append, List.length_singleton] at hfound
        rw [List.length_append, List.length_singleton] at hge
        exact ⟨found, by rw [if_neg hhere]; exact hfound, by omega, hle', hword⟩

/-- A name that stands on the line is located there as a whole word, or further to the left. -/
theorem locate_isWordAt {line : Text} {start column : Nat} (h : IsWordAt line name column)
    (hle : start ≤ column) :
    start ≤ locate line name start ∧ locate line name start ≤ column ∧
      IsWordAt line name (locate line name start) := by
  -- a word that stands behind the start stands within the line
  have hstart : start ≤ line.length := by
    obtain ⟨before, behind, rfl, hlength, -⟩ := h
    rw [List.length_append]
    omega
  have htake : (line.take start).length = start := List.length_take_of_le hstart
  rw [← List.take_append_drop start line] at h
  obtain ⟨found, hfound, hge, hcolumn, hword⟩ :=
    exists_wholeWord? (line.drop start) h (by rw [htake]; exact hle)
  rw [htake] at hfound hge
  rw [List.take_append_drop] at hword
  rw [locate, Nat.min_eq_left hstart, hfound]
  exact ⟨hge, hcolumn, hword⟩

end Column

/-- From one column on and up to another the names stand on the line in order. -/
def StandIn (line : Text) (limit : Nat) : Nat → List Text → Prop
  | start, [] => start ≤ limit
  | start, name :: names => ∃ column, start ≤ column ∧ Identifier.isIdentifier name = true ∧
      IsWordAt line name column ∧ StandIn line limit (column + name.length) names

/-- Names that stand in order in a part of the code stand in order on the line. -/
theorem NamesInOrder.standIn {line part behind : Text} {names : List Text}
    (h : NamesInOrder part names) (hbehind : startsInWord behind = false) :
    ∀ {before : Text}, KeepsWords line (before ++ (part ++ behind)) →
      (endsInWord before = false ∨ startsInWord part = false) →
      StandIn line (before.length + part.length) before.length names := by
  induction h with
  | nil => intro before _ _; exact Nat.le_add_right _ _
  | @cons gap name rest names hgap hend hname hrest _ ih =>
      intro before hkeeps hbefore
      -- without a gap the part starts with the name, so that no word ends in front of it
      have hfront : endsInWord (before ++ gap) = false := by
        cases gap with
        | cons c gap =>
            rw [endsInWord_append_of_ne_nil _ (List.cons_ne_nil c gap)]
            exact hend
        | nil =>
            rw [List.append_nil]
            refine hbefore.resolve_right fun hstart => ?_
            obtain ⟨c, t, rfl, hc, -⟩ := Identifier.exists_cons hname
            have hword : isWord c = false := hstart
            rw [Identifier.isWord_of_isIdentStart hc] at hword
            exact nomatch hword
      have hsplit : before ++ (gap ++ (name ++ rest) ++ behind) =
          (before ++ gap ++ name) ++ (rest ++ behind) := by
        simp only [List.append_assoc]
      have hword : IsWordAt (before ++ (gap ++ (name ++ rest) ++ behind)) name
          (before ++ gap).length := by
        refine ⟨before ++ gap, rest ++ behind, ?_, rfl, hfront, startsInWord_append hrest hbehind⟩
        simp only [List.append_assoc]
      have hmore := ih (hsplit ▸ hkeeps) (.inr hrest)
      refine ⟨(before ++ gap).length, ?_, hname, hkeeps.isWordAt hname hword, ?_⟩
      · rw [List.length_append]
        exact Nat.le_add_right _ _
      · have hlimit : before.length + (gap ++ (name ++ rest)).length =
            (before ++ gap ++ name).length + rest.length := by
          simp only [List.length_append]
          omega
        have hstart : (before ++ gap ++ name).length = (before ++ gap).length + name.length :=
          List.length_append
        rw [hlimit, ← hstart]
        exact hmore

end GoLayout
