import GoLayout.Proofs.Layout.Padding
import GoLayout.Proofs.TypeExpr.Regular
import Mathlib.Data.List.Forall2

/-! # Layouts are valid and least

    Packing puts every field at the first place that the fields before it leave.  The route:

    * one step of the pass follows the end of the field before (`SizedField.place_follows`),
      and so does every placement of a whole pass (`placeAll_packed`);
    * the ends add up: sizes and paddings, nothing else (`packedEnd_eq_add`);
    * any other offsets that keep order and alignment stay behind, field by field
      (`placeAll_le`), so the total size is least as well (`layout_isLeast`). -/

namespace GoLayout

namespace Placement

/-- The placement stands at the first multiple of its alignment behind a given end. -/
structure Follows (previousEnd : Int) (p : Placement) : Prop where
  offset_eq : p.offset = previousEnd + p.paddingBefore
  padding_nonneg : 0 ≤ p.paddingBefore
  padding_lt : p.paddingBefore < p.alignment
  dvd_offset : p.alignment ∣ p.offset

/-- Every placement follows the end of the one before; the first one follows a given end. -/
def Packed : Int → List Placement → Prop
  | _, [] => True
  | e, p :: ps => p.Follows e ∧ Packed p.endOffset ps

/-- The offsets suit the placements: one for each, in order and aligned, and none before the
    end of the field before or before a given start. -/
def Admits : Int → List Placement → List Int → Prop
  | _, [], [] => True
  | start, p :: ps, o :: os => start ≤ o ∧ p.alignment ∣ o ∧ Admits (o + p.size) ps os
  | _, _, _ => False

/-- The end of the last field at the given offsets, or the start where there is no field. -/
def endAt : Int → List Placement → List Int → Int
  | _, p :: ps, o :: os => endAt (o + p.size) ps os
  | start, _, _ => start

end Placement

/-- The bytes in front of the fields. -/
def Layout.fieldPadding (l : Layout) : Int :=
  l.fields.foldr (fun p total => p.paddingBefore + total) 0

/-- The layout is one of the declaration: an entry for each field, all at the least offsets,
    and no byte unaccounted for. -/
structure Layout.IsLeastOf (w : WordSize) (d : Declaration) (l : Layout) : Prop where
  name_eq : l.name = d.name
  entries : l.fields.map (fun p => (p.name, p.type, p.size, p.alignment)) =
    d.fields.map fun f => (f.name, f.type, ((footprintOf w f.type).size : Int),
      ((footprintOf w f.type).alignment : Int))
  packed : Placement.Packed 0 l.fields
  alignment : IsGreatest {a | a = 1 ∨ ∃ p ∈ l.fields, p.alignment = a} l.alignment
  totalSize : IsLeast {n | l.alignment ∣ n ∧ l.lastEnd ≤ n} l.totalSize
  accounted : l.dataSize + l.fieldPadding + l.trailingPadding = l.totalSize
  offset_le : ∀ offsets, Placement.Admits 0 l.fields offsets →
    List.Forall₂ (fun p o => p.offset ≤ o) l.fields offsets
  totalSize_le : ∀ offsets, Placement.Admits 0 l.fields offsets →
    ∀ n, l.alignment ∣ n → Placement.endAt 0 l.fields offsets ≤ n → l.totalSize ≤ n

/-- All fields have regular footprints. -/
def SizedField.AllRegular (fs : List SizedField) : Prop := ∀ f ∈ fs, f.footprint.Regular

/-- Whatever the types of its fields say, a declaration has regular ones. -/
theorem Declaration.sizedFields_regular (w : WordSize) (d : Declaration) :
    SizedField.AllRegular (d.sizedFields w) := by
  intro f hf
  obtain ⟨g, -, rfl⟩ := List.mem_map.mp hf
  exact footprintOf_regular w g.type

/-! ## One step and a whole pass -/

/-- A field is put at the least offset that its alignment allows. -/
theorem SizedField.place_follows {f : SizedField} (h : f.footprint.Regular) (e : Int) :
    (f.place e).Follows e := by
  have hpos : (0 : Int) < f.footprint.alignment := Int.natCast_pos.mpr h.alignment_pos
  exact ⟨rfl, GoLayout.padding_nonneg hpos e, GoLayout.padding_lt hpos e,
    dvd_add_padding hpos e⟩

/-- All fields are packed behind the offset where the pass starts. -/
theorem placeAll_packed (fs : List SizedField) :
    ∀ e, SizedField.AllRegular fs → Placement.Packed e (placeAll e fs) := by
  induction fs with
  | nil => intro e _; exact trivial
  | cons f fs ih =>
      intro e h
      have hf := h f List.mem_cons_self
      have hfs : SizedField.AllRegular fs := fun g hg => h g (List.mem_cons_of_mem _ hg)
      exact ⟨SizedField.place_follows hf e, ih _ hfs⟩

/-- Placing fields leaves all there is to them but their offsets. -/
theorem map_placeAll (fs : List SizedField) :
    ∀ e, (placeAll e fs).map (fun p => (p.name, p.type, p.size, p.alignment)) =
      fs.map fun f => (f.field.name, f.field.type, (f.footprint.size : Int),
        (f.footprint.alignment : Int)) := by
  induction fs with
  | nil => intro e; rfl
  | cons f fs ih =>
      intro e
      show _ :: _ = _ :: _
      rw [ih]
      rfl

theorem map_alignment_placeAll (fs : List SizedField) (e : Int) :
    (placeAll e fs).map (·.alignment) = fs.map fun f => (f.footprint.alignment : Int) := by
  have h := congrArg (List.map fun x => x.2.2.2) (map_placeAll fs e)
  rw [List.map_map, List.map_map] at h
  exact h

/-- A pass moves its end by the sizes and the paddings of its fields. -/
theorem packedEnd_eq_add (fs : List SizedField) :
    ∀ e, packedEnd e fs =
      e + (placeAll e fs).foldr (fun p total => p.size + total) 0 +
        (placeAll e fs).foldr (fun p total => p.paddingBefore + total) 0 := by
  induction fs with
  | nil => intro e; simp [packedEnd, placeAll]
  | cons f fs ih =>
      intro e
      show packedEnd (f.place e).endOffset fs = _
      -- the end moves on by the padding and the size of the field, which are the first terms of the
      -- two sums
      rw [ih]
      have hend : (f.place e).endOffset =
          e + (f.place e).paddingBefore + (f.place e).size := rfl
      rw [placeAll, List.foldr_cons, List.foldr_cons]
      omega

/-- The last placement of a pass ends where the pass ends. -/
theorem getLast?_placeAll (fs : List SizedField) :
    ∀ e, ((placeAll e fs).getLast?.map (·.endOffset)).getD e = packedEnd e fs := by
  induction fs with
  | nil => intro e; rfl
  | cons f fs ih =>
      intro e
      show _ = packedEnd (f.place e).endOffset fs
      rw [← ih]
      show ((f.place e :: placeAll (f.place e).endOffset fs).getLast?.map _).getD e = _
      rw [List.getLast?_cons]
      cases (placeAll (f.place e).endOffset fs).getLast? with
      | none => rfl
      | some p => rfl

/-- The last field ends where the pass does. -/
theorem lastEnd_pack (name : Text) (fs : List SizedField) :
    (pack name fs).lastEnd = packedEnd 0 fs := by
  have hfields : (pack name fs).fields = placeAll 0 fs := rfl
  rw [← getLast?_placeAll fs 0, Layout.lastEnd, hfields]
  cases (placeAll 0 fs).getLast? with
  | none => rfl
  | some p => rfl

/-! ## The largest alignment -/

theorem one_le_maxAlignment (fs : List SizedField) : 1 ≤ maxAlignment fs := by
  induction fs with
  | nil => exact Nat.le_refl 1
  | cons f fs ih => exact Nat.le_trans ih (Nat.le_max_right _ _)

theorem maxAlignment_pos (fs : List SizedField) : (0 : Int) < maxAlignment fs :=
  Int.natCast_pos.mpr (one_le_maxAlignment fs)

theorem alignment_le_maxAlignment {fs : List SizedField} {f : SizedField} (hf : f ∈ fs) :
    f.footprint.alignment ≤ maxAlignment fs := by
  induction fs with
  | nil => exact nomatch hf
  | cons g fs ih =>
      rcases List.mem_cons.mp hf with heq | hmem
      · subst heq
        exact Nat.le_max_left _ _
      · exact Nat.le_trans (ih hmem) (Nat.le_max_right _ _)

/-- The largest alignment is one or that of a field. -/
theorem maxAlignment_mem (fs : List SizedField) :
    maxAlignment fs = 1 ∨ ∃ f ∈ fs, f.footprint.alignment = maxAlignment fs := by
  induction fs with
  | nil => exact Or.inl rfl
  | cons f fs ih =>
      show max f.footprint.alignment (maxAlignment fs) = 1 ∨ ∃ g ∈ f :: fs,
        g.footprint.alignment = max f.footprint.alignment (maxAlignment fs)
      rcases Nat.le_total (maxAlignment fs) f.footprint.alignment with hle | hle
      · exact Or.inr ⟨f, List.mem_cons_self, (Nat.max_eq_left hle).symm⟩
      · rw [Nat.max_eq_right hle]
        rcases ih with h1 | ⟨g, hg, heq⟩
        · exact Or.inl h1
        · exact Or.inr ⟨g, List.mem_cons_of_mem _ hg, heq⟩

/-- The largest of regular alignments is the alignment of a machine type. -/
theorem maxAlignment_regular {fs : List SizedField} (h : SizedField.AllRegular fs) :
    maxAlignment fs ∈ [1, 2, 4, 8] := by
  rcases maxAlignment_mem fs with hone | ⟨f, hf, heq⟩
  · rw [hone]
    exact List.mem_cons_self
  · rw [← heq]
    exact (h f hf).alignment_mem

/-- The alignment of a struct is the largest one of its fields, and at least one. -/
theorem isGreatest_alignment_pack (name : Text) (fs : List SizedField) :
    IsGreatest {a | a = 1 ∨ ∃ p ∈ (pack name fs).fields, p.alignment = a}
      (pack name fs).alignment := by
  have hfields : ∀ a, (∃ p ∈ placeAll 0 fs, p.alignment = a) ↔
      ∃ f ∈ fs, (f.footprint.alignment : Int) = a := by
    intro a
    rw [← List.mem_map, map_alignment_placeAll, List.mem_map]
  constructor
  · rcases maxAlignment_mem fs with h1 | ⟨f, hf, heq⟩
    · exact Or.inl (congrArg Int.ofNat h1)
    · exact Or.inr ((hfields _).mpr ⟨f, hf, congrArg Int.ofNat heq⟩)
  · rintro a (rfl | hp)
    · exact Int.ofNat_le.mpr (one_le_maxAlignment fs)
    · obtain ⟨f, hf, rfl⟩ := (hfields a).mp hp
      exact Int.ofNat_le.mpr (alignment_le_maxAlignment hf)

/-! ## No other offsets do better -/

/-- Admitted offsets that start no earlier than the pass stay behind it at every field and at
    the end. -/
theorem placeAll_le (fs : List SizedField) :
    ∀ (e start : Int) (offsets : List Int), SizedField.AllRegular fs → e ≤ start →
      Placement.Admits start (placeAll e fs) offsets →
      List.Forall₂ (fun p o => p.offset ≤ o) (placeAll e fs) offsets ∧
        packedEnd e fs ≤ Placement.endAt start (placeAll e fs) offsets := by
  induction fs with
  | nil =>
      intro e start offsets _ hle h
      cases offsets with
      | nil => exact ⟨List.Forall₂.nil, hle⟩
      | cons o os => exact h.elim
  | cons f fs ih =>
      intro e start offsets hreg hle h
      cases offsets with
      | nil => exact h.elim
      | cons o os =>
          obtain ⟨hstart, hdvd, hrest⟩ := h
          have hf := hreg f List.mem_cons_self
          have hpos : (0 : Int) < f.footprint.alignment :=
            Int.natCast_pos.mpr hf.alignment_pos
          -- the pass takes the least multiple, and the other offset is one as well
          have hoff : (f.place e).offset ≤ o :=
            add_padding_le hpos hdvd (Int.le_trans hle hstart)
          have hend : (f.place e).endOffset ≤ o + (f.place e).size := by
            show (f.place e).offset + (f.place e).size ≤ _
            omega
          obtain ⟨hoffs, hlast⟩ :=
            ih _ _ os (fun g hg => hreg g (List.mem_cons_of_mem _ hg)) hend hrest
          exact ⟨List.Forall₂.cons hoff hoffs, hlast⟩

/-- Packing gives the least layout of a declaration. -/
theorem Declaration.packed_isLeastOf (w : WordSize) (d : Declaration) :
    (d.packed w).IsLeastOf w d := by
  have hreg := d.sizedFields_regular w
  have hpos := maxAlignment_pos (d.sizedFields w)
  refine ⟨rfl, ?_, ?_, ?_, ?_, ?_, ?_, ?_⟩
  · show (placeAll 0 (d.sizedFields w)).map _ = _
    rw [map_placeAll, Declaration.sizedFields, List.map_map]
    rfl
  · exact placeAll_packed _ 0 hreg
  · exact isGreatest_alignment_pack d.name (d.sizedFields w)
  · -- the total size is the end of the last field, padded like an offset
    rw [Declaration.packed, lastEnd_pack]
    exact isLeast_add_padding hpos _
  · have hlast := lastEnd_pack d.name (d.sizedFields w)
    have hadd := packedEnd_eq_add (d.sizedFields w) 0
    have hdata : (d.packed w).dataSize =
        (placeAll 0 (d.sizedFields w)).foldr (fun p total => p.size + total) 0 := rfl
    have hpadding : (d.packed w).fieldPadding =
        (placeAll 0 (d.sizedFields w)).foldr (fun p total => p.paddingBefore + total) 0 := rfl
    rw [Layout.trailingPadding, hdata, hpadding, Declaration.packed, hlast]
    omega
  · intro offsets hoff
    exact (placeAll_le _ 0 0 offsets hreg (Int.le_refl 0) hoff).1
  · intro offsets hoff n hdvd hle
    have hend := (placeAll_le _ 0 0 offsets hreg (Int.le_refl 0) hoff).2
    exact add_padding_le hpos hdvd (Int.le_trans hend hle)

/-- A declaration whose size can be written has the packed layout. -/
theorem Declaration.layout_eq_ok {w : WordSize} {d : Declaration}
    (h : Decimal.writable (d.packed w).totalSize = true) : d.layout w = .ok (d.packed w) :=
  if_pos h

/-- Every declaration whose size can be written has a layout, and that layout is valid and
    least. -/
theorem Declaration.layout_isLeast (w : WordSize) (d : Declaration)
    (h : Decimal.writable (d.packed w).totalSize = true) :
    ∃ l, d.layout w = .ok l ∧ l.IsLeastOf w d :=
  ⟨d.packed w, layout_eq_ok h, d.packed_isLeastOf w⟩

/-- A struct with a gap, an empty array that only aligns, two fields of one name and padding at
    its end. -/
def Declaration.mixed : Declaration where
  name := "Mixed"
  fields :=
    [⟨"flag", "bool", ⟨1, 1, 5⟩⟩, ⟨"grid", "[2][0x3]int64", ⟨2, 1, 5⟩⟩,
      ⟨"_", "[0]float64", ⟨3, 1, 2⟩⟩, ⟨"_", "complex64", ⟨4, 1, 2⟩⟩,
      ⟨"name", "string", ⟨5, 1, 5⟩⟩, ⟨"last", "(int16)", ⟨6, 1, 5⟩⟩]
  span := ⟨0, 0, 7, 1⟩
  nameLocation := ⟨0, 5, 10⟩
  terminated := true

theorem Declaration.layout_isLeast_mixed :
    Decimal.writable (mixed.packed .eight).totalSize = true ∧
      ∃ l, mixed.layout .eight = .ok l ∧ l.IsLeastOf .eight mixed :=
  ⟨by decide +kernel, layout_isLeast .eight mixed (by decide +kernel)⟩

end GoLayout
