import GoLayout.Proofs.Layout.DigitLimit

/-! # Leaving fields out

    Without some of its fields a struct is not larger, although every field behind a missing one is
    padded differently (`Declaration.HasFewer.layout_noLarger`).  The route:

    * padding keeps the order of two ends, and no field moves an end back, so that a pass over
      fewer fields stays behind the pass over all of them (`packedEnd_le_of_sublist`);
    * as long as no type is left out altogether, the largest alignment is the same
      (`maxAlignment_eq_of_sublist`), so that both ends are rounded up alike. -/

namespace GoLayout

open SizedField (AllRegular)

variable {fs gs : List SizedField} {e e' : Int}

/-! ## One field and a whole pass -/

/-- Rounding up keeps the order of offsets. -/
theorem add_padding_mono {alignment m n : Int} (h : 0 < alignment) (hle : m ≤ n) :
    m + padding m alignment ≤ n + padding n alignment := by
  have hge := padding_nonneg h n
  exact add_padding_le h (dvd_add_padding h n) (by omega)

namespace SizedField

variable {f : SizedField}

theorem le_endOffset (h : f.footprint.Regular) (e : Int) : e ≤ (f.place e).endOffset := by
  have hpad := (place_follows h e).padding_nonneg
  have hend : (f.place e).endOffset = e + (f.place e).paddingBefore + f.footprint.size := rfl
  omega

/-- Put further back, a field does not end earlier. -/
theorem endOffset_mono (h : f.footprint.Regular) (hle : e ≤ e') :
    (f.place e).endOffset ≤ (f.place e').endOffset :=
  Int.add_le_add_right (add_padding_mono (Int.natCast_pos.mpr h.alignment_pos) hle) _

end SizedField

/-- A pass over fewer fields that starts no later ends no later. -/
theorem packedEnd_le_of_sublist (h : fs.Sublist gs) :
    ∀ {e e' : Int}, AllRegular gs → e ≤ e' → packedEnd e fs ≤ packedEnd e' gs := by
  induction h with
  | slnil => intro e e' _ hle; exact hle
  | @cons fs gs g _ ih =>
      -- the field is missing: the longer pass only moves on
      intro e e' hreg hle
      have hend := SizedField.le_endOffset (hreg g List.mem_cons_self) e'
      exact ih (fun f hf => hreg f (List.mem_cons_of_mem _ hf)) (Int.le_trans hle hend)
  | @cons_cons fs gs f _ ih =>
      intro e e' hreg hle
      have hend := SizedField.endOffset_mono (hreg f List.mem_cons_self) hle
      exact ih (fun g hg => hreg g (List.mem_cons_of_mem _ hg)) hend

/-- Fewer fields have no more bytes. -/
theorem dataBytes_le_of_sublist (h : fs.Sublist gs) : dataBytes fs ≤ dataBytes gs := by
  induction h with
  | slnil => exact Int.le_refl 0
  | @cons fs gs g _ ih =>
      have hsize : (0 : Int) ≤ g.footprint.size := Int.natCast_nonneg _
      show dataBytes fs ≤ g.footprint.size + dataBytes gs
      omega
  | @cons_cons fs gs f _ ih => exact Int.add_le_add_left ih f.footprint.size

/-! ## The largest alignment -/

/-- The largest alignment is bounded by alignments that occur. -/
theorem maxAlignment_le_of_forall
    (h : ∀ f ∈ fs, ∃ g ∈ gs, g.footprint.alignment = f.footprint.alignment) :
    maxAlignment fs ≤ maxAlignment gs := by
  rcases maxAlignment_mem fs with hone | ⟨f, hf, hmax⟩
  · rw [hone]
    exact one_le_maxAlignment gs
  · obtain ⟨g, hg, heq⟩ := h f hf
    rw [← hmax, ← heq]
    exact alignment_le_maxAlignment hg

/-- Where every alignment is that of a field which is left, the largest one is the same. -/
theorem maxAlignment_eq_of_sublist (h : fs.Sublist gs)
    (hleft : ∀ g ∈ gs, ∃ f ∈ fs, f.footprint.alignment = g.footprint.alignment) :
    maxAlignment fs = maxAlignment gs :=
  Nat.le_antisymm (maxAlignment_le_of_forall fun f hf => ⟨f, h.subset hf, rfl⟩)
    (maxAlignment_le_of_forall hleft)

/-! ## Declarations -/

namespace Declaration

/-- The declaration has fewer fields than the other one, and none of its types is missing. -/
structure HasFewer (few all : Declaration) : Prop where
  sublist : few.fields.Sublist all.fields
  types : ∀ f ∈ all.fields, ∃ g ∈ few.fields, g.type = f.type

/-- A layout of a declaration with fewer fields beside one with all of them: the alignment is the
    same, and neither the size nor the optimal size is larger. -/
structure NoLarger (w : WordSize) (few all : Declaration) (small large : Layout) : Prop where
  alignment_eq : small.alignment = large.alignment
  totalSize_le : small.totalSize ≤ large.totalSize
  optimalSize_le : (few.optimality w small).optimalSize ≤ (all.optimality w large).optimalSize

variable {w : WordSize} {few all : Declaration}

theorem HasFewer.sizedFields_sublist (h : few.HasFewer all) (w : WordSize) :
    (few.sizedFields w).Sublist (all.sizedFields w) := h.sublist.map _

/-- The field that is kept of each line has the alignment of all of them. -/
theorem HasFewer.maxAlignment_eq (h : few.HasFewer all) (w : WordSize) :
    maxAlignment (few.sizedFields w) = maxAlignment (all.sizedFields w) := by
  refine maxAlignment_eq_of_sublist (h.sizedFields_sublist w) ?_
  intro s hs
  obtain ⟨f, hf, rfl⟩ := List.mem_map.mp hs
  obtain ⟨g, hg, htype⟩ := h.types f hf
  refine ⟨_, List.mem_map_of_mem hg, ?_⟩
  show (footprintOf w g.type).alignment = (footprintOf w f.type).alignment
  rw [htype]

/-- With fewer fields a struct is no larger. -/
theorem HasFewer.totalSize_le (h : few.HasFewer all) (w : WordSize) :
    (few.packed w).totalSize ≤ (all.packed w).totalSize := by
  have hend := packedEnd_le_of_sublist (h.sizedFields_sublist w) (all.sizedFields_regular w)
    (Int.le_refl 0)
  show packedEnd 0 (few.sizedFields w) + padding _ (maxAlignment (few.sizedFields w)) ≤ _
  rw [h.maxAlignment_eq w]
  exact add_padding_mono (maxAlignment_pos (all.sizedFields w)) hend

theorem HasFewer.leastSize_le (h : few.HasFewer all) (w : WordSize) :
    leastSize (few.sizedFields w) ≤ leastSize (all.sizedFields w) := by
  have hbytes := dataBytes_le_of_sublist (h.sizedFields_sublist w)
  rw [leastSize, leastSize, h.maxAlignment_eq w]
  exact add_padding_mono (maxAlignment_pos (all.sizedFields w)) hbytes

/-- Where the declaration with all fields has a layout, so has the one with fewer of them, and it
    is not larger. -/
theorem HasFewer.layout_noLarger (h : few.HasFewer all) {large : Layout}
    (hlarge : all.layout w = .ok large) :
    ∃ small, few.layout w = .ok small ∧ NoLarger w few all small large := by
  have hle := h.totalSize_le w
  have hwritable := writable_of_layout hlarge
  obtain rfl := eq_packed_of_layout hlarge
  refine ⟨few.packed w,
    layout_eq_ok (Decimal.writable_of_le hwritable (few.totalSize_nonneg w) hle), ?_, hle, ?_⟩
  · exact congrArg Int.ofNat (h.maxAlignment_eq w)
  · rw [optimalSize_eq, optimalSize_eq]
    exact h.leastSize_le w

end Declaration

end GoLayout
