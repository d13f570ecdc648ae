import GoLayout.Proofs.Layout.BestOrder

/-! # Following the suggested order

    A struct whose fields are put into the suggested order has the suggested size, no byte in
    front of any field, and nothing left to suggest (`Declaration.optimalOrder_followed`).  The
    route:

    * the order is the stable one by descending alignment and size: fields that agree in both
      keep their declared order (`bestOrder_filter`);
    * the bytes of the fields already reach the end of the last one, so that their paddings add
      up to nothing, and none of them is negative (`paddingBefore_pack_bestOrder`);
    * sorting sorted fields again changes nothing (`optimalOrder_optimalOrder`). -/

namespace GoLayout

open SizedField (AllRegular)

variable {fs : List SizedField}

/-! ## A stable order -/

/-- Fields of one footprint keep their order. -/
theorem bestOrder_filter (fs : List SizedField) (p : Footprint) :
    (bestOrder fs).filter (·.footprint = p) = fs.filter (·.footprint = p) := by
  have hties : (fs.filter (·.footprint = p)).Pairwise (fun f g => f.precedes g = true) := by
    refine List.pairwise_of_forall_mem_list fun f hf g hg => ?_
    have hfp : f.footprint = p := of_decide_eq_true (List.mem_filter.mp hf).2
    have hgp : g.footprint = p := of_decide_eq_true (List.mem_filter.mp hg).2
    rw [SizedField.precedes_iff, hfp, hgp]
    exact .inr ⟨rfl, Nat.le_refl _⟩
  -- a merge sort keeps every sublist that is in order already
  have hsub : (fs.filter (·.footprint = p)).Sublist (bestOrder fs) :=
    List.sublist_mergeSort SizedField.precedes_trans SizedField.precedes_total hties
      List.filter_sublist
  have hfilter := hsub.filter (·.footprint = p)
  rw [List.filter_filter] at hfilter
  simp only [Bool.and_self] at hfilter
  exact (hfilter.eq_of_length ((bestOrder_perm fs).filter _).length_eq.symm).symm

/-! ## No byte in front of a field -/

/-- The paddings in front of packed fields add up to no negative number. -/
theorem Placement.Packed.fieldPadding_nonneg {ps : List Placement} :
    ∀ {e}, Packed e ps → 0 ≤ ps.foldr (fun p total => p.paddingBefore + total) 0 := by
  induction ps with
  | nil => intro e _; exact Int.le_refl 0
  | cons p ps ih => intro e h; exact Int.add_nonneg h.1.padding_nonneg (ih h.2)

/-- Where the paddings add up to nothing, each of them is nothing. -/
theorem Placement.Packed.paddingBefore_eq_zero {ps : List Placement} :
    ∀ {e}, Packed e ps → ps.foldr (fun p total => p.paddingBefore + total) 0 = 0 →
      ∀ p ∈ ps, p.paddingBefore = 0 := by
  induction ps with
  | nil => intro e _ _ p hp; exact nomatch hp
  | cons q ps ih =>
      intro e h hsum p hp
      have hq := h.1.padding_nonneg
      have hps := Placement.Packed.fieldPadding_nonneg h.2
      rw [List.foldr_cons] at hsum
      -- none of the paddings is negative, so that both this one and the sum of the others are zero
      rcases List.mem_cons.mp hp with rfl | hp
      · omega
      · exact ih h.2 (by omega) p hp

/-- In the best order no field is padded. -/
theorem paddingBefore_pack_bestOrder (name : Text) (h : AllRegular fs) :
    ∀ p ∈ (pack name (bestOrder fs)).fields, p.paddingBefore = 0 := by
  have hperm := bestOrder_perm fs
  have hend := packedEnd_bestOrder h
  rw [packedEnd_eq_add, foldr_size_placeAll, dataBytes_perm hperm] at hend
  have hpadding : (placeAll 0 (bestOrder fs)).foldr (fun p total => p.paddingBefore + total) 0 = 0 :=
    by omega
  exact Placement.Packed.paddingBefore_eq_zero (placeAll_packed _ 0 (h.perm hperm.symm)) hpadding

/-! ## The order of a declaration -/

namespace Declaration

variable {w : WordSize} {d : Declaration}

theorem packed_optimalOrder (w : WordSize) (d : Declaration) :
    (d.withFields (d.optimalOrder w)).packed w = pack d.name (bestOrder (d.sizedFields w)) := by
  rw [packed, sizedFields_optimalOrder]
  rfl

/-- The suggested order is its own suggestion. -/
theorem optimalOrder_optimalOrder (w : WordSize) (d : Declaration) :
    (d.withFields (d.optimalOrder w)).optimalOrder w = d.optimalOrder w := by
  have hsorted : bestOrder (bestOrder (d.sizedFields w)) = bestOrder (d.sizedFields w) :=
    List.mergeSort_of_pairwise (bestOrder_pairwise _)
  rw [optimalOrder, sizedFields_optimalOrder, hsorted]
  rfl

/-- The field may stand in front of the other one: its alignment is larger, or it is the same and
    its size is not smaller. -/
def MayPrecede (w : WordSize) (f g : Field) : Prop :=
  (footprintOf w g.type).alignment < (footprintOf w f.type).alignment ∨
    ((footprintOf w f.type).alignment = (footprintOf w g.type).alignment ∧
      (footprintOf w g.type).size ≤ (footprintOf w f.type).size)

/-- In the suggested order every field may stand in front of those behind it. -/
theorem optimalOrder_pairwise (w : WordSize) (d : Declaration) :
    (d.optimalOrder w).Pairwise (MayPrecede w) := by
  have hsized := bestOrder_pairwise (d.sizedFields w)
  rw [← sizedFields_optimalOrder, sizedFields_withFields, List.pairwise_map] at hsized
  exact hsized.imp fun h => SizedField.precedes_iff.mp h

/-- Fields of one size and alignment stay in the order in which they were declared. -/
theorem optimalOrder_filter (w : WordSize) (d : Declaration) (p : Footprint) :
    (d.optimalOrder w).filter (fun f => footprintOf w f.type = p) =
      d.fields.filter fun f => footprintOf w f.type = p := by
  have hsized := bestOrder_filter (d.sizedFields w) p
  rw [← sizedFields_optimalOrder, sizedFields_withFields, sizedFields, List.filter_map,
    List.filter_map] at hsized
  refine List.map_injective_iff.mpr (fun f g heq => ?_) hsized
  exact congrArg SizedField.field heq

end Declaration

/-- What the suggested order of a declaration with a layout is, and what comes of following it: the
    layout of the declaration with its fields in that order. -/
structure Declaration.Followed (w : WordSize) (d : Declaration) (l best : Layout) : Prop where
  perm : (d.optimalOrder w).Perm d.fields
  descending : (d.optimalOrder w).Pairwise (MayPrecede w)
  ties : ∀ p : Footprint, (d.optimalOrder w).filter (fun f => footprintOf w f.type = p) =
    d.fields.filter fun f => footprintOf w f.type = p
  layout : (d.withFields (d.optimalOrder w)).layout w = .ok best
  unpadded : ∀ p ∈ best.fields, p.paddingBefore = 0
  totalSize : best.totalSize = (d.optimality w l).optimalSize
  notOptimizable :
    ((d.withFields (d.optimalOrder w)).optimality w best).isOptimizable = false
  order_again : (d.withFields (d.optimalOrder w)).optimalOrder w = d.optimalOrder w

/-- The suggested order of every declaration whose size can be written can be followed. -/
theorem Declaration.optimalOrder_followed (w : WordSize) (d : Declaration)
    (h : Decimal.writable (d.packed w).totalSize = true) :
    ∃ l best, d.layout w = .ok l ∧ d.Followed w l best := by
  obtain ⟨best, hbest, hsize⟩ := layout_optimalOrder (d.packed w) h
  refine ⟨d.packed w, best, layout_eq_ok h, d.optimalOrder_perm w, d.optimalOrder_pairwise w,
    d.optimalOrder_filter w, hbest, ?_, hsize, ?_, d.optimalOrder_optimalOrder w⟩
  · rw [eq_packed_of_layout hbest, packed_optimalOrder]
    exact paddingBefore_pack_bestOrder d.name (d.sizedFields_regular w)
  · -- the optimal size does not depend on the order, and this order has it already
    have hagain : ((d.withFields (d.optimalOrder w)).optimality w best).optimalSize =
        best.totalSize := by
      rw [hsize, optimalSize_eq, optimalSize_eq, leastSize_withFields (d.optimalOrder_perm w)]
    have hcurrent : ((d.withFields (d.optimalOrder w)).optimality w best).currentSize =
        best.totalSize := rfl
    rw [Optimality.isOptimizable, hagain, hcurrent]
    exact decide_eq_false (Int.lt_irrefl _)

theorem Declaration.optimalOrder_followed_mixed :
    Decimal.writable (mixed.packed .eight).totalSize = true ∧
      ∃ l best, mixed.layout .eight = .ok l ∧ mixed.Followed .eight l best :=
  ⟨by decide +kernel, optimalOrder_followed .eight mixed (by decide +kernel)⟩

end GoLayout
