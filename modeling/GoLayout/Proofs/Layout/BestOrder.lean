import GoLayout.Proofs.Layout.Placement

/-! # The best order is the best

    No order of the fields makes a struct smaller than the one by descending alignment.  The
    route:

    * every order needs at least the bytes of its fields (`dataBytes_le_packedEnd`), and
      these bytes and the largest alignment do not depend on the order;
    * with alignments descending, every field ends at a multiple of the next alignment, so
      nothing is padded (`packedEnd_eq_of_descending`);
    * so the best order reaches the bound that every order has to keep
      (`totalSize_pack_bestOrder`, `leastSize_le`). -/

namespace GoLayout

open SizedField (AllRegular)

variable {fs gs : List SizedField}

/-- The bytes that the fields themselves fill. -/
def dataBytes : List SizedField → Int
  | [] => 0
  | f :: fs => f.footprint.size + dataBytes fs

/-- The fields' bytes, rounded up to the largest alignment. -/
def leastSize (fs : List SizedField) : Int :=
  dataBytes fs + padding (dataBytes fs) (maxAlignment fs)

/-! ## What does not depend on the order -/

/-- The bytes of the fields do not depend on their order. -/
theorem dataBytes_perm (h : fs.Perm gs) : dataBytes fs = dataBytes gs := by
  induction h with
  | nil => rfl
  | cons f _ ih => exact congrArg ((f.footprint.size : Int) + ·) ih
  | swap f g fs => exact Int.add_left_comm _ _ _
  | trans _ _ ih1 ih2 => exact ih1.trans ih2

theorem dataBytes_nonneg (fs : List SizedField) : 0 ≤ dataBytes fs := by
  induction fs with
  | nil => exact Int.le_refl 0
  | cons f fs ih => exact Int.add_nonneg (Int.natCast_nonneg _) ih

/-- Placing fields keeps their sizes. -/
theorem foldr_size_placeAll (fs : List SizedField) :
    ∀ e, (placeAll e fs).foldr (fun p total => p.size + total) 0 = dataBytes fs := by
  induction fs with
  | nil => intro e; rfl
  | cons f fs ih =>
      intro e
      show (f.footprint.size : Int) + _ = f.footprint.size + dataBytes fs
      rw [ih]

theorem maxAlignment_perm (h : fs.Perm gs) : maxAlignment fs = maxAlignment gs := by
  induction h with
  | nil => rfl
  | cons f _ ih => exact congrArg (max f.footprint.alignment) ih
  | swap f g fs => exact Nat.max_left_comm _ _ _
  | trans _ _ ih1 ih2 => exact ih1.trans ih2

theorem leastSize_perm (h : fs.Perm gs) : leastSize fs = leastSize gs := by
  rw [leastSize, leastSize, dataBytes_perm h, maxAlignment_perm h]

theorem SizedField.AllRegular.perm (h : fs.Perm gs) (hfs : AllRegular fs) : AllRegular gs :=
  fun f hf => hfs f (h.mem_iff.mpr hf)

/-! ## The bound that every order keeps -/

/-- Packed fields need at least the room of their bytes. -/
theorem dataBytes_le_packedEnd (fs : List SizedField) :
    ∀ e, AllRegular fs → e + dataBytes fs ≤ packedEnd e fs := by
  induction fs with
  | nil => intro e _; show e + 0 ≤ e; omega
  | cons f fs ih =>
      intro e h
      have hpad := (SizedField.place_follows (h f List.mem_cons_self) e).padding_nonneg
      have hrest := ih (f.place e).endOffset fun g hg => h g (List.mem_cons_of_mem _ hg)
      have hend : (f.place e).endOffset =
          e + (f.place e).paddingBefore + f.footprint.size := rfl
      have hsum : dataBytes (f :: fs) = f.footprint.size + dataBytes fs := rfl
      show e + dataBytes (f :: fs) ≤ packedEnd (f.place e).endOffset fs
      omega

/-- No order of the fields takes less than the rounded sum of their sizes. -/
theorem leastSize_le (name : Text) (h : AllRegular fs) :
    leastSize fs ≤ (pack name fs).totalSize := by
  have hpos := maxAlignment_pos fs
  have hbytes := dataBytes_le_packedEnd fs 0 h
  have hpad := padding_nonneg hpos (packedEnd 0 fs)
  refine add_padding_le hpos (dvd_add_padding hpos _) ?_
  show dataBytes fs ≤ packedEnd 0 fs + padding (packedEnd 0 fs) (maxAlignment fs)
  omega

/-! ## Descending alignments leave no gaps -/

/-- A pass over descending alignments that starts at a multiple of all of them adds nothing
    but sizes: each alignment divides the ones before and with them the end reached so far. -/
theorem packedEnd_eq_of_descending (fs : List SizedField) :
    ∀ e : Int, AllRegular fs →
      fs.Pairwise (fun f g => g.footprint.alignment ≤ f.footprint.alignment) →
      (∀ f ∈ fs, (f.footprint.alignment : Int) ∣ e) →
      packedEnd e fs = e + dataBytes fs := by
  induction fs with
  | nil => intro e _ _ _; show e = e + 0; omega
  | cons f fs ih =>
      intro e h hdesc hdvd
      obtain ⟨hhead, htail⟩ := List.pairwise_cons.mp hdesc
      have hf := h f List.mem_cons_self
      have hpos : (0 : Int) < f.footprint.alignment := Int.natCast_pos.mpr hf.alignment_pos
      have hgap : padding e f.footprint.alignment = 0 :=
        padding_eq_zero hpos (hdvd f List.mem_cons_self)
      have hend : (f.place e).endOffset = e + f.footprint.size := by
        show e + padding e f.footprint.alignment + f.footprint.size = _
        omega
      have hrest := ih (e + f.footprint.size)
        (fun g hg => h g (List.mem_cons_of_mem _ hg)) htail ?_
      · show packedEnd (f.place e).endOffset fs = _
        have hsum : dataBytes (f :: fs) = f.footprint.size + dataBytes fs := rfl
        rw [hend, hrest]
        omega
      · intro g hg
        -- the alignment of g divides that of f, which divides the size of f
        have hgf : g.footprint.alignment ∣ f.footprint.size :=
          Nat.dvd_trans
            ((h g (List.mem_cons_of_mem _ hg)).alignment_dvd hf (hhead g hg)) hf.dvd_size
        exact Int.dvd_add (hdvd g (List.mem_cons_of_mem _ hg)) (Int.natCast_dvd_natCast.mpr hgf)

/-! ## The best order -/

/-- The order of the fields is by descending alignment, and then by descending size. -/
theorem SizedField.precedes_iff {f g : SizedField} :
    f.precedes g = true ↔ g.footprint.alignment < f.footprint.alignment ∨
      (f.footprint.alignment = g.footprint.alignment ∧
        g.footprint.size ≤ f.footprint.size) := by
  simp only [SizedField.precedes, Bool.or_eq_true, Bool.and_eq_true, decide_eq_true_eq, gt_iff_lt,
    ge_iff_le]

theorem SizedField.precedes_trans (f g h : SizedField) (hfg : f.precedes g = true)
    (hgh : g.precedes h = true) : f.precedes h = true := by
  rw [SizedField.precedes_iff] at *
  omega

theorem SizedField.precedes_total (f g : SizedField) :
    (f.precedes g || g.precedes f) = true := by
  rw [Bool.or_eq_true, SizedField.precedes_iff, SizedField.precedes_iff]
  omega

theorem bestOrder_perm (fs : List SizedField) : (bestOrder fs).Perm fs :=
  List.mergeSort_perm fs _

/-- The best order is by descending alignment and then by descending size. -/
theorem bestOrder_pairwise (fs : List SizedField) :
    (bestOrder fs).Pairwise (fun f g => f.precedes g = true) :=
  List.pairwise_mergeSort SizedField.precedes_trans SizedField.precedes_total fs

/-- In the best order the alignments descend. -/
theorem bestOrder_descending (fs : List SizedField) :
    (bestOrder fs).Pairwise (fun f g => g.footprint.alignment ≤ f.footprint.alignment) := by
  refine (bestOrder_pairwise fs).imp ?_
  intro f g h
  rcases SizedField.precedes_iff.mp h with hlt | ⟨heq, -⟩
  · exact Nat.le_of_lt hlt
  · exact Nat.le_of_eq heq.symm

/-- In the best order there is no padding between the fields. -/
theorem packedEnd_bestOrder (h : AllRegular fs) : packedEnd 0 (bestOrder fs) = dataBytes fs := by
  have hperm := bestOrder_perm fs
  rw [packedEnd_eq_of_descending _ 0 (h.perm hperm.symm) (bestOrder_descending fs)
    (fun _ _ => Int.dvd_zero _), dataBytes_perm hperm]
  omega

/-- The best order takes the rounded sum of the sizes. -/
theorem totalSize_pack_bestOrder (name : Text) (h : AllRegular fs) :
    (pack name (bestOrder fs)).totalSize = leastSize fs := by
  show packedEnd 0 (bestOrder fs) +
    padding (packedEnd 0 (bestOrder fs)) (maxAlignment (bestOrder fs)) = _
  rw [packedEnd_bestOrder h, maxAlignment_perm (bestOrder_perm fs), leastSize]

/-! ## Declarations -/

namespace Declaration

theorem sizedFields_withFields (w : WordSize) (d : Declaration) (fields : List Field) :
    (d.withFields fields).sizedFields w = fields.map (SizedField.ofField w) := rfl

/-- Sizing the fields of the best order again changes nothing. -/
theorem sizedFields_optimalOrder (w : WordSize) (d : Declaration) :
    (d.withFields (d.optimalOrder w)).sizedFields w = bestOrder (d.sizedFields w) := by
  rw [sizedFields_withFields, optimalOrder, List.map_map]
  refine (List.map_congr_left ?_).trans (List.map_id _)
  intro f hf
  obtain ⟨g, -, rfl⟩ := List.mem_map.mp ((bestOrder_perm _).mem_iff.mp hf)
  rfl

theorem dataSize_packed (w : WordSize) (d : Declaration) :
    (d.packed w).dataSize = dataBytes (d.sizedFields w) := foldr_size_placeAll _ 0

/-- The suggested order is one of the same fields. -/
theorem optimalOrder_perm (w : WordSize) (d : Declaration) :
    (d.optimalOrder w).Perm d.fields := by
  have h := (bestOrder_perm (d.sizedFields w)).map (·.field)
  rw [sizedFields, List.map_map] at h
  exact h.trans (List.Perm.of_eq (List.map_id d.fields))

theorem optimalSize_eq (w : WordSize) (d : Declaration) (l : Layout) :
    (d.optimality w l).optimalSize = leastSize (d.sizedFields w) :=
  totalSize_pack_bestOrder d.name (d.sizedFields_regular w)

/-- The least size of a struct is that of any of its orders. -/
theorem leastSize_withFields {w : WordSize} {d : Declaration} {fields : List Field}
    (h : fields.Perm d.fields) :
    leastSize ((d.withFields fields).sizedFields w) = leastSize (d.sizedFields w) :=
  leastSize_perm (h.map _)

theorem leastSize_nonneg (w : WordSize) (d : Declaration) :
    0 ≤ leastSize (d.sizedFields w) := by
  have hpos := maxAlignment_pos (d.sizedFields w)
  have hpad := padding_nonneg hpos (dataBytes (d.sizedFields w))
  have hdata := dataBytes_nonneg (d.sizedFields w)
  show 0 ≤ dataBytes (d.sizedFields w) + _
  omega

/-- A layout that can be computed is the packed one. -/
theorem eq_packed_of_layout {w : WordSize} {d : Declaration} {l : Layout}
    (h : d.layout w = .ok l) : l = d.packed w := by
  unfold layout at h
  split at h
  · exact (Except.ok.inj h).symm
  · exact nomatch h

/-- The size of a layout that can be computed can be written. -/
theorem writable_of_layout {w : WordSize} {d : Declaration} {l : Layout}
    (h : d.layout w = .ok l) : Decimal.writable l.totalSize = true := by
  have hpacked := eq_packed_of_layout h
  by_contra hlong
  rw [hpacked] at hlong
  rw [layout, if_neg hlong] at h
  exact nomatch h

/-- Every order of the fields takes at least the optimal size. -/
theorem optimalSize_le {w : WordSize} {d : Declaration} {fields : List Field} {l l' : Layout}
    (hperm : fields.Perm d.fields) (h : (d.withFields fields).layout w = .ok l') :
    (d.optimality w l).optimalSize ≤ l'.totalSize := by
  rw [optimalSize_eq, ← leastSize_withFields hperm, eq_packed_of_layout h]
  exact leastSize_le d.name ((d.withFields fields).sizedFields_regular w)

/-- Where the declared order can be written, so can the best one, and it takes the optimal
    size. -/
theorem layout_optimalOrder {w : WordSize} {d : Declaration} (l : Layout)
    (h : Decimal.writable (d.packed w).totalSize = true) :
    ∃ best, (d.withFields (d.optimalOrder w)).layout w = .ok best ∧
      best.totalSize = (d.optimality w l).optimalSize := by
  have hbest : ((d.withFields (d.optimalOrder w)).packed w).totalSize =
      leastSize (d.sizedFields w) := by
    show (pack d.name ((d.withFields (d.optimalOrder w)).sizedFields w)).totalSize = _
    rw [sizedFields_optimalOrder]
    exact totalSize_pack_bestOrder d.name (d.sizedFields_regular w)
  have hle := leastSize_le d.name (d.sizedFields_regular w)
  have hnonneg := d.leastSize_nonneg w
  -- what can be written is bounded in size, and the best order is the smaller one
  have hlt : (d.packed w).totalSize.natAbs < Decimal.writeBound := Decimal.writable_iff.mp h
  have hwrite : Decimal.writable ((d.withFields (d.optimalOrder w)).packed w).totalSize
      = true := by
    rw [Decimal.writable_iff, hbest]
    have hpacked : leastSize (d.sizedFields w) ≤ (d.packed w).totalSize := hle
    omega
  exact ⟨_, layout_eq_ok hwrite, by rw [hbest, optimalSize_eq]⟩

end Declaration

/-- What the comparison of a layout with the best order promises: the optimal size is the least
    total size over all orders of the fields, the reported order is one of them and attains it,
    and every declared order leads to the same optimal size. -/
structure Declaration.ReportsLeast (w : WordSize) (d : Declaration) (l : Layout) : Prop where
  isLeast : IsLeast {n | ∃ fields l', fields.Perm d.fields ∧
    (d.withFields fields).layout w = .ok l' ∧ l'.totalSize = n} (d.optimality w l).optimalSize
  order_perm : (d.optimalOrder w).Perm d.fields
  attained : ∃ best, (d.withFields (d.optimalOrder w)).layout w = .ok best ∧
    best.totalSize = (d.optimality w l).optimalSize
  unchanged : ∀ fields l', fields.Perm d.fields → (d.withFields fields).layout w = .ok l' →
    ((d.withFields fields).optimality w l').optimalSize = (d.optimality w l).optimalSize

/-- Every declaration whose size can be written is compared with the true minimum. -/
theorem Declaration.optimality_reportsLeast (w : WordSize) (d : Declaration)
    (h : Decimal.writable (d.packed w).totalSize = true) :
    ∃ l, d.layout w = .ok l ∧ d.ReportsLeast w l := by
  have hbest := layout_optimalOrder (d.packed w) h
  refine ⟨d.packed w, layout_eq_ok h, ⟨?_, ?_⟩, d.optimalOrder_perm w, hbest, ?_⟩
  · -- the best order itself is one of the orders
    obtain ⟨best, hlayout, hsize⟩ := hbest
    exact ⟨d.optimalOrder w, best, d.optimalOrder_perm w, hlayout, hsize⟩
  · rintro n ⟨fields, l', hperm, hlayout, rfl⟩
    exact optimalSize_le hperm hlayout
  · intro fields l' hperm _
    rw [optimalSize_eq, optimalSize_eq, leastSize_withFields hperm]

/-- A struct with a gap, an empty array and padding at its end. -/
theorem Declaration.optimality_reportsLeast_mixed :
    Decimal.writable (mixed.packed .four).totalSize = true ∧
      ∃ l, mixed.layout .four = .ok l ∧ mixed.ReportsLeast .four l :=
  ⟨by decide +kernel, optimality_reportsLeast .four mixed (by decide +kernel)⟩

end GoLayout
