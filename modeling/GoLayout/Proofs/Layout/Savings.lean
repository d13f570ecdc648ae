import GoLayout.Proofs.Layout.BestOrder

/-! # What another order saves

    Whether a struct would shrink can be read off its own layout, without looking for a better
    order: it would exactly when its padding reaches its alignment
    (`Declaration.padding_decides`).  The route:

    * the optimal size is the least multiple of the alignment that holds the bytes of the fields
      (`Declaration.isLeast_optimalSize`), so that less than one alignment of it is padding;
    * the declared size is a multiple of the same alignment, and no smaller one, so that what is
      saved is a number of whole alignments (`Declaration.dvd_savings`);
    * the padding is what is saved and what the best order leaves, and the latter is less than one
      alignment. -/

namespace GoLayout

namespace Declaration

theorem dvd_totalSize (w : WordSize) (d : Declaration) :
    (d.packed w).alignment ∣ (d.packed w).totalSize :=
  dvd_add_padding (maxAlignment_pos (d.sizedFields w)) _

/-- The optimal size is the bytes of the fields, rounded up to the alignment. -/
theorem isLeast_optimalSize (w : WordSize) (d : Declaration) :
    IsLeast {n | (d.packed w).alignment ∣ n ∧ (d.packed w).dataSize ≤ n}
      (d.optimality w (d.packed w)).optimalSize := by
  rw [optimalSize_eq, dataSize_packed]
  exact isLeast_add_padding (maxAlignment_pos (d.sizedFields w)) _

/-- The best order leaves less than one alignment of padding. -/
theorem optimalSize_lt (w : WordSize) (d : Declaration) :
    (d.optimality w (d.packed w)).optimalSize <
      (d.packed w).dataSize + (d.packed w).alignment := by
  have hlt := padding_lt (maxAlignment_pos (d.sizedFields w)) (dataBytes (d.sizedFields w))
  rw [optimalSize_eq, dataSize_packed]
  exact Int.add_lt_add_left hlt _

/-- No order is better than the best one. -/
theorem savings_nonneg (w : WordSize) (d : Declaration) :
    0 ≤ (d.optimality w (d.packed w)).savings := by
  have hle : leastSize (d.sizedFields w) ≤ (d.packed w).totalSize :=
    leastSize_le d.name (d.sizedFields_regular w)
  have hsavings : (d.optimality w (d.packed w)).savings =
      (d.packed w).totalSize - (d.optimality w (d.packed w)).optimalSize := rfl
  rw [hsavings, optimalSize_eq]
  omega

/-- The sizes in both orders are multiples of the alignment, and so is what is between them. -/
theorem dvd_savings (w : WordSize) (d : Declaration) :
    (d.packed w).alignment ∣ (d.optimality w (d.packed w)).savings :=
  Int.dvd_sub (d.dvd_totalSize w) (d.isLeast_optimalSize w).1.1

/-- The padding is what the best order saves and what it leaves. -/
theorem totalPadding_eq_add (w : WordSize) (d : Declaration) :
    (d.packed w).totalPadding = (d.optimality w (d.packed w)).savings +
      ((d.optimality w (d.packed w)).optimalSize - (d.packed w).dataSize) := by
  have hsavings : (d.optimality w (d.packed w)).savings =
      (d.packed w).totalSize - (d.optimality w (d.packed w)).optimalSize := rfl
  rw [Layout.totalPadding, hsavings]
  omega

end Declaration

theorem Optimality.isOptimizable_iff (o : Optimality) : o.isOptimizable = true ↔ 0 < o.savings := by
  rw [isOptimizable, decide_eq_true_eq, savings]
  omega

/-- The layout of the declaration tells what another order saves: the best one needs the bytes of
    the fields and no more than they must be rounded up by, it saves whole alignments, and it saves
    any exactly if the padding reaches the alignment. -/
structure Declaration.TellsSavings (w : WordSize) (d : Declaration) (l : Layout) : Prop where
  optimalSize : IsLeast {n | l.alignment ∣ n ∧ l.dataSize ≤ n} (d.optimality w l).optimalSize
  savings_nonneg : 0 ≤ (d.optimality w l).savings
  dvd_savings : l.alignment ∣ (d.optimality w l).savings
  isOptimizable_iff : (d.optimality w l).isOptimizable = true ↔ l.alignment ≤ l.totalPadding

/-- Every declaration whose size can be written would shrink exactly if its padding reaches its
    alignment. -/
theorem Declaration.padding_decides (w : WordSize) (d : Declaration)
    (h : Decimal.writable (d.packed w).totalSize = true) :
    ∃ l, d.layout w = .ok l ∧ d.TellsSavings w l := by
  have hleast := d.isLeast_optimalSize w
  have hdvd := d.dvd_savings w
  refine ⟨d.packed w, layout_eq_ok h, hleast, d.savings_nonneg w, hdvd, ?_⟩
  have hpadding := d.totalPadding_eq_add w
  have hdata := hleast.1.2
  rw [Optimality.isOptimizable_iff]
  constructor
  · intro hpos
    -- what is saved is a positive multiple of the alignment
    have hle := Int.le_of_dvd hpos hdvd
    omega
  · intro hle
    have hlt := d.optimalSize_lt w
    omega

theorem Declaration.padding_decides_mixed :
    Decimal.writable (mixed.packed .eight).totalSize = true ∧
      ∃ l, mixed.layout .eight = .ok l ∧ mixed.TellsSavings .eight l :=
  ⟨by decide +kernel, padding_decides .eight mixed (by decide +kernel)⟩

end GoLayout
