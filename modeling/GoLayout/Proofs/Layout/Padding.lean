import GoLayout.Layout.Packing
import Mathlib.Order.Bounds.Basic

/-! # Padding up to a multiple

    Behind the padding of a positive alignment lies the next multiple of it:

    * the padding is not negative and stays below the alignment;
    * it leads to a multiple (`dvd_add_padding`), and to the least one that is not before the
      offset (`isLeast_add_padding`). -/

namespace GoLayout

/-- The padding is what is missing to the next multiple. -/
theorem padding_eq_emod {alignment : Int} (h : 0 < alignment) (offset : Int) :
    padding offset alignment = (-offset) % alignment :=
  Int.fmod_eq_emod_of_nonneg (-offset) (Int.le_of_lt h)

theorem padding_nonneg {alignment : Int} (h : 0 < alignment) (offset : Int) :
    0 ≤ padding offset alignment := by
  rw [padding_eq_emod h]
  exact Int.emod_nonneg (-offset) (by omega)

theorem padding_lt {alignment : Int} (h : 0 < alignment) (offset : Int) :
    padding offset alignment < alignment := by
  rw [padding_eq_emod h]
  exact Int.emod_lt_of_pos (-offset) h

theorem dvd_add_padding {alignment : Int} (h : 0 < alignment) (offset : Int) :
    alignment ∣ offset + padding offset alignment := by
  rw [padding_eq_emod h]
  refine ⟨-(-offset / alignment), ?_⟩
  have hdiv := Int.mul_ediv_add_emod (-offset) alignment
  rw [Int.mul_neg]
  omega

/-- No multiple that is not before the offset is before the padded one. -/
theorem add_padding_le {alignment offset target : Int} (h : 0 < alignment)
    (hdvd : alignment ∣ target) (hle : offset ≤ target) :
    offset + padding offset alignment ≤ target := by
  have hlt := padding_lt h offset
  -- two multiples that are less than one alignment apart are in order
  obtain ⟨k, hk⟩ := Int.dvd_sub (dvd_add_padding h offset) hdvd
  by_cases hpos : 0 < k
  · have hmul : alignment * 1 ≤ alignment * k :=
      Int.mul_le_mul_of_nonneg_left (by omega) (by omega)
    omega
  · have hmul : alignment * k ≤ alignment * 0 :=
      Int.mul_le_mul_of_nonneg_left (by omega) (by omega)
    omega

/-- The padded offset is the least multiple that is not in front of the offset. -/
theorem isLeast_add_padding {alignment : Int} (h : 0 < alignment) (offset : Int) :
    IsLeast {n | alignment ∣ n ∧ offset ≤ n} (offset + padding offset alignment) := by
  constructor
  · have hge := padding_nonneg h offset
    exact ⟨dvd_add_padding h offset, by omega⟩
  · rintro n ⟨hdvd, hle⟩
    exact add_padding_le h hdvd hle

theorem padding_eq_zero {alignment offset : Int} (h : 0 < alignment)
    (hdvd : alignment ∣ offset) : padding offset alignment = 0 := by
  have hge := padding_nonneg h offset
  have hle := add_padding_le h hdvd (Int.le_refl offset)
  omega

end GoLayout
