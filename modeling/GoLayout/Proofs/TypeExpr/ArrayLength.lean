import GoLayout.Proofs.Text.Decimal
import GoLayout.TypeExpr.ArrayLength

/-! # Decimal array lengths

    The decimal digits of a number are a literal (`isLiteral_ofNat`) that denotes it, as long as
    there are not too many of them (`value?_ofNat`): they start with no zero but the one of zero
    itself, so that they are not taken for octal ones. -/

namespace GoLayout.ArrayLength

/-- A decimal digit has its own value among the hexadecimal ones. -/
theorem hexValue?_of_isDigit {c : Char} (h : c.isDigit = true) :
    (hexValue? c).filter (· < 10) = some (c.toNat - '0'.toNat) := by
  have hrange := Decimal.toNat_of_isDigit h
  have hvalue : hexValue? c = some (c.toNat - '0'.toNat) := by
    simp only [Char.isDigit, Bool.and_eq_true, decide_eq_true_eq] at h
    exact if_pos (by simp only [Bool.and_eq_true, decide_eq_true_eq]; exact h)
  have hzero : '0'.toNat = 48 := rfl
  rw [hvalue, Option.filter_some, if_pos (decide_eq_true (by omega))]

/-- Digits denote the number that they are the digits of. -/
theorem ofDigits?_ten {t : Text} (hne : t ≠ []) (h : ∀ c ∈ t, c.isDigit = true) :
    ofDigits? 10 t = some (Nat.ofDigitChars 10 t 0) := by
  have hplaces : places? 10 t = some (t.map fun c => c.toNat - '0'.toNat) := by
    have hmap : ∀ u : Text, (∀ c ∈ u, c.isDigit = true) →
        (u.mapM fun c => (hexValue? c).filter (· < 10)) =
          some (u.map fun c => c.toNat - '0'.toNat) := by
      intro u hu
      induction u with
      | nil => rfl
      | cons c u ih =>
          rw [List.mapM_cons, hexValue?_of_isDigit (hu c List.mem_cons_self),
            ih fun d hd => hu d (List.mem_cons_of_mem _ hd)]
          rfl
    cases t with
    | nil => exact absurd rfl hne
    | cons c t => exact hmap (c :: t) h
  rw [ofDigits?, hplaces, Option.map_some, Decimal.ofPlaces, List.foldl_map,
    Nat.ofDigitChars_eq_foldl]

/-- The digits of a positive number start with no zero. -/
theorem head?_toDigits_ne_zero {n : Nat} (h : 0 < n) :
    (Nat.toDigits 10 n).head? ≠ some '0' := by
  induction n using Nat.strongRecOn with
  | ind n ih =>
      by_cases hlt : n < 10
      · rw [Nat.toDigits_of_lt_base hlt]
        intro hzero
        exact absurd (Nat.digitChar_eq_zero.mp (Option.some.inj hzero)) (by omega)
      · -- the first digit is that of a tenth of the number, which is smaller and not zero either
        have hhead := ih (n / 10) (by omega) (by omega)
        rw [Nat.toDigits_of_base_le (by decide) (by omega)]
        cases hdigits : Nat.toDigits 10 (n / 10) with
        | nil => exact absurd hdigits Nat.toDigits_ne_nil
        | cons c t =>
            rw [hdigits] at hhead
            exact hhead

theorem base?_of_isDigit {c : Char} (h : c.isDigit = true) : base? c = none := by
  have hrange := Decimal.toNat_of_isDigit h
  have hne : ∀ d ∈ ['x', 'X', 'o', 'O', 'b', 'B'], c ≠ d := by
    intro d hd heq
    have hall : ['x', 'X', 'o', 'O', 'b', 'B'].all (57 < ·.toNat) = true := by decide
    have hd' := of_decide_eq_true (List.all_eq_true.mp hall d hd)
    rw [← heq] at hd'
    omega
  simp [base?, hne]

/-- The digits of a number denote it, within the limit. -/
theorem value?_ofNat {n : Nat} (h : (Decimal.ofNat n).length ≤ Decimal.digitLimit) :
    value? (Decimal.ofNat n) = some n := by
  have hdigits : ∀ c ∈ Decimal.ofNat n, c.isDigit = true :=
    fun c hc => Decimal.isDigit_of_mem_ofNat hc
  have hfilter : (Decimal.ofNat n).filter (· != '_') = Decimal.ofNat n := by
    refine List.filter_eq_self.mpr fun c hc => bne_iff_ne.mpr ?_
    rintro rfl
    exact absurd (hdigits _ hc) (by decide)
  have hten : ofDigits? 10 (Decimal.ofNat n) = some n := by
    rw [ofDigits?_ten (show Decimal.ofNat n ≠ [] from Nat.toDigits_ne_nil) hdigits, Decimal.ofNat,
      Nat.ofDigitChars_toDigits (by decide) (by decide)]
  rw [value?, hfilter]
  -- two digits of which the first is zero are those of no number
  unfold valueOfDigits?
  split
  · next c t heq =>
    exfalso
    by_cases hpos : 0 < n
    · have hhead := head?_toDigits_ne_zero hpos
      rw [show Nat.toDigits 10 n = '0' :: c :: t from heq] at hhead
      exact hhead rfl
    · rw [Nat.eq_zero_of_not_pos hpos] at heq
      exact List.cons_ne_nil c t (List.cons.inj heq).2.symm
  · rw [if_pos h, hten]

/-- Without a base behind a leading zero, digits and underscores are a literal. -/
theorem isLiteral_of_isPlain {c : Char} {u : Text} (hc : c.isDigit = true)
    (hu : ∀ d ∈ u, isPlain d = true) : isLiteral (c :: u) = true := by
  cases u with
  | nil => exact hc
  | cons e u =>
      -- the second character could name a base, but it is a digit or an underscore
      have hbase : base? e = none := by
        rcases Bool.or_eq_true_iff.mp (hu e List.mem_cons_self) with hdigit | hunderscore
        · exact base?_of_isDigit hdigit
        · rw [beq_iff_eq.mp hunderscore]
          decide
      rw [isLiteral, hbase, Option.isSome_none, Bool.and_false, if_neg Bool.false_ne_true, hc,
        Bool.true_and, List.all_eq_true]
      exact hu

/-- Every number is written as a literal. -/
theorem isLiteral_ofNat (n : Nat) : isLiteral (Decimal.ofNat n) = true := by
  have hdigits : ∀ c ∈ Decimal.ofNat n, c.isDigit = true :=
    fun c hc => Decimal.isDigit_of_mem_ofNat hc
  cases hn : Decimal.ofNat n with
  | nil => exact absurd hn Nat.toDigits_ne_nil
  | cons c t =>
      rw [hn] at hdigits
      obtain ⟨hc, ht⟩ := List.forall_mem_cons.mp hdigits
      refine isLiteral_of_isPlain hc fun d hd => ?_
      rw [isPlain, ht d hd, Bool.true_or]

end GoLayout.ArrayLength
