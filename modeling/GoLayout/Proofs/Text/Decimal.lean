import GoLayout.Text.Decimal
import Mathlib.Algebra.Group.Int.Defs
import Mathlib.Algebra.Group.Nat.Defs

/-! # Numerals are read back

    The numeral of an integer denotes it, in two places or not, if the integer can be written
    (`readInt?_ofInt`, `readInt?_twoPlaces`).  The route:

    * digits without underscores denote the number that they are the digits of
      (`readNat?_of_isDigit`), and zeros in front of them change nothing;
    * neither a digit nor a sign is a margin, so that no character of a numeral is lost
      (`readInt?_of_isDigit`);
    * what can be written has no more digits than can be read (`length_ofNat_le`). -/

namespace GoLayout.Decimal

/-! ## What can be written -/

section

variable {n : Int}

/-- The bound on what can be written is a power of ten. -/
theorem writeBound_eq : writeBound = 10 ^ digitLimit := by
  unfold writeBound
  -- the number itself is too large to be computed
  generalize digitLimit = k
  rfl

/-- A natural number can be written exactly if it has no more digits than the limit. -/
theorem writable_iff_lt (h : 0 ≤ n) : writable n = true ↔ n < 10 ^ digitLimit := by
  rw [writable_iff, writeBound_eq, ← Int.ofNat_lt, Int.natAbs_of_nonneg h, Int.natCast_pow]
  rfl

/-- What is between zero and a number that can be written can be written as well. -/
theorem writable_of_le {m : Int} (h : writable n = true) (hm : 0 ≤ m) (hle : m ≤ n) :
    writable m = true := by
  rw [writable_iff] at h ⊢
  omega

/-- What is within the bound has no more digits than the limit. -/
theorem length_ofNat_le {m : Nat} (h : m < writeBound) : (ofNat m).length ≤ digitLimit := by
  rw [writeBound_eq] at h
  have hlimit : 0 < digitLimit := by decide
  -- the number itself is too large to be computed
  generalize digitLimit = k at *
  exact (Nat.length_toDigits_le_iff (by decide) hlimit).mpr h

end

/-! ## Digits -/

theorem isDigit_of_mem_ofNat {n : Nat} {c : Char} (h : c ∈ ofNat n) : c.isDigit = true :=
  Nat.isDigit_of_mem_toDigits (by decide) (by decide) h

theorem toNat_of_isDigit {c : Char} (h : c.isDigit = true) : 48 ≤ c.toNat ∧ c.toNat ≤ 57 := by
  simp only [Char.isDigit, Bool.and_eq_true, decide_eq_true_eq] at h
  exact ⟨h.1, h.2⟩

/-- The value of a digit is its distance from zero. -/
theorem digitValue?_of_isDigit {c : Char} (h : c.isDigit = true) :
    digitValue? c = some (c.toNat - '0'.toNat) := by
  have hrange := toNat_of_isDigit h
  rw [digitValue?, if_pos (by omega), if_pos h]

theorem isMargin_of_isDigit {c : Char} (h : c.isDigit = true) : isMargin c = false := by
  have hrange := toNat_of_isDigit h
  rw [isMargin, Bool.and_eq_false_iff]
  refine Or.inl (eq_false_of_ne_true fun hblank => ?_)
  have hcode := toNat_mem_of_isBlank hblank
  simp only [blankCodes, List.mem_cons, List.not_mem_nil, or_false] at hcode
  omega

theorem ne_of_isDigit {c d : Char} (h : c.isDigit = true) (hd : d.isDigit = false) : c ≠ d := by
  rintro rfl
  rw [h] at hd
  exact Bool.noConfusion hd

variable {t : Text}

/-- Digits without underscores are read one by one. -/
theorem digits?_of_isDigit (hne : t ≠ []) (h : ∀ c ∈ t, c.isDigit = true) :
    digits? t = some (t.map fun c => c.toNat - '0'.toNat) := by
  induction t with
  | nil => exact absurd rfl hne
  | cons c t ih =>
      obtain ⟨hc, ht⟩ := List.forall_mem_cons.mp h
      cases t with
      | nil =>
          rw [digits?, digitValue?_of_isDigit hc]
          rfl
      | cons d t =>
          -- an underscore would join the next digits, and no digit is one
          have hd : d ≠ '_' := ne_of_isDigit (List.forall_mem_cons.mp ht).1 (by decide)
          rw [digits?.eq_4 c (d :: t) (by simp) (by simp [hd])]
          rw [digitValue?_of_isDigit hc, ih (List.cons_ne_nil d t) ht]
          rfl

/-- Digits denote the number that they are the digits of. -/
theorem readNat?_of_isDigit (hne : t ≠ []) (h : ∀ c ∈ t, c.isDigit = true)
    (hlength : t.length ≤ digitLimit) : readNat? t = some (Nat.ofDigitChars 10 t 0) := by
  rw [readNat?, digits?_of_isDigit hne h]
  show (if (t.map _).length ≤ digitLimit then _ else _) = _
  rw [if_pos (by rw [List.length_map]; exact hlength), ofPlaces, List.foldl_map,
    Nat.ofDigitChars_eq_foldl]
  rfl

/-- Nothing is lost of a text without margins. -/
theorem dropWhile_isMargin (h : ∀ c ∈ t, isMargin c = false) :
    ((t.dropWhile isMargin).reverse.dropWhile isMargin).reverse = t := by
  have hdrop : ∀ u : Text, (∀ c ∈ u, isMargin c = false) → u.dropWhile isMargin = u := by
    intro u hu
    cases u with
    | nil => rfl
    | cons c u => rw [List.dropWhile_cons, hu c List.mem_cons_self, if_neg Bool.false_ne_true]
  rw [hdrop t h, hdrop t.reverse fun c hc => h c (List.mem_reverse.mp hc), List.reverse_reverse]

/-- Digits alone are read as the natural number that they denote. -/
theorem readInt?_of_isDigit (hne : t ≠ []) (h : ∀ c ∈ t, c.isDigit = true)
    (hlength : t.length ≤ digitLimit) : readInt? t = some (Nat.ofDigitChars 10 t 0) := by
  have hread := readNat?_of_isDigit hne h hlength
  rw [readInt?, dropWhile_isMargin fun c hc => isMargin_of_isDigit (h c hc)]
  cases t with
  | nil => exact absurd rfl hne
  | cons c t =>
      have hc := h c List.mem_cons_self
      have hplus : c ≠ '+' := ne_of_isDigit hc (by decide)
      have hminus : c ≠ '-' := ne_of_isDigit hc (by decide)
      split
      · next heq => exact absurd (List.cons.inj heq).1 hplus
      · next heq => exact absurd (List.cons.inj heq).1 hminus
      · rw [hread]
        rfl

/-- With a sign in front they denote its negative. -/
theorem readInt?_minus (hne : t ≠ []) (h : ∀ c ∈ t, c.isDigit = true)
    (hlength : t.length ≤ digitLimit) :
    readInt? ('-' :: t) = some (-(Nat.ofDigitChars 10 t 0 : Int)) := by
  have hmargin : ∀ c ∈ '-' :: t, isMargin c = false := by
    intro c hc
    rcases List.mem_cons.mp hc with rfl | hc
    · decide
    · exact isMargin_of_isDigit (h c hc)
  rw [readInt?, dropWhile_isMargin hmargin]
  show (readNat? t).map _ = _
  rw [readNat?_of_isDigit hne h hlength]
  rfl

/-! ## Numerals -/

/-- The numeral of an integer denotes it. -/
theorem readInt?_ofInt {n : Int} (h : writable n = true) : readInt? (ofInt n) = some n := by
  rw [writable_iff] at h
  cases n with
  | ofNat m =>
      have hread := readInt?_of_isDigit (t := ofNat m) Nat.toDigits_ne_nil
        (fun c hc => isDigit_of_mem_ofNat hc) (length_ofNat_le h)
      rw [ofInt, hread, ofNat, Nat.ofDigitChars_toDigits (by decide) (by decide)]
      rfl
  | negSucc m =>
      have hread := readInt?_minus (t := ofNat (m + 1)) Nat.toDigits_ne_nil
        (fun c hc => isDigit_of_mem_ofNat hc) (length_ofNat_le h)
      rw [ofInt, hread, ofNat, Nat.ofDigitChars_toDigits (by decide) (by decide)]
      rfl

/-- So does the one in two places. -/
theorem readInt?_twoPlaces {n : Int} (h : writable n = true) :
    readInt? (twoPlaces n) = some n := by
  cases n with
  | ofNat m =>
      have hsplit : twoPlaces (Int.ofNat m) =
          List.replicate (2 - (ofNat m).length) '0' ++ ofNat m := rfl
      have hne : twoPlaces (Int.ofNat m) ≠ [] := by
        rw [hsplit]
        exact List.append_ne_nil_of_right_ne_nil _ Nat.toDigits_ne_nil
      have hdigits : ∀ c ∈ twoPlaces (Int.ofNat m), c.isDigit = true := by
        intro c hc
        rcases List.mem_append.mp hc with hzero | hdigit
        · rw [List.eq_of_mem_replicate hzero]
          decide
        · exact isDigit_of_mem_ofNat hdigit
      have hlength : (twoPlaces (Int.ofNat m)).length ≤ digitLimit := by
        have hle : (ofNat m).length ≤ digitLimit := length_ofNat_le (writable_iff.mp h)
        have htwo : 2 ≤ digitLimit := by decide
        rw [hsplit, List.length_append, List.length_replicate]
        omega
      rw [readInt?_of_isDigit hne hdigits hlength, hsplit, Nat.ofDigitChars_append,
        Nat.ofDigitChars_replicate_zero, Nat.mul_zero, ofNat,
        Nat.ofDigitChars_toDigits (by decide) (by decide)]
      rfl
  | negSucc m =>
      -- the sign takes the other place
      have hpos : 0 < (ofNat (m + 1)).length := List.length_pos_iff.mpr Nat.toDigits_ne_nil
      have hplaces : 2 - (ofInt (.negSucc m)).length = 0 := by
        rw [ofInt, List.length_cons]
        omega
      have hsame : twoPlaces (.negSucc m) = ofInt (.negSucc m) := by
        rw [twoPlaces, Text.padLeft, hplaces]
        rfl
      rw [hsame, readInt?_ofInt h]

theorem newline_notMem_ofInt (n : Int) : '\n' ∉ ofInt n := by
  have hdigits : ∀ m, '\n' ∉ ofNat m := fun m hm =>
    ne_of_isDigit (isDigit_of_mem_ofNat hm) (by decide) rfl
  cases n with
  | ofNat m => exact hdigits m
  | negSucc m =>
      intro h
      rcases List.mem_cons.mp h with hminus | hdigit
      · exact absurd hminus (by decide)
      · exact hdigits (m + 1) hdigit

theorem newline_notMem_twoPlaces (n : Int) : '\n' ∉ twoPlaces n := by
  intro h
  rcases List.mem_append.mp h with hzero | hmem
  · exact absurd (List.eq_of_mem_replicate hzero) (by decide)
  · exact newline_notMem_ofInt n hmem

end GoLayout.Decimal
