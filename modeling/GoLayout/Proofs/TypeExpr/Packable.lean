import GoLayout.Proofs.TypeExpr.IntLiteral
import GoLayout.Proofs.TypeExpr.Regular

/-! # Every type can be packed

    Any text at all, well formed or not, has a footprint whose values can be packed: the alignment
    is 1, 2, 4 or 8 and divides the size.  Each such footprint is that of some text, and blanks and
    parentheses around a text make no difference to its own (`footprintOf_packable`).  The route:

    * what is wrapped around a text comes off layer by layer, whatever the text is
      (`Form.Wrapped.peel_eq`);
    * every number has a literal (`ArrayLength.exists_denotes`), one of base sixteen since the
      decimal ones end at the limit on digits;
    * a regular footprint is therefore that of an array, of a predeclared type that is as large
      as its alignment (`Footprint.Regular.exists_footprintOf`). -/

namespace GoLayout

/-! ## What is wrapped around a text -/

namespace Form

/-- A text with blanks and pairs of parentheses put around it, in any order and number. -/
inductive Wrapped (core : Text) : Text → Prop where
  | bare : Wrapped core core
  | blanks {before t behind : Text} : Text.AllBlank before → Wrapped core t →
      Text.AllBlank behind → Wrapped core (before ++ t ++ behind)
  | parens {t : Text} : Wrapped core t → Wrapped core ('(' :: (t ++ [')']))

/-- All of the layers come off. -/
theorem Wrapped.peel_eq {core t : Text} (h : Wrapped core t) : peel t = peel core := by
  induction h with
  | bare => rfl
  | @blanks before t behind hbefore _ hbehind ih =>
      have htrim : Text.trim (before ++ t ++ behind) = Text.trim t := by
        rw [Text.trim_append_blanks hbehind, Text.trim, Text.trimLeft_append hbefore]
        rfl
      rw [peel_congr htrim, ih]
  | parens _ ih => rw [peel_paren, ih]

end Form

/-! ## Literals of all numbers -/

namespace ArrayLength

theorem exists_isDigit {d : Nat} (h : d < 16) : ∃ c, IsDigit c d :=
  ⟨_, _, List.mem_cons_self, List.getElem?_eq_getElem h⟩

/-- Place values of a base are those of digits, which need no underscores between them. -/
theorem exists_digits {base : Nat} {ds : List Nat} (hbase : base ≤ 16) (hne : ds ≠ [])
    (h : ∀ d ∈ ds, d < base) : ∃ t, Digits base t ds := by
  induction ds with
  | nil => exact absurd rfl hne
  | cons d ds ih =>
      obtain ⟨hd, hds⟩ := List.forall_mem_cons.mp h
      obtain ⟨c, hc⟩ := exists_isDigit (Nat.lt_of_lt_of_le hd hbase)
      cases ds with
      | nil => exact ⟨[c], .last hc hd⟩
      | cons e ds =>
          obtain ⟨t, ht⟩ := ih (List.cons_ne_nil e ds) hds
          exact ⟨c :: ([] ++ t), .cons hc hd .none ht⟩

/-- Every number has a literal, however large it is. -/
theorem exists_denotes (n : Nat) : ∃ t, Denotes t n := by
  by_cases hn : n = 0
  · rw [hn]
    exact ⟨_, .zero⟩
  · -- in base sixteen, since only decimal literals have a limit to their digits
    have hne : (Nat.digits 16 n).reverse ≠ [] := by
      rw [ne_eq, List.reverse_eq_nil_iff]
      exact Nat.digits_ne_nil_iff_ne_zero.mpr hn
    have hlt : ∀ d ∈ (Nat.digits 16 n).reverse, d < 16 :=
      fun d hd => Nat.digits_lt_base (by decide) (List.mem_reverse.mp hd)
    obtain ⟨t, ht⟩ := exists_digits (Nat.le_refl 16) hne hlt
    have hbased := @Denotes.based 'x' 16 [] t _ (by decide) .none ht
    rw [List.reverse_reverse, Nat.ofDigits_digits] at hbased
    exact ⟨_, hbased⟩

end ArrayLength

/-- Brackets around a literal, without blanks. -/
def ArrayBrackets.ofLiteral {literal : Text} {length : Nat}
    (h : ArrayLength.Denotes literal length) : ArrayBrackets where
  before := []
  literal := literal
  behind := []
  after := []
  length := length
  denotes := h
  before_blank := Text.allBlank_nil
  behind_blank := Text.allBlank_nil
  after_blank := Text.allBlank_nil

/-! ## Types of all regular footprints -/

/-- Types that are as large as their alignment, on every target, and their sizes. -/
def Predeclared.units : List (Nat × Text) :=
  [(1, "bool"), (2, "int16"), (4, "int32"), (8, "int64")]

/-- There is a type of every size that an alignment can have. -/
theorem Predeclared.exists_unit (w : WordSize) {a : Nat} (h : a ∈ [1, 2, 4, 8]) :
    ∃ t, footprintOf w t = ⟨a, a⟩ ∧ ¬ Text.AllBlank t ∧ '\n' ∉ t := by
  have hunits : ∀ e ∈ units,
      footprintOf w e.2 = ⟨e.1, e.1⟩ ∧ ¬ Text.AllBlank e.2 ∧ '\n' ∉ e.2 := by
    cases w with
    | four => decide +kernel
    | eight => decide +kernel
  obtain ⟨e, he, rfl⟩ := List.mem_map.mp (show a ∈ units.map (·.1) from h)
  exact ⟨e.2, hunits e he⟩

/-- Each regular footprint is that of some type. -/
theorem Footprint.Regular.exists_footprintOf (w : WordSize) {f : Footprint} (h : f.Regular) :
    ∃ t, footprintOf w t = f := by
  obtain ⟨count, hsize⟩ := h.dvd_size
  obtain ⟨literal, hliteral⟩ := ArrayLength.exists_denotes count
  obtain ⟨element, helement, hblank, hline⟩ := Predeclared.exists_unit w h.alignment_mem
  refine ⟨(ArrayBrackets.ofLiteral hliteral).text ++ element, ?_⟩
  rw [ArrayBrackets.footprintOf_append w _ hblank hline, helement]
  show Footprint.mk (count * f.alignment) f.alignment = f
  rw [Nat.mul_comm, ← hsize]

/-- The footprints of texts are the regular ones, all of them, and what is wrapped around a text
    has no influence on its footprint. -/
theorem footprintOf_packable (w : WordSize) :
    (∀ t, (footprintOf w t).Regular) ∧
    (∀ f : Footprint, f.Regular → ∃ t, footprintOf w t = f) ∧
    ∀ {t u : Text}, Form.Wrapped t u → footprintOf w u = footprintOf w t := by
  refine ⟨footprintOf_regular w, fun f hf => hf.exists_footprintOf w, ?_⟩
  intro t u h
  rw [footprintOf, Form.read_congr h.peel_eq]
  rfl

/-- Three complex numbers in two pairs of parentheses, and three numbers of eight bytes that keep
    their alignment where a word has four. -/
theorem footprintOf_packable_wrapped :
    Form.Wrapped "[0_3]complex128".toList " (\t([0_3]complex128 ))\n".toList ∧
      footprintOf .four " (\t([0_3]complex128 ))\n".toList = ⟨48, 8⟩ ∧
      (⟨24, 8⟩ : Footprint).Regular ∧ ∃ t, footprintOf .four t = ⟨24, 8⟩ := by
  have hspace : Text.AllBlank [' '] := by decide
  have htab : Text.AllBlank ['\t'] := by decide
  have hbreak : Text.AllBlank ['\n'] := by decide
  have hspaced : Form.Wrapped "[0_3]complex128".toList "[0_3]complex128 ".toList :=
    .blanks Text.allBlank_nil .bare hspace
  have hinner : Form.Wrapped "[0_3]complex128".toList "\t([0_3]complex128 )".toList :=
    .blanks htab (.parens hspaced) Text.allBlank_nil
  have hwrapped : Form.Wrapped "[0_3]complex128".toList " (\t([0_3]complex128 ))\n".toList :=
    .blanks hspace (.parens hinner) hbreak
  have hcore : footprintOf .four "[0_3]complex128".toList = ⟨48, 8⟩ := by decide +kernel
  have hregular : (⟨24, 8⟩ : Footprint).Regular := by decide
  obtain ⟨-, hreached, hsame⟩ := footprintOf_packable .four
  exact ⟨hwrapped, (hsame hwrapped).trans hcore, hregular, hreached _ hregular⟩

end GoLayout
