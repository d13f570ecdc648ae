import GoLayout.TypeExpr.Form

/-! # Regular footprints

    Whatever a type expression says, its alignment is that of a machine type and divides its
    size (`footprintOf_regular`).  The route:

    * the predeclared types are regular, and so is any number of words;
    * `Form.read` builds its forms from these alone (`Form.read_wellSized`);
    * an array repeats its element, which keeps the alignment and the divisibility. -/

namespace GoLayout

/-- A footprint of values that can be packed: the alignment is a power of two up to eight, and
    the values of an array stay aligned. -/
structure Footprint.Regular (f : Footprint) : Prop where
  alignment_mem : f.alignment ∈ [1, 2, 4, 8]
  dvd_size : f.alignment ∣ f.size

theorem Footprint.regular_iff {f : Footprint} :
    f.Regular ↔ f.alignment ∈ [1, 2, 4, 8] ∧ f.alignment ∣ f.size :=
  ⟨fun h => ⟨h.alignment_mem, h.dvd_size⟩, fun h => ⟨h.1, h.2⟩⟩

instance (f : Footprint) : Decidable f.Regular :=
  decidable_of_iff' _ Footprint.regular_iff

namespace Footprint.Regular

variable {f g : Footprint}

theorem alignment_pos (h : f.Regular) : 0 < f.alignment := by
  have hmem := h.alignment_mem
  simp only [List.mem_cons, List.not_mem_nil, or_false] at hmem
  omega

/-- Of two regular alignments the smaller one divides the larger one. -/
theorem alignment_dvd (hf : f.Regular) (hg : g.Regular) (h : f.alignment ≤ g.alignment) :
    f.alignment ∣ g.alignment := by
  have hpairs : ∀ a ∈ [1, 2, 4, 8], ∀ b ∈ [1, 2, 4, 8], a ≤ b → a ∣ b := by decide
  exact hpairs _ hf.alignment_mem _ hg.alignment_mem h

end Footprint.Regular

/-- Every number of words is regular. -/
theorem Measure.words_regular (w : WordSize) (count : Nat) :
    ((Measure.words count).footprint w).Regular := by
  refine ⟨?_, ⟨count, Nat.mul_comm _ _⟩⟩
  show w.bytes ∈ [1, 2, 4, 8]
  cases w with
  | four => decide
  | eight => decide

/-- Every predeclared type is regular. -/
theorem Predeclared.measure?_regular {name : Text} {m : Measure} (w : WordSize)
    (h : measure? name = some m) : (m.footprint w).Regular := by
  have htable : ∀ w, ∀ e ∈ table, (e.2.footprint w).Regular := by
    intro w
    cases w with
    | four => decide
    | eight => decide
  obtain ⟨before, after, heq, -⟩ := List.lookup_eq_some_iff.mp h
  exact htable w (name, m) (by simp [heq])

namespace Form

/-- Every measure that the form is built from is regular. -/
def WellSized : Form → Prop
  | sized measure => ∀ w, (measure.footprint w).Regular
  | array _ element => element.WellSized
  | badLength _ => True
  | unresolved _ => True

/-- Whatever a type that is no array says, it is well sized. -/
theorem ofSimple_wellSized (expr : Text) : (ofSimple expr).WellSized := by
  unfold ofSimple
  split
  · exact fun w => Measure.words_regular w 3
  · split
    · exact fun w => Measure.words_regular w 1
    · split
      · exact fun w => Measure.words_regular w 2
      · cases hm : Predeclared.measure? expr with
        | none => exact trivial
        | some m => exact fun w => Predeclared.measure?_regular w hm

theorem read_wellSized (t : Text) : (read t).WellSized := by
  fun_induction read t with
  | case1 t literal element _ length _ ih => exact ih
  | case2 => exact trivial
  | case3 t _ => exact ofSimple_wellSized (peel t)

/-- What is well sized has a regular footprint for both word sizes. -/
theorem footprint_regular (w : WordSize) {form : Form} (h : form.WellSized) :
    (form.footprint w).Regular := by
  induction form with
  | sized m => exact h w
  | array length element ih =>
      -- the alignment is the element's, and the size a multiple of the element's
      have he := ih h
      exact ⟨he.alignment_mem, Nat.dvd_mul_left_of_dvd he.dvd_size length⟩
  | badLength _ => exact Measure.words_regular w 1
  | unresolved _ => exact Measure.words_regular w 1

end Form

/-- Every type expression has a regular footprint. -/
theorem footprintOf_regular (w : WordSize) (t : Text) : (footprintOf w t).Regular :=
  Form.footprint_regular w (Form.read_wellSized t)

end GoLayout
