import GoLayout.Proofs.Layout.BestOrder

/-! # The two word sizes bound each other

    On a target with eight-byte words nothing of a struct is smaller than on one with four-byte
    words, and nothing is more than twice as large (`Declaration.layouts_widen`).  The route:

    * a form has at most twice as many bytes for words of twice the size
      (`Form.footprint_widens`), and alignments that are powers of two are equal or doubled, so
      that either one divides the other or its double (`Footprint.Regular.alignment_dvd`);
    * padding keeps the bounds: the end on the wide target is a multiple that the narrow one does
      not overtake, and the double of the narrow end is a multiple for the wide one
      (`Widens.add_padding`);
    * one placement moves both ends within the bounds, and from it by induction the whole pass
      (`placeAll_widens`); the least size is the padded sum of the sizes. -/

namespace GoLayout

/-- The second number is not smaller than the first, and at most twice as large. -/
structure Widens (narrow wide : Int) : Prop where
  le : narrow ≤ wide
  le_double : wide ≤ 2 * narrow

namespace Widens

variable {m m' n n' : Int}

theorem of_nonneg (h : 0 ≤ n) : Widens n n := ⟨Int.le_refl n, by omega⟩

theorem double (h : 0 ≤ n) : Widens n (2 * n) := ⟨by omega, Int.le_refl _⟩

theorem add (hm : Widens m m') (hn : Widens n n') : Widens (m + n) (m' + n') := by
  refine ⟨Int.add_le_add hm.le hn.le, ?_⟩
  rw [Int.mul_add]
  exact Int.add_le_add hm.le_double hn.le_double

theorem mul_left {k : Int} (hk : 0 ≤ k) (h : Widens n n') : Widens (k * n) (k * n') := by
  refine ⟨Int.mul_le_mul_of_nonneg_left h.le hk, ?_⟩
  rw [Int.mul_left_comm]
  exact Int.mul_le_mul_of_nonneg_left h.le_double hk

theorem max {a b c d : Nat} (hab : Widens a b) (hcd : Widens c d) :
    Widens (Max.max a c : Nat) (Max.max b d : Nat) := by
  have hle := hab.le
  have hle' := hcd.le
  have hdouble := hab.le_double
  have hdouble' := hcd.le_double
  exact ⟨by omega, by omega⟩

/-- Padding to alignments of which each divides the other or its double keeps the bounds. -/
theorem add_padding {a b : Int} (ha : 0 < a) (hb : 0 < b) (hab : a ∣ b) (hba : b ∣ 2 * a)
    (h : Widens n n') : Widens (n + padding n a) (n' + padding n' b) := by
  have hwide := padding_nonneg hb n'
  have hnarrow := padding_nonneg ha n
  have hle := h.le
  have hdouble := h.le_double
  constructor
  · -- the wide end is a multiple of the narrow alignment too
    exact add_padding_le ha (Int.dvd_trans hab (dvd_add_padding hb n')) (by omega)
  · -- and twice the narrow end one of the wide alignment
    have htwice : b ∣ 2 * (n + padding n a) :=
      Int.dvd_trans hba (Int.mul_dvd_mul (Int.dvd_refl 2) (dvd_add_padding ha n))
    exact add_padding_le hb htwice (by omega)

end Widens

/-! ## Footprints -/

/-- Size and alignment on the narrow target bound those on the wide one. -/
structure Footprint.WidensTo (narrow wide : Footprint) : Prop where
  size : Widens narrow.size wide.size
  alignment : Widens narrow.alignment wide.alignment

/-- A machine type is the same on both targets, or it has a number of words. -/
theorem Measure.footprint_widens (m : Measure) :
    (m.footprint .four).WidensTo (m.footprint .eight) := by
  cases m with
  | fixed size alignment =>
      exact ⟨.of_nonneg (Int.natCast_nonneg _), .of_nonneg (Int.natCast_nonneg _)⟩
  | words count =>
      constructor
      · show Widens ((count * 4 : Nat) : Int) ((count * 8 : Nat) : Int)
        exact ⟨by omega, by omega⟩
      · show Widens ((4 : Nat) : Int) ((8 : Nat) : Int)
        exact .double (by decide)

/-- An array widens as its elements do, and what cannot be sized has the size of a word. -/
theorem Form.footprint_widens (form : Form) :
    (form.footprint .four).WidensTo (form.footprint .eight) := by
  induction form with
  | sized m => exact m.footprint_widens
  | array length element ih =>
      refine ⟨?_, ih.alignment⟩
      show Widens ((length * (element.footprint .four).size : Nat) : Int)
        ((length * (element.footprint .eight).size : Nat) : Int)
      rw [Int.natCast_mul, Int.natCast_mul]
      exact .mul_left (Int.natCast_nonneg length) ih.size
  | badLength _ => exact (Measure.words 1).footprint_widens
  | unresolved _ => exact (Measure.words 1).footprint_widens

/-- Whatever it says, the text of a type has footprints that bound each other. -/
theorem footprintOf_widens (t : Text) :
    (footprintOf .four t).WidensTo (footprintOf .eight t) := (Form.read t).footprint_widens

/-- Alignments of machine types that bound each other divide each other or the double. -/
theorem dvd_of_widens {a b : Nat} (ha : a ∈ [1, 2, 4, 8]) (hb : b ∈ [1, 2, 4, 8])
    (h : Widens a b) : (a : Int) ∣ b ∧ (b : Int) ∣ 2 * a := by
  have hpairs : ∀ a ∈ [1, 2, 4, 8], ∀ b ∈ [1, 2, 4, 8], a ≤ b → b ≤ 2 * a →
      a ∣ b ∧ b ∣ 2 * a := by decide
  have hle := h.le
  have hdouble := h.le_double
  obtain ⟨hab, hba⟩ := hpairs a ha b hb (by omega) (by omega)
  exact ⟨Int.natCast_dvd_natCast.mpr hab, Int.natCast_dvd_natCast.mpr hba⟩

/-! ## Placements -/

/-- The same field on both targets: its size, its alignment and its offset on the narrow one bound
    those on the wide one. -/
structure Placement.WidensTo (narrow wide : Placement) : Prop where
  name_eq : narrow.name = wide.name
  type_eq : narrow.type = wide.type
  size : Widens narrow.size wide.size
  alignment : Widens narrow.alignment wide.alignment
  offset : Widens narrow.offset wide.offset

/-- A placement behind ends that bound each other. -/
theorem SizedField.place_widens (f : Field) {e e' : Int} (h : Widens e e') :
    ((ofField .four f).place e).WidensTo ((ofField .eight f).place e') := by
  have hnarrow := footprintOf_regular .four f.type
  have hwide := footprintOf_regular .eight f.type
  have hfoot := footprintOf_widens f.type
  -- for alignments of machine types to bound each other is to divide each other or the double
  obtain ⟨hdvd, hdvd'⟩ :=
    dvd_of_widens hnarrow.alignment_mem hwide.alignment_mem hfoot.alignment
  exact ⟨rfl, rfl, hfoot.size, hfoot.alignment,
    h.add_padding (Int.natCast_pos.mpr hnarrow.alignment_pos)
      (Int.natCast_pos.mpr hwide.alignment_pos) hdvd hdvd'⟩

/-- Passes that start at ends which bound each other place all fields so, and end so. -/
theorem placeAll_widens (fields : List Field) :
    ∀ {e e' : Int}, Widens e e' →
      List.Forall₂ Placement.WidensTo
          (placeAll e (fields.map (SizedField.ofField .four)))
          (placeAll e' (fields.map (SizedField.ofField .eight))) ∧
        Widens (packedEnd e (fields.map (SizedField.ofField .four)))
          (packedEnd e' (fields.map (SizedField.ofField .eight))) := by
  induction fields with
  | nil => intro e e' h; exact ⟨.nil, h⟩
  | cons f fields ih =>
      intro e e' h
      have hplace := SizedField.place_widens f h
      obtain ⟨hrest, hend⟩ := ih (hplace.offset.add hplace.size)
      exact ⟨.cons hplace hrest, hend⟩

/-- The bytes of the fields bound each other. -/
theorem dataBytes_widens (fields : List Field) :
    Widens (dataBytes (fields.map (SizedField.ofField .four)))
      (dataBytes (fields.map (SizedField.ofField .eight))) := by
  induction fields with
  | nil => exact .of_nonneg (Int.le_refl 0)
  | cons f fields ih => exact (footprintOf_widens f.type).size.add ih

theorem maxAlignment_widens (fields : List Field) :
    Widens (maxAlignment (fields.map (SizedField.ofField .four)))
      (maxAlignment (fields.map (SizedField.ofField .eight))) := by
  induction fields with
  | nil => exact .of_nonneg (by decide)
  | cons f fields ih => exact (footprintOf_widens f.type).alignment.max ih

/-! ## Declarations -/

namespace Declaration

/-- Ends that bound each other are padded to sizes that do. -/
theorem padded_widens (d : Declaration) {e e' : Int} (h : Widens e e') :
    Widens (e + padding e (maxAlignment (d.sizedFields .four)))
      (e' + padding e' (maxAlignment (d.sizedFields .eight))) := by
  obtain ⟨hdvd, hdvd'⟩ := dvd_of_widens (maxAlignment_regular (d.sizedFields_regular .four))
    (maxAlignment_regular (d.sizedFields_regular .eight)) (maxAlignment_widens d.fields)
  exact h.add_padding (maxAlignment_pos _) (maxAlignment_pos _) hdvd hdvd'

theorem totalSize_widens (d : Declaration) :
    Widens (d.packed .four).totalSize (d.packed .eight).totalSize :=
  d.padded_widens (placeAll_widens d.fields (.of_nonneg (Int.le_refl 0))).2

theorem leastSize_widens (d : Declaration) :
    Widens (leastSize (d.sizedFields .four)) (leastSize (d.sizedFields .eight)) :=
  d.padded_widens (dataBytes_widens d.fields)

/-- The layouts of the declaration for the two word sizes, field by field, as a whole and in the
    best order. -/
structure WidensTo (d : Declaration) (narrow wide : Layout) : Prop where
  fields : List.Forall₂ Placement.WidensTo narrow.fields wide.fields
  alignment : Widens narrow.alignment wide.alignment
  totalSize : Widens narrow.totalSize wide.totalSize
  optimalSize : Widens (d.optimality .four narrow).optimalSize (d.optimality .eight wide).optimalSize

/-- Every declaration whose size on the wide target can be written has a layout on both, and the
    two bound each other. -/
theorem layouts_widen (d : Declaration)
    (h : Decimal.writable (d.packed .eight).totalSize = true) :
    ∃ narrow wide, d.layout .four = .ok narrow ∧ d.layout .eight = .ok wide ∧
      d.WidensTo narrow wide := by
  have hsize := d.totalSize_widens
  -- the narrow size is the smaller one, so that it can be written too
  have hwritable : Decimal.writable (d.packed .four).totalSize = true := by
    have hle := hsize.le
    have hdouble := hsize.le_double
    have hbound := Decimal.writable_iff.mp h
    rw [Decimal.writable_iff]
    omega
  refine ⟨_, _, layout_eq_ok hwritable, layout_eq_ok h, ?_, maxAlignment_widens d.fields, hsize, ?_⟩
  · exact (placeAll_widens d.fields (.of_nonneg (Int.le_refl 0))).1
  · rw [optimalSize_eq, optimalSize_eq]
    exact d.leastSize_widens

theorem layouts_widen_mixed :
    Decimal.writable (mixed.packed .eight).totalSize = true ∧
      ∃ narrow wide, mixed.layout .four = .ok narrow ∧ mixed.layout .eight = .ok wide ∧
        mixed.WidensTo narrow wide :=
  ⟨by decide +kernel, layouts_widen mixed (by decide +kernel)⟩

end Declaration

end GoLayout
