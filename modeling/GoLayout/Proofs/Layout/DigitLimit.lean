import GoLayout.Analysis
import GoLayout.Proofs.Layout.SuggestedOrder
import GoLayout.Proofs.Text.Decimal
import Mathlib.Algebra.Group.Int.Defs
import Mathlib.Algebra.Group.Nat.Defs

/-! # Only the digit limit stops an analysis

    Numbers of more than 4300 digits cannot be written, and the analysis of a declaration writes
    several numbers on its way.  It comes to its end exactly if the total size of the struct can be
    written (`Progressed.ofSource_decidedBySize`).  The route:

    * `Analysis.written` is the analysis with each number written where it is reported, so that
      any one of them may stop it;
    * the alignment, the padding and the sizes that are compared lie between zero and the total
      size, or are those of a machine type, so that they can be written where the total size can
      (`Analysis.written_eq`);
    * a document is analysed declaration by declaration, and the first failure is the result
      (`Progressed.result_ofDeclarations`). -/

namespace GoLayout

namespace Decimal

variable {n : Int}

/-- The digits of an integer, unless they are too many. -/
def write? (n : Int) : Except TooManyDigits Text :=
  if writable n then .ok (ofInt n) else .error ⟨⟩

theorem write?_of_writable (h : writable n = true) : write? n = .ok (ofInt n) := if_pos h

theorem write?_of_not_writable (h : writable n = false) : write? n = .error ⟨⟩ :=
  if_neg (ne_true_of_eq_false h)

end Decimal

/-! ## The numbers of one declaration -/

namespace Declaration

variable {w : WordSize} {d : Declaration}

theorem totalSize_nonneg (w : WordSize) (d : Declaration) : 0 ≤ (d.packed w).totalSize :=
  Int.le_trans (d.leastSize_nonneg w) (leastSize_le d.name (d.sizedFields_regular w))

/-- The size of a struct can be written exactly if it has no more digits than the limit. -/
theorem totalSize_writable_iff (w : WordSize) (d : Declaration) :
    Decimal.writable (d.packed w).totalSize = true ↔
      (d.packed w).totalSize < 10 ^ Decimal.digitLimit :=
  Decimal.writable_iff_lt (d.totalSize_nonneg w)

/-- The bytes without a value are at most all bytes. -/
theorem totalPadding_packed (w : WordSize) (d : Declaration) :
    0 ≤ (d.packed w).totalPadding ∧ (d.packed w).totalPadding ≤ (d.packed w).totalSize := by
  have hdata := dataBytes_nonneg (d.sizedFields w)
  have hpad := padding_nonneg (maxAlignment_pos (d.sizedFields w)) (dataBytes (d.sizedFields w))
  have hle : leastSize (d.sizedFields w) ≤ (d.packed w).totalSize :=
    leastSize_le d.name (d.sizedFields_regular w)
  rw [Layout.totalPadding, dataSize_packed]
  rw [leastSize] at hle
  omega

/-- The alignment of a struct can always be written. -/
theorem alignment_writable (w : WordSize) (d : Declaration) :
    Decimal.writable (d.packed w).alignment = true := by
  have hmem := maxAlignment_regular (d.sizedFields_regular w)
  have hbound : 8 < Decimal.writeBound := by
    rw [Decimal.writeBound_eq]
    exact Nat.lt_of_lt_of_le (by decide : 8 < 10 ^ 1) (Nat.pow_le_pow_right (by decide) (by decide))
  show Decimal.writable (maxAlignment (d.sizedFields w) : Int) = true
  rw [Decimal.writable_iff]
  simp only [List.mem_cons, List.not_mem_nil, or_false] at hmem
  omega

/-- The record of a layout, if all of its numbers can be written. -/
def layoutRecord? (l : Layout) : Except Decimal.TooManyDigits Log.Record := do
  let size ← Decimal.write? l.totalSize
  let alignment ← Decimal.write? l.alignment
  let padding ← Decimal.write? l.totalPadding
  return .debug .packing ["Layout of ", l.name, ": ", size, " bytes, align ", alignment,
    ", padding ", padding]

/-- The records of a comparison, if all of their numbers can be written. -/
def optimalityRecords? (o : Optimality) : Except Decimal.TooManyDigits (List Log.Record) :=
  if o.isOptimizable then do
    let current ← Decimal.write? o.currentSize
    let optimal ← Decimal.write? o.optimalSize
    return [.debug .packing [o.name, " can shrink from ", current, " to ", optimal, " bytes"]]
  else return []

/-- Where the size can be written, what is reported of a layout can be. -/
theorem layoutRecord?_packed (h : Decimal.writable (d.packed w).totalSize = true) :
    layoutRecord? (d.packed w) = .ok (layoutRecord (d.packed w)) := by
  obtain ⟨hnonneg, hle⟩ := d.totalPadding_packed w
  rw [layoutRecord?, Decimal.write?_of_writable h,
    Decimal.write?_of_writable (d.alignment_writable w),
    Decimal.write?_of_writable (Decimal.writable_of_le h hnonneg hle)]
  rfl

/-- So can what is reported of its optimum, which is no larger. -/
theorem optimalityRecords?_packed (h : Decimal.writable (d.packed w).totalSize = true) :
    optimalityRecords? (d.optimality w (d.packed w)) =
      .ok (optimalityRecords (d.optimality w (d.packed w))) := by
  have hnonneg := d.leastSize_nonneg w
  have hle : leastSize (d.sizedFields w) ≤ (d.packed w).totalSize :=
    leastSize_le d.name (d.sizedFields_regular w)
  have hcurrent : (d.optimality w (d.packed w)).currentSize = (d.packed w).totalSize := rfl
  rw [← d.optimalSize_eq w (d.packed w)] at hnonneg hle
  rw [optimalityRecords?, optimalityRecords, hcurrent, Decimal.write?_of_writable h,
    Decimal.write?_of_writable (Decimal.writable_of_le h hnonneg hle)]
  split
  · rfl
  · rfl

end Declaration

namespace Analysis

variable {w : WordSize} {d : Declaration}

/-- The analysis of a declaration from its packed layout. -/
def ofPacked (w : WordSize) (d : Declaration) : Analysis :=
  ⟨d, d.packed w, d.optimality w (d.packed w)⟩

/-- The analysis of a declaration and what is reported on the way, each number written as it is
    reported. -/
def written (w : WordSize) (d : Declaration) :
    Except Decimal.TooManyDigits (Analysis × List Log.Record) := do
  let layoutRecord ← Declaration.layoutRecord? (d.packed w)
  let records ← Declaration.optimalityRecords? (d.optimality w (d.packed w))
  return (ofPacked w d, layoutRecord :: records)

theorem ofDeclaration_of_writable (h : Decimal.writable (d.packed w).totalSize = true) :
    ofDeclaration w d = .ok (ofPacked w d) := by
  rw [ofDeclaration, Declaration.layout_eq_ok h]
  rfl

theorem ofDeclaration_of_not_writable (h : Decimal.writable (d.packed w).totalSize = false) :
    ofDeclaration w d = .error ⟨⟩ := by
  rw [ofDeclaration, Declaration.layout, if_neg (ne_true_of_eq_false h)]
  rfl

/-- Of all numbers that are written only the total size decides. -/
theorem written_eq (w : WordSize) (d : Declaration) :
    written w d = (ofDeclaration w d).map fun a =>
      (a, Declaration.layoutRecord a.layout :: Declaration.optimalityRecords a.optimality) := by
  cases h : Decimal.writable (d.packed w).totalSize with
  | true =>
      rw [written, Declaration.layoutRecord?_packed h, Declaration.optimalityRecords?_packed h,
        ofDeclaration_of_writable h]
      rfl
  | false =>
      rw [written, Declaration.layoutRecord?, Decimal.write?_of_not_writable h,
        ofDeclaration_of_not_writable h]
      rfl

end Analysis

/-! ## Documents -/

namespace Progressed

/-- The analysis of declarations is that of each, up to the first failure. -/
theorem result_ofDeclarations (w : WordSize) (ds : List Declaration) :
    (ofDeclarations w ds).result = ds.mapM (Analysis.ofDeclaration w) := by
  induction ds with
  | nil => rfl
  | cons d ds ih =>
      rw [List.mapM_cons, ← ih, ofDeclarations]
      cases Analysis.ofDeclaration w d with
      | error e => rfl
      | ok a =>
          rw [result, result]
          cases (ofDeclarations w ds).stopped with
          | some e => rfl
          | none => rfl

/-- Declarations whose sizes can be written are all analysed. -/
theorem result_of_writable {w : WordSize} {ds : List Declaration}
    (h : ∀ d ∈ ds, Decimal.writable (d.packed w).totalSize = true) :
    (ofDeclarations w ds).result = .ok (ds.map (Analysis.ofPacked w)) := by
  rw [result_ofDeclarations]
  induction ds with
  | nil => rfl
  | cons d ds ih =>
      rw [List.mapM_cons, Analysis.ofDeclaration_of_writable (h d List.mem_cons_self)]
      show (ds.mapM (Analysis.ofDeclaration w) >>= fun as => .ok (Analysis.ofPacked w d :: as)) = _
      rw [ih fun e he => h e (List.mem_cons_of_mem _ he)]
      rfl

/-- One that cannot be written stops the analysis. -/
theorem result_of_not_writable {w : WordSize} {ds : List Declaration} {d : Declaration}
    (hd : d ∈ ds) (h : Decimal.writable (d.packed w).totalSize = false) :
    (ofDeclarations w ds).result = .error ⟨⟩ := by
  rw [result_ofDeclarations]
  induction ds with
  | nil => exact nomatch hd
  | cons e ds ih =>
      rw [List.mapM_cons]
      cases he : Decimal.writable (e.packed w).totalSize with
      | false =>
          rw [Analysis.ofDeclaration_of_not_writable he]
          rfl
      | true =>
          -- this declaration is not the one, which stands below
          have hmem : d ∈ ds := by
            rcases List.mem_cons.mp hd with rfl | hmem
            · rw [he] at h
              exact nomatch h
            · exact hmem
          rw [Analysis.ofDeclaration_of_writable he, ih hmem]
          rfl

theorem result_eq_ok_iff (w : WordSize) (ds : List Declaration) :
    (ofDeclarations w ds).result = .ok (ds.map (Analysis.ofPacked w)) ↔
      ∀ d ∈ ds, Decimal.writable (d.packed w).totalSize = true := by
  refine ⟨fun hok d hd => ?_, result_of_writable⟩
  by_contra h
  rw [result_of_not_writable hd (eq_false_of_ne_true h)] at hok
  exact nomatch hok

theorem result_eq_error_iff (w : WordSize) (ds : List Declaration) :
    (ofDeclarations w ds).result = .error ⟨⟩ ↔
      ∃ d ∈ ds, Decimal.writable (d.packed w).totalSize = false := by
  refine ⟨fun herror => ?_, fun ⟨d, hd, h⟩ => result_of_not_writable hd h⟩
  by_contra hnone
  have hall : ∀ d ∈ ds, Decimal.writable (d.packed w).totalSize = true :=
    fun d hd => eq_true_of_ne_false fun h => hnone ⟨d, hd, h⟩
  rw [result_of_writable hall] at herror
  exact nomatch herror

/-- Writing every number that is reported on the way does not change the result. -/
theorem result_eq_written (w : WordSize) (ds : List Declaration) :
    (ofDeclarations w ds).result = (ds.mapM (Analysis.written w)).map (List.map Prod.fst) := by
  rw [result_ofDeclarations]
  induction ds with
  | nil => rfl
  | cons d ds ih =>
      rw [List.mapM_cons, List.mapM_cons, ih, Analysis.written_eq]
      cases Analysis.ofDeclaration w d with
      | error e => rfl
      | ok a =>
          cases ds.mapM (Analysis.written w) with
          | error e => rfl
          | ok as => rfl

end Progressed

/-- The result of analysing declarations follows from their sizes alone: there is an entry for each
    of them if all sizes can be written, and none at all otherwise.  Writing every number that is
    reported on the way stops it nowhere else. -/
structure DecidedBySize (w : WordSize) (ds : List Declaration)
    (result : Except Decimal.TooManyDigits (List Analysis)) : Prop where
  ok_iff : result = .ok (ds.map (Analysis.ofPacked w)) ↔
    ∀ d ∈ ds, (d.packed w).totalSize < 10 ^ Decimal.digitLimit
  error_iff : result = .error ⟨⟩ ↔ ∃ d ∈ ds, 10 ^ Decimal.digitLimit ≤ (d.packed w).totalSize
  written : result = (ds.mapM (Analysis.written w)).map (List.map Prod.fst)

/-- Whatever a document says, its analysis gives one entry for each declaration, unless a struct
    has a size of too many digits. -/
theorem Progressed.ofSource_decidedBySize (w : WordSize) (allNames : Bool) (source : Text) :
    DecidedBySize w (Document.declarations allNames source)
      (Progressed.ofSource w allNames source).result := by
  refine ⟨(result_eq_ok_iff w _).trans ?_, (result_eq_error_iff w _).trans ?_,
    result_eq_written w _⟩
  · exact forall₂_congr fun d _ => d.totalSize_writable_iff w
  · refine exists_congr fun d => and_congr_right fun _ => ?_
    rw [← Int.not_lt, ← d.totalSize_writable_iff w, Bool.not_eq_true]

end GoLayout
