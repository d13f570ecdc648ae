import GoLayout.Declaration
import GoLayout.Layout.Basic
import GoLayout.TypeExpr.Form

/-! # Packing

    Fields are placed one after the other, each at the next multiple of its alignment, and
    the struct ends at the next multiple of the largest alignment. The best order is by
    descending alignment and then by descending size; fields that agree in both keep their
    order. -/

namespace GoLayout

/-- The bytes from an offset to the next multiple of an alignment; the sign is that of the
    alignment. -/
def padding (offset alignment : Int) : Int := (-offset).fmod alignment

/-- There is no padding to a multiple of zero. -/
structure ZeroAlignment where
  deriving Repr, DecidableEq

/-- The wording of the refusal to align to zero. -/
def ZeroAlignment.message (_ : ZeroAlignment) : Text := "integer modulo by zero"

/-- The padding for an alignment from outside. -/
def padding? (offset alignment : Int) : Except ZeroAlignment Int :=
  if alignment = 0 then .error ⟨⟩ else .ok (padding offset alignment)

/-- A field whose type has been sized. -/
structure SizedField where
  field : Field
  footprint : Footprint
  deriving Repr, DecidableEq

namespace SizedField

/-- A field with its footprint on a target. -/
def ofField (w : WordSize) (f : Field) : SizedField := ⟨f, footprintOf w f.type⟩

/-- The place of the field behind a given end of the previous one. -/
def place (previousEnd : Int) (f : SizedField) : Placement :=
  let gap := padding previousEnd f.footprint.alignment
  ⟨f.field.name, f.field.type, f.footprint.size, f.footprint.alignment, previousEnd + gap, gap⟩

/-- Does the first field stand before the second in the best order, or may it? -/
def precedes (a b : SizedField) : Bool :=
  a.footprint.alignment > b.footprint.alignment ||
    (a.footprint.alignment = b.footprint.alignment && a.footprint.size ≥ b.footprint.size)

end SizedField

/-- The places of the fields in order, the first behind a given end. -/
def placeAll (previousEnd : Int) : List SizedField → List Placement
  | [] => []
  | f :: fs => f.place previousEnd :: placeAll (f.place previousEnd).endOffset fs

/-- The end of the last field when the first is placed behind a given end. -/
def packedEnd (previousEnd : Int) : List SizedField → Int
  | [] => previousEnd
  | f :: fs => packedEnd (f.place previousEnd).endOffset fs

/-- The largest alignment of the fields, at least one. -/
def maxAlignment : List SizedField → Nat
  | [] => 1
  | f :: fs => max f.footprint.alignment (maxAlignment fs)

/-- The layout of a struct whose fields are placed in the given order. -/
def pack (name : Text) (fields : List SizedField) : Layout where
  name := name
  fields := placeAll 0 fields
  totalSize := packedEnd 0 fields + padding (packedEnd 0 fields) (maxAlignment fields)
  alignment := maxAlignment fields

/-- Fields in the best order. -/
def bestOrder (fields : List SizedField) : List SizedField :=
  fields.mergeSort SizedField.precedes

namespace Declaration

/-- The fields of a declaration with their footprints. -/
def sizedFields (w : WordSize) (d : Declaration) : List SizedField :=
  d.fields.map (SizedField.ofField w)

/-- The packed layout of a declaration. -/
def packed (w : WordSize) (d : Declaration) : Layout := pack d.name (d.sizedFields w)

/-- The fields of a declaration in the best order. -/
def optimalOrder (w : WordSize) (d : Declaration) : List Field :=
  (bestOrder (d.sizedFields w)).map (·.field)

/-- The declaration with its fields in another order. -/
def withFields (d : Declaration) (fields : List Field) : Declaration := { d with fields }

/-- How the size of a layout of the declaration compares with the best order. -/
def optimality (w : WordSize) (d : Declaration) (l : Layout) : Optimality where
  name := d.name
  currentSize := l.totalSize
  optimalSize := (pack d.name (bestOrder (d.sizedFields w))).totalSize
  order := (d.optimalOrder w).map (·.name)

/-- The layout of a declaration. There is none if its size has too many digits to be
    reported. -/
def layout (w : WordSize) (d : Declaration) : Except Decimal.TooManyDigits Layout :=
  if Decimal.writable (d.packed w).totalSize then .ok (d.packed w) else .error ⟨⟩

/-- What is reported while the types of a declaration are sized. -/
def sizingRecords (w : WordSize) (d : Declaration) : List Log.Record :=
  d.fields.flatMap fun f => (Form.read f.type).records w

/-- What is reported once a layout is known. -/
def layoutRecord (l : Layout) : Log.Record :=
  .debug .packing ["Layout of ", l.name, ": ", Decimal.ofInt l.totalSize, " bytes, align ",
    Decimal.ofInt l.alignment, ", padding ", Decimal.ofInt l.totalPadding]

/-- What is reported of a struct that would shrink. -/
def optimalityRecords (o : Optimality) : List Log.Record :=
  if o.isOptimizable then
    [.debug .packing [o.name, " can shrink from ", Decimal.ofInt o.currentSize, " to ",
      Decimal.ofInt o.optimalSize, " bytes"]]
  else []

end Declaration

end GoLayout
