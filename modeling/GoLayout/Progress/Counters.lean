import GoLayout.Analysis

/-! # Counters

    How much was done: documents, struct declarations and fields. `countAnalyses_append` says
    that only the structs count, not how they are grouped. -/

namespace GoLayout

/-- Numbers of documents, declarations and fields. -/
structure Counters where
  documents : Int
  declarations : Int
  fields : Int
  deriving Repr, DecidableEq

namespace Counters

/-- Nothing was done. -/
def zero : Counters := ⟨0, 0, 0⟩

/-- Can the numbers be written? -/
def writable (c : Counters) : Bool :=
  [c.documents, c.declarations, c.fields].all Decimal.writable

/-- One document more. -/
def countDocument (c : Counters) : Counters := { c with documents := c.documents + 1 }

/-- One declaration more, with the given number of fields. -/
def countDeclaration (c : Counters) (fields : Int) : Counters :=
  { c with declarations := c.declarations + 1, fields := c.fields + fields }

/-- The declarations of some analyses more. -/
def countAnalyses (c : Counters) (analyses : List Analysis) : Counters :=
  analyses.foldl (fun c a => c.countDeclaration a.declaration.fields.length) c

@[simp] theorem countAnalyses_nil (c : Counters) : c.countAnalyses [] = c := rfl

@[simp] theorem countAnalyses_cons (c : Counters) (a : Analysis) (as : List Analysis) :
    c.countAnalyses (a :: as) =
      (c.countDeclaration a.declaration.fields.length).countAnalyses as := rfl

theorem countAnalyses_append (c : Counters) (as bs : List Analysis) :
    c.countAnalyses (as ++ bs) = (c.countAnalyses as).countAnalyses bs :=
  List.foldl_append

end Counters

end GoLayout
