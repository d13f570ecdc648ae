import GoLayout.Layout.Basic

/-! # Memory maps

    The bytes of a struct as a list of regions, one line each: a field with its first and
    last byte, or padding with its first byte. -/

namespace GoLayout

/-- A run of bytes in a struct. -/
inductive Region where
  | padding (start size : Int)
  | field (start : Int) (name : Text) (size : Int)
  | finalPadding (start size : Int)
  deriving Repr, DecidableEq

namespace Region

/-- The region of a field; one without bytes has no last byte. -/
def fieldLine (start : Int) (name : Text) (size : Int) : Text :=
  if size > 0 then
    Text.concat ["[", Decimal.twoPlaces start, "-", Decimal.twoPlaces (start + size - 1), "] ",
      name, " (", Decimal.ofInt size, " bytes)"]
  else Text.concat ["[", Decimal.twoPlaces start, "] ", name, " (0 bytes)"]

/-- The line of a region. -/
def line : Region → Text
  | padding start size =>
    Text.concat ["[", Decimal.twoPlaces start, "] padding (", Decimal.ofInt size, " bytes)"]
  | field start name size => fieldLine start name size
  | finalPadding start size =>
    Text.concat ["[", Decimal.twoPlaces start, "] final padding (", Decimal.ofInt size,
      " bytes)"]

end Region

namespace Placement

/-- The padding that a map shows in front of a field. -/
def shownPadding (p : Placement) : Int := max p.paddingBefore 0

/-- The regions of a field and the padding in front of it, from a given byte on. -/
def regions (start : Int) (p : Placement) : List Region :=
  (if p.paddingBefore > 0 then [.padding start p.paddingBefore] else []) ++
    [.field (start + p.shownPadding) p.name p.size]

end Placement

namespace Layout

/-- The regions of fields from a given byte on. -/
def regionsFrom (start : Int) : List Placement → List Region
  | [] => []
  | p :: ps => p.regions start ++ regionsFrom (start + p.shownPadding + p.size) ps

/-- The first byte behind the fields that start at a given byte. -/
def mappedEnd (start : Int) : List Placement → Int
  | [] => start
  | p :: ps => mappedEnd (start + p.shownPadding + p.size) ps

/-- The regions of a struct. -/
def regions (l : Layout) : List Region :=
  regionsFrom 0 l.fields ++
    if mappedEnd 0 l.fields < l.totalSize then
      [.finalPadding (mappedEnd 0 l.fields) (l.totalSize - mappedEnd 0 l.fields)]
    else []

/-- The lines of the memory map, divided by line breaks. -/
def memoryMap (l : Layout) : Text := Text.joinWith ['\n'] (l.regions.map Region.line)

end Layout

end GoLayout
