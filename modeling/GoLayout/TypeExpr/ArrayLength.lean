import GoLayout.Text.Decimal

/-! # Array lengths

    The length of an array type is an integer literal: decimal, or with one of the bases
    `0x`, `0o`, `0b`, or octal after a leading zero. Underscores may stand between the
    digits and do not count. -/

namespace GoLayout.ArrayLength

/-- The place value of a hexadecimal digit. -/
def hexValue? (c : Char) : Option Nat :=
  if '0' ≤ c && c ≤ '9' then some (c.toNat - '0'.toNat)
  else if 'a' ≤ c && c ≤ 'f' then some (c.toNat - 'a'.toNat + 10)
  else if 'A' ≤ c && c ≤ 'F' then some (c.toNat - 'A'.toNat + 10)
  else none

/-- The base that a letter after the leading zero names. -/
def base? (c : Char) : Option Nat :=
  if c = 'x' || c = 'X' then some 16
  else if c = 'o' || c = 'O' then some 8
  else if c = 'b' || c = 'B' then some 2
  else none

/-- May the character stand in a decimal literal after its first digit? -/
def isPlain (c : Char) : Bool := c.isDigit || c == '_'

/-- May the character stand in a literal after its base? -/
def isHex (c : Char) : Bool := (hexValue? c).isSome || c == '_'

/-- Does the text have the outline of a literal? Whether its digits fit its base is left to
    `value?`. -/
def isLiteral : Text → Bool
  | [] => false
  | [c] => c.isDigit
  | c :: d :: t =>
    if c = '0' && (base? d).isSome then !t.isEmpty && t.all isHex
    else c.isDigit && (d :: t).all isPlain

/-- The digits of a number in a base: at least one, each below the base. -/
def places? (base : Nat) : Text → Option (List Nat)
  | [] => none
  | t => t.mapM fun c => (hexValue? c).filter (· < base)

/-- The number that digits denote in a base. -/
def ofDigits? (base : Nat) (t : Text) : Option Nat := (places? base t).map (Decimal.ofPlaces base)

/-- The number that a literal denotes once its underscores are gone. A decimal literal has at
    most as many digits as `Decimal.digitLimit` allows. -/
def valueOfDigits? : Text → Option Nat
  | '0' :: c :: t =>
    match base? c with
    | some base => ofDigits? base t
    | none => ofDigits? 8 (c :: t)
  | t => if t.length ≤ Decimal.digitLimit then ofDigits? 10 t else none

/-- The number that a literal denotes. -/
def value? (t : Text) : Option Nat := valueOfDigits? (t.filter (· != '_'))

end GoLayout.ArrayLength
