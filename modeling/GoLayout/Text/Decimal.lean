import GoLayout.Text.Basic
import GoLayout.Text.Word

/-! # Decimal numerals

    Writing integers, reading the numerals of settings and arguments, and the limit on
    both: a numeral of more than 4300 decimal digits is neither written nor read.
    `writable_iff` says which integers can be written. -/

namespace GoLayout.Decimal

/-- The largest number of decimal digits that are written or read. -/
def digitLimit : Nat := 4300

/-- An integer has too many digits to be written. -/
structure TooManyDigits where
  deriving Repr, DecidableEq

/-- The wording of the refusal to write an integer. -/
def TooManyDigits.message (_ : TooManyDigits) : Text :=
  "Exceeds the limit (4300 digits) for integer string conversion; " ++
    "use sys.set_int_max_str_digits() to increase the limit"

/-- The least natural number with too many digits. -/
@[irreducible] def writeBound : Nat := Nat.pow 10 digitLimit

/-- Can the integer be written? The sign does not count. -/
def writable (n : Int) : Bool := n.natAbs < writeBound

theorem writable_iff {n : Int} : writable n = true ↔ n.natAbs < writeBound := by
  simp [writable]

/-- The decimal digits of a natural number. -/
def ofNat (n : Nat) : Text := Nat.toDigits 10 n

/-- The decimal digits of an integer after a minus sign where it is negative. -/
def ofInt : Int → Text
  | .ofNat n => ofNat n
  | .negSucc n => '-' :: ofNat (n + 1)

/-- An integer in at least two places: one digit stands after a zero, and a minus sign
    takes a place. -/
def twoPlaces (n : Int) : Text := Text.padLeft 2 '0' (ofInt n)

/-- The blanks that may surround a numeral: every blank but the four information separators. -/
def isMargin (c : Char) : Bool := isBlank c && !(0x1c ≤ c.toNat && c.toNat ≤ 0x1f)

/-- The place values of a run of digits with at most one underscore between neighbours. -/
def digits? : Text → Option (List Nat)
  | [] => none
  | [c] => (digitValue? c).map ([·])
  | c :: '_' :: t => do
    let d ← digitValue? c
    let ds ← digits? t
    return d :: ds
  | c :: t => do
    let d ← digitValue? c
    let ds ← digits? t
    return d :: ds

/-- The number that a list of place values denotes in a base. -/
def ofPlaces (base : Nat) (ds : List Nat) : Nat := ds.foldl (fun n d => base * n + d) 0

/-- The natural number that a run of digits within the limit denotes. -/
def readNat? (t : Text) : Option Nat := do
  let ds ← digits? t
  if ds.length ≤ digitLimit then return ofPlaces 10 ds else none

/-- The integer that a numeral denotes: blanks around it, one sign, then digits. -/
def readInt? (t : Text) : Option Int :=
  match ((t.dropWhile isMargin).reverse.dropWhile isMargin).reverse with
  | '+' :: ds => (readNat? ds).map Int.ofNat
  | '-' :: ds => (readNat? ds).map fun n => -Int.ofNat n
  | ds => (readNat? ds).map Int.ofNat

end GoLayout.Decimal
