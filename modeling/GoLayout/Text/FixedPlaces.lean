import GoLayout.Text.Decimal

/-! # Fixed places

    A floating-point number is written with a fixed number of decimal places. The number is
    taken apart into its exact value, an integer times a power of two, and that value is
    rounded once, a half to the even neighbour. `two_mul_dist_roundDiv_le` says that the
    rounded quotient is within half a unit. -/

namespace GoLayout

/-- The integer nearest to a quotient; a half goes to the even neighbour. -/
def roundDiv (num den : Nat) : Nat :=
  let q := num / den
  let r := num % den
  if den < 2 * r || (den = 2 * r && q % 2 = 1) then q + 1 else q

/-- The rounded quotient is at most half a unit away from the quotient. -/
theorem two_mul_dist_roundDiv_le (num : Nat) {den : Nat} (h : 0 < den) :
    2 * num ≤ 2 * (roundDiv num den * den) + den ∧
      2 * (roundDiv num den * den) ≤ 2 * num + den := by
  have hq := Nat.div_add_mod num den
  have hr := Nat.mod_lt num h
  have hc : den * (num / den) = num / den * den := Nat.mul_comm _ _
  unfold roundDiv
  simp only [Bool.or_eq_true, Bool.and_eq_true, decide_eq_true_eq]
  split
  · rw [Nat.add_mul]
    omega
  · omega

/-- What a floating-point number stands for: nothing, an infinity, or a significand times a
    power of two. -/
inductive Binary where
  | nan
  | infinite (negative : Bool)
  | finite (negative : Bool) (significand : Nat) (exponent : Int)
  deriving Repr, DecidableEq

namespace Binary

/-- The number that 64 bits encode: a sign, eleven bits of exponent and 52 bits of
    fraction. -/
def ofBits (bits : UInt64) : Binary :=
  let negative := bits.toNat / Nat.pow 2 63 = 1
  let biased : Nat := bits.toNat / Nat.pow 2 52 % Nat.pow 2 11
  let fraction : Nat := bits.toNat % Nat.pow 2 52
  if biased = 2047 then (if fraction = 0 then infinite negative else nan)
  else if biased = 0 then finite negative fraction (-1074)
  else finite negative (Nat.pow 2 52 + fraction) (biased - 1075)

/-- The magnitude of a significand and a power of two in units of the given decimal place,
    rounded. -/
def units (places significand : Nat) (exponent : Int) : Nat :=
  roundDiv (significand * Nat.pow 10 places * Nat.pow 2 exponent.toNat)
    (Nat.pow 2 (-exponent).toNat)

/-- A number of units of a decimal place, with a point in front of the places. -/
def pointed (places n : Nat) : Text :=
  Text.concat [Decimal.ofNat (n / Nat.pow 10 places), ".",
    Text.padLeft places '0' (Decimal.ofNat (n % Nat.pow 10 places))]

/-- The number with the given number of places behind the point. A minus sign stands in
    front of a negative number, and of a negative zero too. -/
def fixed (places : Nat) : Binary → Text
  | nan => "nan"
  | infinite negative => if negative then "-inf" else "inf"
  | finite negative significand exponent =>
    (if negative then ['-'] else []) ++ pointed places (units places significand exponent)

end Binary

end GoLayout
