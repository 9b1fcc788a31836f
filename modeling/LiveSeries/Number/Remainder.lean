import LiveSeries.Number.Binary64

/-!
# The remainder of two floats

`x - y · n` for the integer `n` nearest zero with `|x - y · n| < |y|`. The result is always a
float, so it is computed exactly: both operands are written over the smaller of their powers
of two, and the remainder is taken of the integers in front.
-/

namespace LiveSeries

/-- The integer in front of the power `2 ^ q`, for `q` at most the exponent. -/
def Dyadic.scaledTo (d : Dyadic) (q : Int) : Nat := d.significand * Nat.pow 2 (d.exponent - q).toNat

/-- The remainder of two finite floats, with the sign of the dividend. -/
def Dyadic.remainder (x y : Dyadic) : Dyadic :=
  let q := min x.exponent y.exponent
  ⟨x.negative, x.scaledTo q % y.scaledTo q, q⟩

/-- The float remainder: of an infinite dividend, by zero or with an operand that is not a
number there is none; by an infinite divisor the dividend remains. -/
def floatRemainder (x y : Float) : Float :=
  match Dyadic.ofFloat? x, Dyadic.ofFloat? y with
  | some a, some b => if b.significand = 0 then 0 / 0 else (a.remainder b).toFloat
  | some _, none => if y.isNaN then y else x
  | none, _ => 0 / 0

/-- A float remainder lies below the divisor. -/
theorem Dyadic.remainder_lt (x y : Dyadic) (h : 0 < y.significand) :
    (x.remainder y).significand < y.scaledTo (min x.exponent y.exponent) := by
  apply Nat.mod_lt
  exact Nat.mul_pos h (Nat.two_pow_pos _)

end LiveSeries
