/-!
# The parts of a binary float

A finite float of 64 bits is `± m · 2 ^ q` for one natural `m < 2 ^ 53` and one `q ≥ -1074`,
read off its bit pattern. Exact questions about floats are answered on `m` and `q`.
-/

namespace LiveSeries

/-- A finite float as sign, integer significand and power of two. -/
structure Dyadic where
  negative : Bool
  significand : Nat
  exponent : Int
  deriving DecidableEq, Repr

namespace Dyadic

/-- The significand bit in front of the fraction, the 53rd one; a pattern leaves it out. -/
def leadingBit : Nat := 0x10000000000000

/-- The sign bit of a bit pattern, the 64th one. -/
def signBit : Nat := 0x8000000000000000

/-- The field of the exponent in a bit pattern, 11 bits wide. -/
def exponentField (bits : Nat) : Nat := bits / leadingBit % 0x800

/-- The field of the fraction in a bit pattern. -/
def fractionField (bits : Nat) : Nat := bits % leadingBit

/-- The parts of a finite float, `none` for infinities and what is not a number. -/
def ofFloat? (x : Float) : Option Dyadic :=
  let bits := x.toBits.toNat
  let negative := bits / signBit == 1
  let field := exponentField bits
  if field = 2047 then none
  else if field = 0 then some ⟨negative, fractionField bits, -1074⟩
  else some ⟨negative, leadingBit + fractionField bits, (field : Int) - 1075⟩

/-- The bit pattern of `± m · 2 ^ q` for `m < 2 ^ 53` and `q ≥ -1074`: the significand is shifted
up until it has 53 bits or the exponent is the least one. -/
def pattern (negative : Bool) (m : Nat) (q : Int) : Nat :=
  let sign := if negative then signBit else 0
  if m = 0 then sign
  else
    let up := 52 - m.log2
    let room := (q + 1074).toNat
    if up ≤ room then
      sign + ((q - up) + 1075).toNat * leadingBit + (m * Nat.pow 2 up - leadingBit)
    else sign + m * Nat.pow 2 room

/-- The float with the given parts. -/
def toFloat (d : Dyadic) : Float :=
  Float.ofBits (UInt64.ofNat (pattern d.negative d.significand d.exponent))

end Dyadic

end LiveSeries
