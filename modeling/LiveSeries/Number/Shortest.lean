import LiveSeries.Number.Binary64

/-!
# The shortest decimal of a float

The decimal with the fewest digits that reads back as a given float, and of those the nearest.
All comparisons are exact: the float is `m · 2 ^ q`, and the reals that read back as it lie
between the midpoints to its neighbours, the midpoints included if `m` is even.
-/

namespace LiveSeries

/-- A decimal `digits · 10 ^ exponent`. -/
structure Decimal where
  digits : Nat
  exponent : Int
  deriving DecidableEq, Repr

namespace Shortest

/-- A fraction of naturals. -/
structure Ratio where
  numerator : Nat
  denominator : Nat

/-- The natural `n` times a power of an integer exponent. -/
def scale (n base : Nat) (exponent : Int) : Ratio :=
  if 0 ≤ exponent then ⟨n * base.pow exponent.toNat, 1⟩ else ⟨n, base.pow (-exponent).toNat⟩

/-- The first fraction is below the second one. -/
def Ratio.below (a b : Ratio) : Bool := a.numerator * b.denominator < b.numerator * a.denominator

/-- The interval of reals that read back as a float: its ends, in quarters of the last place of
the float. The gap below a power of two is half as wide. -/
structure Interval where
  low : Ratio
  high : Ratio
  closed : Bool

def Interval.ofDyadic (d : Dyadic) : Interval :=
  let narrow := d.significand = Dyadic.leadingBit ∧ d.exponent > -1074
  { low := scale (4 * d.significand - if narrow then 1 else 2) 2 (d.exponent - 2)
    high := scale (4 * d.significand + 2) 2 (d.exponent - 2)
    closed := d.significand % 2 = 0 }

def Interval.contains (i : Interval) (x : Ratio) : Bool :=
  (i.low.below x && x.below i.high) || (i.closed && !(x.below i.low) && !(i.high.below x))

/-- The distance of two fractions, over the product of their denominators. -/
def distance (a b : Ratio) : Nat :=
  let x := a.numerator * b.denominator
  let y := b.numerator * a.denominator
  (x - y) + (y - x)

/-- The nearest decimal on the grid of a power of ten that reads back, if there is one, and the
greater one of two that are equally near. Only the two neighbours of the float on the grid have
to be tried. -/
def onGrid? (d : Dyadic) (power : Int) : Option Decimal :=
  let exact := scale d.significand 2 d.exponent
  let unit := scale 1 10 power
  let below := exact.numerator * unit.denominator / (exact.denominator * unit.numerator)
  let hits := [below, below + 1].filter fun n =>
    n ≠ 0 && (Interval.ofDyadic d).contains (scale n 10 power)
  match hits with
  | [] => none
  | [n] => some ⟨n, power⟩
  | n :: m :: _ =>
    if distance (scale m 10 power) exact ≤ distance (scale n 10 power) exact then some ⟨m, power⟩
    else some ⟨n, power⟩

/-- The first grid with a hit, from coarse to fine. -/
def search (d : Dyadic) : Nat → Int → Decimal
  | 0, power => ⟨d.significand, power⟩
  | steps + 1, power =>
    match onGrid? d power with
    | some found => found
    | none => search d steps (power - 1)

/-- The shortest decimal of a float that is not zero. No float has more than 309 digits in front
of the point, and 17 significant digits always suffice. -/
def decimal (d : Dyadic) : Decimal := search d 660 309

end Shortest

end LiveSeries
