import IntentGraph.Number.Binary64

/-!
# Shortest decimals

The decimal that stands for a double-precision number: the fewest digits that
are read back as that number, and among equally short ones the nearest; halfway
between two, the one whose last digit is even.

`Decimal.ofBinary64` looks at grids of one, two, … seventeen significant digits.
On each grid only the two neighbours of the number matter; the first grid on
which one of them lies in the interval of reals that round to the number gives
the answer.
-/

namespace IntentGraph

/-- A positive decimal `digits · 10 ^ exponent`. -/
structure Decimal where
  digits : Nat
  exponent : Int
  deriving DecidableEq

namespace Decimal

/-- Compares `a · 2 ^ p` with `b · 10 ^ q` by clearing the negative powers. -/
def compareScaled (a : Nat) (p : Int) (b : Nat) (q : Int) : Ordering :=
  compare (a * twoTo p * tenTo (-q)) (b * tenTo q * twoTo (-p))

/-- The reals that round to a number, in quarters of its last place: the open
interval between the bounds, and the bounds themselves when the significand is
even. -/
structure Interval where
  lower : Nat
  upper : Nat
  quarter : Int
  closed : Bool

/-- The reals that round to `significand · 2 ^ exponent`. Below a power of two
the numbers lie twice as close. -/
def Interval.ofBinary64 (x : Binary64) : Interval where
  lower := 4 * x.significand -
    (if x.significand = twoTo 52 ∧ Binary64.leastExponent < x.exponent
      then 1 else 2)
  upper := 4 * x.significand + 2
  quarter := x.exponent - 2
  closed := x.significand % 2 == 0

/-- Whether `digits · 10 ^ exponent` lies in the interval. -/
def Interval.holds (i : Interval) (d : Decimal) : Bool :=
  let below := compareScaled i.lower i.quarter d.digits d.exponent
  let above := compareScaled i.upper i.quarter d.digits d.exponent
  (below == .lt || i.closed && below == .eq)
    && (above == .gt || i.closed && above == .eq)

/-- The number of decimal digits before the point of a positive quotient; zero
or negative for a quotient below one tenth or one. -/
def pointPosition (numerator denominator : Nat) : Int :=
  let guess : Int :=
    (Nat.toDigits 10 numerator).length - (Nat.toDigits 10 denominator).length
  if denominator * tenTo guess ≤ numerator * tenTo (-guess) then
    guess + 1
  else guess

/-- The neighbours of the number on the grid of the multiples of
`10 ^ exponent`, those in the interval only, the nearer first. -/
def candidates (x : Binary64) (i : Interval) (exponent : Int) : List Decimal :=
  let (n, d) := Binary64.scaledRatio x.significand 1 x.exponent
  let floor := n * tenTo (-exponent) / (d * tenTo exponent)
  let low : Decimal := ⟨floor, exponent⟩
  let high : Decimal := ⟨floor + 1, exponent⟩
  let nearest :=
    match compareScaled (2 * x.significand) x.exponent
      (2 * floor + 1) exponent with
    | .lt => [low, high]
    | .eq => if floor % 2 = 0 then [low, high] else [high, low]
    | .gt => [high, low]
  nearest.filter i.holds

/-- The first hit on the grids of `n` digits and more, or else the floor on the
last grid. -/
def search (x : Binary64) (i : Interval) (point : Int) : Nat → Nat → Decimal
  -- seventeen digits always suffice, so this is never reached
  | 0, n => ⟨x.significand, point - n⟩
  | fuel + 1, n =>
    match candidates x i (point - n) with
    | d :: _ => d
    | [] => search x i point fuel (n + 1)

/-- The decimal without zeros at the end of its digits. -/
def trimZeros (d : Decimal) : Decimal :=
  let zeros := (Nat.toDigits 10 d.digits).reverse.takeWhile (· = '0') |>.length
  ⟨d.digits / tenTo zeros, d.exponent + zeros⟩

/-- The shortest decimal that is read back as the nonzero number, sign apart. -/
def ofBinary64 (x : Binary64) : Decimal :=
  let (n, d) := Binary64.scaledRatio x.significand 1 x.exponent
  (search x (.ofBinary64 x) (pointPosition n d) 17 1).trimZeros

end Decimal

/-! ## Written form -/

/-- How a format writes the exponent of a large number. -/
structure FloatStyle where
  positiveSign : String

/-- The digits of a shortest decimal: positional from five places after the
point up to sixteen before it, with an exponent outside, and never without a
point or an exponent. -/
def Decimal.render (style : FloatStyle) (d : Decimal) : String :=
  let digits := Nat.toDigits 10 d.digits
  let point : Int := digits.length + d.exponent
  let zeros (n : Int) : List Char := List.replicate n.toNat '0'
  if 0 ≤ d.exponent ∧ point ≤ 16 then
    String.ofList (digits ++ zeros d.exponent ++ ['.', '0'])
  else if 0 < point ∧ point ≤ 16 then
    String.ofList (digits.take point.toNat ++ '.' :: digits.drop point.toNat)
  else if -5 < point ∧ point ≤ 0 then
    String.ofList ('0' :: '.' :: zeros (-point) ++ digits)
  else
    let mantissa := match digits with
      | [digit] => [digit]
      | digit :: rest => digit :: '.' :: rest
      | [] => []
    let power := point - 1
    let exponent := if power < 0 then "-" ++ toString (-power).toNat
      else style.positiveSign ++ toString power.toNat
    String.ofList mantissa ++ "e" ++ exponent

/-- The text of a double-precision number. -/
def Binary64.render (style : FloatStyle) (x : Binary64) : String :=
  (if x.negative then "-" else "") ++
    (if x.isZero then "0.0" else (Decimal.ofBinary64 x).render style)

end IntentGraph
