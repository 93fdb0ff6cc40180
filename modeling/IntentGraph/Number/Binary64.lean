/-!
# Double-precision numbers

The finite numbers of the 64-bit binary format, as a sign, a significand and a
power of two, and the one operation everything else here is made of: rounding a
quotient of naturals to the nearest of them, a tie going to the even
significand.

A decimal literal is read in two steps (`Binary64.scale`): its digits are
rounded first, and the result is then multiplied or divided by a rounded power
of ten. Both steps round, so a long literal can end one unit away from the
number nearest to it.
-/

namespace IntentGraph

/-- Two to a power; one for a negative power. -/
def twoTo (power : Int) : Nat := Nat.pow 2 power.toNat

/-- Ten to a power; one for a negative power. -/
def tenTo (power : Int) : Nat := Nat.pow 10 power.toNat

/-- A finite number `± significand · 2 ^ exponent`. A nonzero number carries 53
significant bits, fewer only at the least exponent. -/
structure Binary64 where
  negative : Bool
  significand : Nat
  exponent : Int
  deriving DecidableEq

namespace Binary64

/-- The exponent of the smallest positive number. -/
def leastExponent : Int := -1074

/-- The largest exponent of a number with 53 significant bits. -/
def greatestExponent : Int := 971

/-- Zero with a sign. -/
def zero (negative : Bool) : Binary64 := ⟨negative, 0, leastExponent⟩

/-- Whether a number is zero, of either sign. -/
def isZero (x : Binary64) : Bool := x.significand == 0

/-- A quotient rounded to the nearest natural, a tie going to the even one. -/
def roundHalfEven (numerator denominator : Nat) : Nat :=
  let quotient := numerator / denominator
  let remainder := numerator % denominator
  if 2 * remainder < denominator then quotient
  else if 2 * remainder = denominator ∧ quotient % 2 = 0 then quotient
  else quotient + 1

/-- The numerator and denominator of `n · 2 ^ e` over `d`. -/
def scaledRatio (n d : Nat) (e : Int) : Nat × Nat :=
  if 0 ≤ e then (n * twoTo e, d) else (n, d * twoTo (-e))

/-- The exponent at which a positive quotient has 53 significant bits, or the
least exponent. -/
def exponentOf (numerator denominator : Nat) : Int :=
  let guess : Int := (numerator.log2 : Int) - denominator.log2 - 52
  let (n, d) := scaledRatio numerator denominator (-guess)
  max leastExponent (if n < d * twoTo 52 then guess - 1 else guess)

/-- The number nearest to a quotient, or nothing when it is out of range. -/
def ofRatio (negative : Bool) (numerator denominator : Nat) : Option Binary64 :=
  if numerator = 0 then some (zero negative)
  else
    let exponent := exponentOf numerator denominator
    let (n, d) := scaledRatio numerator denominator (-exponent)
    let significand := roundHalfEven n d
    let (significand, exponent) :=
      -- rounding up may carry into a 54th bit
      if significand = twoTo 53 then (twoTo 52, exponent + 1)
        else (significand, exponent)
    if greatestExponent < exponent then none
      else some ⟨negative, significand, exponent⟩

/-- The number nearest to a natural, or nothing when it is out of range. -/
def ofNat (n : Nat) : Option Binary64 := ofRatio false n 1

/-- The rounded product. -/
def mul (x y : Binary64) : Option Binary64 :=
  let (n, d) :=
    scaledRatio (x.significand * y.significand) 1 (x.exponent + y.exponent)
  ofRatio (x.negative != y.negative) n d

/-- The rounded quotient by a nonzero number. -/
def div (x y : Binary64) : Option Binary64 :=
  let (n, d) :=
    scaledRatio x.significand y.significand (x.exponent - y.exponent)
  ofRatio (x.negative != y.negative) n d

/-- The largest power of ten that is a number. -/
def greatestPower : Nat := 308

/-- `x` times a rounded power of ten, or nothing when that is out of range. -/
def scaleUp (x : Binary64) (power : Nat) : Option Binary64 :=
  if x.isZero then some x
  else if power ≤ greatestPower then (ofNat (tenTo power)).bind x.mul
  else none

/-- `x` divided the given number of times by the largest power of ten. -/
def divideByGreatest : Nat → Binary64 → Option Binary64
  | 0, x => some x
  | times + 1, x =>
    if x.isZero then some x
    else
      (ofNat (tenTo greatestPower)).bind fun power =>
        (x.div power).bind (divideByGreatest times)

/-- `x` divided by a rounded power of ten: by the largest one as often as it
takes, and then by the rest. -/
def scaleDown (x : Binary64) (power : Nat) : Option Binary64 :=
  let times := (power - 1) / greatestPower
  (divideByGreatest times x).bind fun y =>
    (ofNat (tenTo (power - greatestPower * times : Nat))).bind y.div

/-- `x` times ten to a power, as a literal with that exponent is read. -/
def scale (x : Binary64) (power : Int) : Option Binary64 :=
  if 0 ≤ power then x.scaleUp power.toNat else x.scaleDown (-power).toNat

/-- The number nearest to `digits · 10 ^ power`, rounded once. -/
def ofDecimal (negative : Bool) (digits : Nat) (power : Int) :
    Option Binary64 :=
  if digits = 0 then some (zero negative)
  else if 0 ≤ power then
    if power > 400 then none else ofRatio negative (digits * tenTo power) 1
  else if power < -(400 + (Nat.toDigits 10 digits).length) then
    some (zero negative)
  else ofRatio negative digits (tenTo (-power))

/-- The same number with the sign given. -/
def withSign (negative : Bool) (x : Binary64) : Binary64 :=
  { x with negative := negative }

end Binary64

end IntentGraph
