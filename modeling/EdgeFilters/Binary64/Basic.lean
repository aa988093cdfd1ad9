/-! A decimal is read exactly and rounded once. -/

namespace EdgeFilters

/-- A finite number is `significand * 2 ^ exponent`, with its significand
below `2 ^ 53`. -/
inductive Binary64 where
  | finite (negative : Bool) (significand : Nat) (exponent : Int)
  | infinite (negative : Bool)
  | nan
  deriving DecidableEq, Repr

namespace Binary64

def leastExponent : Int := -1074

def greatestExponent : Int := 971

/-- The significands with all 53 binary digits start here. -/
def leastNormal : Nat := 0x10000000000000

/-- The nearest whole number to a fraction, the even one of two at
the same distance. -/
def roundHalfEven (numerator denominator : Nat) : Nat :=
  let quotient := numerator / denominator
  let rest := 2 * (numerator % denominator)
  if denominator < rest ∨ (rest = denominator ∧ quotient % 2 = 1) then
    quotient + 1
  else quotient

/-- A fraction divided by a power of two. -/
def scaleDown (numerator denominator : Nat) (exponent : Int) : Nat × Nat :=
  (numerator * Nat.pow 2 (-exponent).toNat,
    denominator * Nat.pow 2 exponent.toNat)

/-- The exponent that leaves a positive fraction 53 binary digits before the
point, or the least one of the format. -/
def exponentOf (numerator denominator : Nat) : Int :=
  let guess := (numerator.log2 : Int) - denominator.log2 - 52
  let (scaled, unit) := scaleDown numerator denominator guess
  max leastExponent (if scaled < leastNormal * unit then guess - 1 else guess)

/-- A fraction in the format; `none` if it is too large. -/
def ofFraction? (negative : Bool) (numerator denominator : Nat) :
    Option Binary64 :=
  if numerator = 0 then some (.finite negative 0 leastExponent)
  else
    let exponent := exponentOf numerator denominator
    let (scaled, unit) := scaleDown numerator denominator exponent
    let significand := roundHalfEven scaled unit
    let (significand, exponent) :=
      if significand = 2 * leastNormal then (leastNormal, exponent + 1)
      else (significand, exponent)
    if greatestExponent < exponent then none
    else some (.finite negative significand exponent)

/-- The decimal `digits * 10 ^ exponent` in the format. Decimals of `10 ^
310` and more are too large, and those below `10 ^ -330` are zero,
whatever their digits. -/
def ofDecimal? (negative : Bool) (digits : Nat) (exponent : Int) :
    Option Binary64 :=
  let magnitude := exponent + (Nat.toDigits 10 digits).length
  if digits = 0 ∨ magnitude < -330 then ofFraction? negative 0 1
  else if 310 < magnitude then none
  else ofFraction? negative (digits * Nat.pow 10 exponent.toNat)
    (Nat.pow 10 (-exponent).toNat)

end Binary64

end EdgeFilters
