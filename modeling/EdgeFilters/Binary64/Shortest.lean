import EdgeFilters.Binary64.Basic

namespace EdgeFilters.Binary64

/-- What reads as a positive number: the value and the ends of the interval
around it, in quarters of a unit of the last binary place. The interval is
closed if the significand is even. Below a power of two the numbers are
twice as dense. -/
structure Neighbourhood where
  lower : Nat
  value : Nat
  upper : Nat
  closed : Bool

def neighbourhood (significand : Nat) (exponent : Int) : Neighbourhood where
  lower :=
    if significand = leastNormal ∧ leastExponent < exponent then
      4 * significand - 1
    else 4 * significand - 2
  value := 4 * significand
  upper := 4 * significand + 2
  closed := significand % 2 = 0

/-- The point of the grid of multiples of `10 ^ grid` that reads as the number,
if there is one: of two the nearer, of two at the same distance the greater. -/
def gridPoint? (significand : Nat) (exponent : Int) (grid : Int) : Option Nat :=
  let near := neighbourhood significand exponent
  let quarter := exponent - 2
  let numerator := Nat.pow 2 quarter.toNat * Nat.pow 10 (-grid).toNat
  let denominator := Nat.pow 2 (-quarter).toNat * Nat.pow 10 grid.toNat
  let reads (point : Nat) : Bool :=
    let (lower, point, upper) :=
      (near.lower * numerator, point * denominator, near.upper * numerator)
    if near.closed then lower ≤ point && point ≤ upper
    else lower < point && point < upper
  let below := near.value * numerator / denominator
  let rest := near.value * numerator % denominator
  if reads below && (2 * rest < denominator || !reads (below + 1)) then
    some below
  else if reads (below + 1) then some (below + 1)
  else none

/-- The digits and the power of ten of the shortest decimal, from the coarsest
grid that holds one. A finer grid could only add digits. -/
def shortest (significand : Nat) (exponent : Int) : Nat × Int :=
  let grids := (List.range 650).map fun step : Nat => (309 : Int) - (step : Int)
  (grids.findSome? fun grid =>
    (gridPoint? significand exponent grid).map (·, grid)).getD (0, 0)

/-- Digits with a power of ten, written without an exponent and
always with a point. -/
def positional (digits : Nat) (exponent : Int) : String :=
  let text := Nat.toDigits 10 digits
  let places := (-exponent).toNat
  if places = 0 then
    .ofList (text ++ List.replicate exponent.toNat '0' ++ ['.', '0'])
  else
    let padded := List.replicate (places + 1 - text.length) '0' ++ text
    .ofList (padded.take (padded.length - places) ++ '.' ::
      padded.drop (padded.length - places))

def text : Binary64 → String
  | .nan => "NaN"
  | .infinite negative => if negative then "-inf" else "inf"
  | .finite negative significand exponent =>
      let sign := if negative then "-" else ""
      if significand = 0 then sign ++ "0.0"
      else
        let (digits, power) := shortest significand exponent
        sign ++ positional digits power

end EdgeFilters.Binary64
