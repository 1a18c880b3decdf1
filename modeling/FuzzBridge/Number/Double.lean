/-!
Doubles: numbers of 53 binary digits, in exact arithmetic. Every operation rounds its exact result
to the nearest double, a tie to the even one.
-/

namespace FuzzBridge.Number

/-- The number `± significand * 2 ^ exponent`. The significand has 53 digits, or the exponent is
the least one, `-1074`. -/
structure Double where
  negative : Bool
  significand : Nat
  exponent : Int
  deriving DecidableEq, Repr

namespace Double

def zero (negative : Bool) : Double := ⟨negative, 0, -1074⟩

def isZero (value : Double) : Bool := value.significand == 0

/-- The quotient rounded to the nearest integer, a tie to the even one. -/
def roundQuotient (numerator denominator : Nat) : Nat :=
  let quotient := numerator / denominator
  let twice := 2 * (numerator % denominator)
  if twice < denominator then quotient
  else if denominator < twice then quotient + 1
  else quotient + quotient % 2

def scaled (numerator denominator : Nat) (exponent : Int) : Nat × Nat :=
  match exponent with
  | .ofNat power => (numerator, denominator * Nat.pow 2 power)
  | .negSucc power => (numerator * Nat.pow 2 (power + 1), denominator)

/-- The nearest double to a quotient, or `none` if it lies beyond the largest one. -/
def ofQuotient? (negative : Bool) (numerator denominator : Nat) : Option Double :=
  if numerator = 0 then some (zero negative)
  else
    let estimate : Int := (numerator.log2 : Int) - denominator.log2 - 52
    let exponent := max estimate (-1074)
    let (top, bottom) := scaled numerator denominator exponent
    let exponent :=
      if top / bottom < Nat.pow 2 52 ∧ -1074 < exponent then exponent - 1 else exponent
    let (top, bottom) := scaled numerator denominator exponent
    let significand := roundQuotient top bottom
    let (significand, exponent) :=
      if significand = Nat.pow 2 53 then (Nat.pow 2 52, exponent + 1) else (significand, exponent)
    if 971 < exponent then none else some ⟨negative, significand, exponent⟩

def ofNat? (value : Nat) : Option Double := ofQuotient? false value 1

def quotient (value : Double) : Nat × Nat :=
  match value.exponent with
  | .ofNat power => (value.significand * Nat.pow 2 power, 1)
  | .negSucc power => (value.significand, Nat.pow 2 (power + 1))

def times? (left right : Double) : Option Double :=
  let (top, bottom) := left.quotient
  let (top', bottom') := right.quotient
  ofQuotient? (left.negative != right.negative) (top * top') (bottom * bottom')

def over? (left right : Double) : Option Double :=
  let (top, bottom) := left.quotient
  let (top', bottom') := right.quotient
  ofQuotient? (left.negative != right.negative) (top * bottom') (bottom * top')

def powerOfTen? (power : Nat) : Option Double := ofNat? (Nat.pow 10 power)

/-- Division by a power of ten, in steps of at most `10 ^ 308`. -/
def shrink? (value : Double) (power : Nat) : Option Double :=
  if power ≤ 308 then do value.over? (← powerOfTen? power)
  else if value.isZero then some value
  else do shrink? (← value.over? (← powerOfTen? 308)) (power - 308)
termination_by power

/-- The double that stands for `significand * 10 ^ exponent`: one rounding for the significand, one
for the power of ten and one for their product or quotient. -/
def ofScientific? (negative : Bool) (significand : Nat) (exponent : Int) : Option Double := do
  let start ← ofNat? significand
  let result ← match exponent with
    | .ofNat power =>
      if power ≤ 308 then start.times? (← powerOfTen? power)
      else if start.isZero then some start
      else none
    | .negSucc power => start.shrink? (power + 1)
  some { result with negative }

end Double

end FuzzBridge.Number
