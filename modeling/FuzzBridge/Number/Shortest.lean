import FuzzBridge.Number.Double

/-!
The shortest decimal form of a double: the fewest digits that read back as it, and of those the
nearest to it.
-/

namespace FuzzBridge.Number

/-- The decimal number `0.d₁d₂… * 10 ^ point`, given by its digits. -/
structure Decimal where
  digits : List Char
  point : Int
  deriving DecidableEq, Repr

namespace Double

/-- `top / bottom ≤ top' / bottom'`, or strictly less unless ends are included. -/
def below (ends : Bool) (left right : Nat × Nat) : Bool :=
  if ends then left.1 * right.2 ≤ right.1 * left.2 else left.1 * right.2 < right.1 * left.2

/-- The ends of the interval of numbers that round to a positive double, in quarters of its last
place: the gap below a power of two is half the gap above it. -/
def interval (value : Double) : (Nat × Nat) × (Nat × Nat) :=
  let quarter := value.exponent - 2
  let low := if value.significand = Nat.pow 2 52 ∧ -1074 < value.exponent then 1 else 2
  let at' (count : Nat) : Nat × Nat := match quarter with
    | .ofNat power => (count * Nat.pow 2 power, 1)
    | .negSucc power => (count, Nat.pow 2 (power + 1))
  (at' (4 * value.significand - low), at' (4 * value.significand + 2))

def leadingPlace (top bottom : Nat) : Int :=
  if bottom ≤ top then ((Nat.toDigits 10 (top / bottom)).length : Int) - 1
  else match (List.range 330).find? (fun power => bottom ≤ top * Nat.pow 10 (power + 1)) with
    | some power => -((power : Int) + 1)
    | none => -330

/-- A decimal with `count` digits in the interval, the nearest one, a tie to the even one. -/
def withDigits? (value : Double) (count : Nat) : Option Decimal :=
  let (top, bottom) := value.quotient
  let place := leadingPlace top bottom
  let step := place - (count - 1 : Nat)
  let (top, bottom) := match step with
    | .ofNat power => (top, bottom * Nat.pow 10 power)
    | .negSucc power => (top * Nat.pow 10 (power + 1), bottom)
  let inStep (grid : Nat) : Nat × Nat := match step with
    | .ofNat power => (grid * Nat.pow 10 power, 1)
    | .negSucc power => (grid, Nat.pow 10 (power + 1))
  let (low, high) := value.interval
  let ends := value.significand % 2 == 0
  let inside (grid : Nat) := below ends low (inStep grid) && below ends (inStep grid) high
  let under := top / bottom
  let twice := 2 * (top % bottom)
  let chosen :=
    match inside under, inside (under + 1) with
    | false, false => none
    | true, false => some under
    | false, true => some (under + 1)
    | true, true =>
      some (if twice < bottom then under else if bottom < twice then under + 1
        else under + under % 2)
  chosen.map fun grid =>
    let digits := Nat.toDigits 10 grid
    let kept := (digits.reverse.dropWhile (· = '0')).reverse
    ⟨kept, step + digits.length⟩

/-- Seventeen digits always suffice. -/
def shortest (value : Double) : Decimal :=
  ((List.range 17).findSome? fun count => value.withDigits? (count + 1)).getD ⟨['0'], 1⟩

/-- Positional notation up to sixteen digits before the point and four zeros after it, else one
digit before the point and a signed exponent; a whole number keeps one zero after the point. -/
def decimalText (decimal : Decimal) : List Char :=
  let count : Int := decimal.digits.length
  let point := decimal.point
  if count ≤ point ∧ point ≤ 16 then
    decimal.digits ++ List.replicate (point - count).toNat '0' ++ ['.', '0']
  else if 0 < point ∧ point ≤ 16 then
    decimal.digits.take point.toNat ++ '.' :: decimal.digits.drop point.toNat
  else if -5 < point ∧ point ≤ 0 then
    '0' :: '.' :: List.replicate (-point).toNat '0' ++ decimal.digits
  else
    let places := point - 1
    let sign := if 0 ≤ places then '+' else '-'
    let head := match decimal.digits with
      | [] => ['0']
      | [digit] => [digit]
      | digit :: rest => digit :: '.' :: rest
    head ++ 'e' :: sign :: Nat.toDigits 10 places.natAbs

def render (value : Double) : List Char :=
  let magnitude := if value.isZero then ['0', '.', '0'] else decimalText value.shortest
  if value.negative then '-' :: magnitude else magnitude

end Double

end FuzzBridge.Number
