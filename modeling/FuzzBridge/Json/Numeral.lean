import FuzzBridge.Json.Basic

/-!
The number that a JSON numeral stands for, from its parts. Digits enter the significand while it
fits 64 bits; later digits of the whole part only shift it, later digits of the fraction are lost.
-/

namespace FuzzBridge.Numeral

/-- A numeral taken apart; the sign of the exponent is kept beside its digits. -/
structure Parts where
  negative : Bool
  whole : List Char
  fraction : Option (List Char)
  exponent : Option (Bool × List Char)

/-- A significand, the power of ten that scales it, and whether it takes more digits. -/
structure Scaled where
  significand : Nat
  power : Int
  full : Bool

def digitOf (c : Char) : Nat := c.toNat - '0'.toNat

def Scaled.pushWhole (state : Scaled) (c : Char) : Scaled :=
  let next := state.significand * 10 + digitOf c
  if state.full ∨ Nat.pow 2 64 ≤ next then { state with power := state.power + 1, full := true }
  else { state with significand := next }

def Scaled.pushFraction (state : Scaled) (c : Char) : Scaled :=
  let next := state.significand * 10 + digitOf c
  if state.full ∨ Nat.pow 2 64 ≤ next then { state with full := true }
  else { state with significand := next, power := state.power - 1 }

def natOf (digits : List Char) : Nat := digits.foldl (fun value c => value * 10 + digitOf c) 0

/-- `none` if the number is larger than every double. -/
def ofParts? (parts : Parts) : Option Numeral :=
  let whole := parts.whole.foldl Scaled.pushWhole ⟨0, 0, false⟩
  match parts.fraction, parts.exponent with
  | none, none =>
    if whole.full then
      (Number.Double.ofScientific? parts.negative whole.significand whole.power).map .double
    else if !parts.negative then some (.natural whole.significand)
    else if 0 < whole.significand ∧ whole.significand ≤ Nat.pow 2 63 then
      some (.negative whole.significand)
    else (Number.Double.ofScientific? true whole.significand 0).map .double
  | fraction, exponent =>
    let scaled := (fraction.getD []).foldl Scaled.pushFraction { whole with full := false }
    let shift : Int := match exponent with
      | none => 0
      | some (false, digits) => natOf digits
      | some (true, digits) => -(natOf digits : Int)
    (Number.Double.ofScientific? parts.negative scaled.significand (scaled.power + shift)).map
      .double

end FuzzBridge.Numeral
