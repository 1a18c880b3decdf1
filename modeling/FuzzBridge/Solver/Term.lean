import FuzzBridge.Solver.Assignment

/-!
Bit-vector terms over named variables, and their values under an assignment.
-/

namespace FuzzBridge

inductive Term where
  | constant (bits value : Nat)
  | symbol (bits : Nat) (name : String)
  | zeroExtend (bits : Nat) (inner : Term)
  | signExtend (bits : Nat) (inner : Term)
  deriving DecidableEq

inductive EvalFault where
  | unassigned (name : String)
  | narrowed
  | tooWide
  deriving DecidableEq

namespace Term

def word (bits value : Nat) : Term := .constant bits (Number.mask value bits)

def bits : Term → Nat
  | .constant bits _ | .symbol bits _ | .zeroExtend bits _ | .signExtend bits _ => bits

def isConcrete : Term → Bool
  | .constant .. => true
  | .symbol .. => false
  | .zeroExtend _ inner | .signExtend _ inner => inner.isConcrete

def variableCount : Term → Nat
  | .constant .. => 0
  | .symbol .. => 1
  | .zeroExtend _ inner | .signExtend _ inner => inner.variableCount

/-- A set sign bit of the operand is copied upwards, for which the extension may not be narrower. -/
def eval (assignment : Assignment) : Term → Except EvalFault Nat
  | .constant _ value => .ok value
  | .symbol bits name => match assignment.value? name with
    | some value => .ok (Number.mask value bits)
    | none => .error (.unassigned name)
  | .zeroExtend _ inner => inner.eval assignment
  | .signExtend bits inner => do
    let value ← inner.eval assignment
    if 0 < inner.bits ∧ value.testBit (inner.bits - 1) then
      if bits < inner.bits then .error .narrowed
      else return value ||| (Number.wordCount bits - Number.wordCount inner.bits)
    else return value

def chars : Term → List Char
  | .constant _ value => (Number.toHex value).toList
  | .symbol _ name => name.toList
  | .zeroExtend bits inner =>
    ['z', 'e', 'x', 't'] ++ Nat.toDigits 10 bits ++ '(' :: inner.chars ++ [')']
  | .signExtend bits inner =>
    ['s', 'e', 'x', 't'] ++ Nat.toDigits 10 bits ++ '(' :: inner.chars ++ [')']

def shown (term : Term) : String := String.ofList term.chars

def toJson : Term → Json
  | .constant bits value =>
    .object [("kind", .text "cst"), ("bits", .nat bits), ("value", .text (Number.toHex value))]
  | .symbol bits name =>
    .object [("kind", .text "var"), ("bits", .nat bits), ("name", .text name)]
  | .zeroExtend bits inner =>
    .object [("kind", .text "zero_ext"), ("bits", .nat bits), ("inner", inner.toJson)]
  | .signExtend bits inner =>
    .object [("kind", .text "sign_ext"), ("bits", .nat bits), ("inner", inner.toJson)]

def declare (assignment : Assignment) (place : Place) (bits seed : Nat) : Term × Assignment :=
  (.symbol bits place.name, assignment.setAt place seed bits)

end Term

end FuzzBridge
