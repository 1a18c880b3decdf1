import FuzzBridge.Solver.Term

/-!
The input data of a call: terms of whole bytes, one after the other.
-/

namespace FuzzBridge

structure CallData where
  parts : List Term
  deriving DecidableEq

def bigEndian : Nat → Nat → List UInt8
  | 0, _ => []
  | width + 1, value => bigEndian width (value / 256) ++ [UInt8.ofNat (value % 256)]

namespace CallData

def byteLength (parts : List Term) : Nat := (parts.map (·.bits / 8)).foldr (· + ·) 0

def size (data : CallData) : Nat := byteLength data.parts

def variableCount (data : CallData) : Nat :=
  (data.parts.map (·.variableCount)).foldr (· + ·) 0

/-- The bytes of one part, whose value has to fit the bytes of its width. -/
def partBytes (assignment : Assignment) (part : Term) : Except EvalFault (List UInt8) := do
  let value ← part.eval assignment
  if value < Nat.pow 256 (part.bits / 8) then return bigEndian (part.bits / 8) value
  else .error .tooWide

def concretizeParts (assignment : Assignment) : List Term → Except EvalFault (List UInt8)
  | [] => .ok []
  | part :: rest => do
    let bytes ← partBytes assignment part
    return bytes ++ (← concretizeParts assignment rest)

def concretize (data : CallData) (assignment : Assignment) : Except EvalFault (List UInt8) :=
  concretizeParts assignment data.parts

def toJson (data : CallData) : Json := .array (data.parts.map (·.toJson))

end CallData

@[simp] theorem length_bigEndian (width value : Nat) : (bigEndian width value).length = width := by
  induction width generalizing value with
  | zero => rfl
  | succ width ih => simp [bigEndian, ih]

end FuzzBridge
