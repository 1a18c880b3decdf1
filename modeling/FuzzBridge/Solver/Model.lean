import FuzzBridge.Fault
import FuzzBridge.Solver.Assignment

/-!
The answers of a solver: an object that gives names a hexadecimal text, a decimal text, a whole
number, or `null` where any value would do; `null` alone is no model.
-/

namespace FuzzBridge

namespace Model

def hasBaseMark (text : String) : Bool :=
  match text.toList with
  | '0' :: 'x' :: _ | '0' :: 'X' :: _ => true
  | _ => false

def value (name : String) : Json → Result (Option Nat)
  | .null => .ok none
  | .number (.natural value) => .ok (some value)
  | .number value => .error (.unsupported (.modelNumber name value))
  | .text text =>
    if hasBaseMark text then some <$> readHex text
    else do
      match Number.unsigned? (← readDecimal text) with
      | some value => return some value
      | none => .error (.unsupported (.modelNegative name text))
  | other => .error (.unsupported (.modelValue name other))

/-- Models carry no widths, so every variable is a word. -/
def readVariables : List (String × Json) → Result (List (String × Variable))
  | [] => .ok []
  | (name, json) :: rest => do
    let value ← value name json
    return (name, ⟨256, value⟩) :: (← readVariables rest)

def ofJson : Json → Result (Option Assignment)
  | .null => .ok none
  | .object members => do
    return some ⟨Table.ofList (← readVariables (Json.fields members).entries)⟩
  | other => .error (.unsupported (.model other))

/-- The model in a text, if the text does not say that there is none. -/
def ofText (text : String) : Result (Option Assignment) :=
  match Json.parse? text with
  | some json => ofJson json
  | none => .error (.json .malformed)

end Model

end FuzzBridge
