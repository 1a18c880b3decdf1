import FuzzBridge.Fault

/-!
Call arguments as the fuzzer records them: a tree whose shape is fixed by its tags. Numbers and byte
strings are kept as texts, so an argument may hold a text that denotes nothing.
-/

namespace FuzzBridge

inductive Argument where
  | uint (bits : UInt16) (digits : String)
  | int (bits : UInt16) (digits : String)
  | address (hex : String)
  | bool (value : Bool)
  | fixedBytes (length : UInt64) (text : String)
  | bytes (text : String)
  | string (text : String)
  | array (element : ArgType) (elements : List Argument)
  | fixedArray (length : UInt64) (element : ArgType) (elements : List Argument)
  | tuple (elements : List Argument)
  deriving BEq

namespace Argument

instance : Inhabited Argument := ⟨.bool false⟩

mutual

/-- The declared type: an array has the element type that it states. -/
def type : Argument → ArgType
  | .uint bits _ => .uint bits
  | .int bits _ => .int bits
  | .address _ => .address
  | .bool _ => .bool
  | .fixedBytes length _ => .fixedBytes length
  | .bytes _ => .bytes
  | .string _ => .string
  | .array element _ => .array element
  | .fixedArray length element _ => .fixedArray length element
  | .tuple elements => .tuple (types elements)
termination_by structural argument => argument

def types : List Argument → List ArgType
  | [] => []
  | element :: rest => element.type :: types rest
termination_by structural elements => elements

end

mutual

/-- The value that the texts of an argument denote. -/
def datum : Argument → Result Datum
  | .uint _ digits | .int _ digits => .int <$> readDecimal digits
  | .address hex => do return .int (← readHex hex)
  | .bool value => .ok (.bool value)
  | .fixedBytes _ text | .bytes text | .string text => .bytes <$> readBytes text
  | .array _ elements | .fixedArray _ _ elements | .tuple elements => .seq <$> data elements
termination_by structural argument => argument

def data : List Argument → Result (List Datum)
  | [] => .ok []
  | element :: rest => do
    let value ← element.datum
    return value :: (← data rest)
termination_by structural elements => elements

end

def typed (argument : Argument) : Result (ArgType × Datum) := do
  return (argument.type, ← argument.datum)

end Argument

end FuzzBridge
