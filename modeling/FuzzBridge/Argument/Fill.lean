import FuzzBridge.Argument.Basic
import FuzzBridge.Solver.Assignment

/-!
Writing a model into a call argument. A leaf takes the value that the model gives to its place,
reduced to what the leaf can hold; everything else stays.
-/

namespace FuzzBridge.Argument

/-- The low byte of the value at each place that has one. -/
def fillByteList (model : Assignment) (place : Place) : Nat → List UInt8 → List UInt8
  | _, [] => []
  | index, byte :: rest =>
    let filled := match model.valueAt? (place.element index) with
      | some value => UInt8.ofNat value
      | none => byte
    filled :: fillByteList model place (index + 1) rest

def fillText (model : Assignment) (place : Place) (text : String) : Result String := do
  return Text.ofByteList (fillByteList model place 0 (← readBytes text))

mutual

/-- A compound argument is looked into only if the model gives a value to some place in it. -/
def fill (model : Assignment) (place : Place) : Argument → Result Argument
  | .uint bits digits => .ok (match model.valueAt? place with
    | some value => .uint bits (String.ofList (Nat.toDigits 10 (Number.mask value bits.toNat)))
    | none => .uint bits digits)
  | .int bits digits => .ok (match model.valueAt? place with
    | some value => .int bits (String.ofList (Datum.decimal (Number.toSigned value bits.toNat)))
    | none => .int bits digits)
  | .bool old => .ok (match model.valueAt? place with
    | some value => .bool (Number.isTrue value)
    | none => .bool old)
  | .address hex => .ok (match model.valueAt? place with
    | some value => .address (Number.toAddress value)
    | none => .address hex)
  | .fixedBytes length text =>
    if model.assignsUnder place then .fixedBytes length <$> fillText model place text
    else .ok (.fixedBytes length text)
  | .bytes text =>
    if model.assignsUnder place then .bytes <$> fillText model place text else .ok (.bytes text)
  | .string text =>
    if model.assignsUnder place then .string <$> fillText model place text else .ok (.string text)
  | .array element elements =>
    if model.assignsUnder place then .array element <$> fillElements model place 0 elements
    else .ok (.array element elements)
  | .fixedArray length element elements =>
    if model.assignsUnder place then
      .fixedArray length element <$> fillElements model place 0 elements
    else .ok (.fixedArray length element elements)
  | .tuple elements =>
    if model.assignsUnder place then .tuple <$> fillElements model place 0 elements
    else .ok (.tuple elements)
termination_by structural argument => argument

def fillElements (model : Assignment) (place : Place) (index : Nat) :
    List Argument → Result (List Argument)
  | [] => .ok []
  | element :: rest => do
    let filled ← element.fill model (place.element index)
    return filled :: (← fillElements model place (index + 1) rest)
termination_by structural elements => elements

end

end FuzzBridge.Argument
