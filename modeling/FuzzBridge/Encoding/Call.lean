import FuzzBridge.Encoding.Keccak
import FuzzBridge.Encoding.Layout
import FuzzBridge.Fault
import FuzzBridge.Text.Utf8

/-!
The call data of a function call. Every scalar argument and every byte of a byte string is a
variable, declared with the recorded value; lengths, offsets and padding are constants.
-/

namespace FuzzBridge.Encoding

/-- The first four bytes of the hash of a signature name the function. -/
def selector (signature : String) : List UInt8 := Keccak.firstFour (Text.encode signature)

abbrev Declared := List Term × Assignment

/-- A term of fewer than 256 bits is extended to a word. -/
def widen (signed : Bool) (term : Term) : Term :=
  if term.bits = 256 then term
  else if signed then .signExtend 256 term
  else .zeroExtend 256 term

def scalar (signed : Bool) (bits seed : Nat) (place : Place) (assignment : Assignment) : Declared :=
  let (term, assignment) := Term.declare assignment place bits seed
  ([widen signed term], assignment)

def byteTerms (place : Place) : Nat → List UInt8 → Assignment → Declared
  | _, [], assignment => ([], assignment)
  | index, byte :: rest, assignment =>
    let (term, assignment) := Term.declare assignment (place.element index) 8 byte.toNat
    let (terms, assignment) := byteTerms place (index + 1) rest assignment
    (term :: terms, assignment)

def paddedBytes (place : Place) (bytes : List UInt8) (assignment : Assignment) : Declared :=
  let (terms, assignment) := byteTerms place 0 bytes assignment
  (terms ++ padding bytes.length, assignment)

inductive ElementTypes where
  | all (type : ArgType)
  | each (types : List ArgType)

def ElementTypes.next? : ElementTypes → Option (ArgType × ElementTypes)
  | .all type => some (type, .all type)
  | .each (type :: rest) => some (type, .each rest)
  | .each [] => none

def mismatch {α : Type} (type : ArgType) (value : Datum) : Result α :=
  .error (.unsupported (.mismatch value type))

mutual

def encode (type : ArgType) (place : Place) (assignment : Assignment) :
    Datum → Result Declared
  | .int value => match type with
    | .uint bits =>
      .ok (scalar false bits.toNat (Number.toPattern value bits.toNat) place assignment)
    | .int bits =>
      .ok (scalar true bits.toNat (Number.toPattern value bits.toNat) place assignment)
    | .address => .ok (scalar false 160 (Number.toPattern value 160) place assignment)
    | _ => mismatch type (.int value)
  | .bool value => match type with
    | .bool => .ok (scalar false 1 value.toNat place assignment)
    | _ => mismatch type (.bool value)
  | .bytes value => match type with
    | .fixedBytes length =>
      if value.length = length.toNat ∧ length.toNat ≤ 32 then
        .ok (paddedBytes place value assignment)
      else mismatch type (.bytes value)
    | .bytes | .string =>
      let (terms, assignment) := paddedBytes place value assignment
      .ok (word value.length :: terms, assignment)
    | _ => mismatch type (.bytes value)
  | .seq elements => match type with
    | .fixedArray length element =>
      if elements.length = length.toNat then do
        let (items, assignment) ← encodeItems (.all element) place.element 0 assignment elements
        return (layout items, assignment)
      else mismatch type (.seq elements)
    | .array element => do
      let (items, assignment) ← encodeItems (.all element) place.element 0 assignment elements
      return (word elements.length :: layout items, assignment)
    | .tuple types =>
      if elements.length = types.length then do
        let (items, assignment) ← encodeItems (.each types) place.element 0 assignment elements
        return (layout items, assignment)
      else mismatch type (.seq elements)
    | _ => mismatch type (.seq elements)
termination_by structural value => value

def encodeItems (types : ElementTypes) (placeOf : Nat → Place) (index : Nat)
    (assignment : Assignment) : List Datum → Result (List Item × Assignment)
  | [] => .ok ([], assignment)
  | value :: rest => match types.next? with
    | none => .ok ([], assignment)
    | some (type, types) => do
      let (terms, assignment) ← encode type (placeOf index) assignment value
      let (items, assignment) ← encodeItems types placeOf (index + 1) assignment rest
      return (⟨type, terms⟩ :: items, assignment)
termination_by structural elements => elements

end

/-- The call data of `function(arguments)` in the transaction named `transaction`. -/
def functionCall (function : String) (arguments : List (ArgType × Datum)) (transaction : String)
    (assignment : Assignment) : Result (CallData × Assignment) := do
  let types := arguments.map (·.1)
  let signature := ArgType.signature function types
  let code := (selector signature).foldl (fun value byte => value * 256 + byte.toNat) 0
  let placeOf index := Place.ofField transaction (.argument index)
  let (items, assignment) ←
    encodeItems (.each types) placeOf 0 assignment (arguments.map (·.2))
  return (⟨.word 32 code :: layout items⟩, assignment)

end FuzzBridge.Encoding
