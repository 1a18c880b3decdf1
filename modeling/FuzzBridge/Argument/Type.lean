import FuzzBridge.Json.Tagged

/-!
Types of call arguments, their canonical names, and their JSON form.
-/

namespace FuzzBridge

inductive ArgType where
  | uint (bits : UInt16)
  | int (bits : UInt16)
  | address
  | bool
  | fixedBytes (length : UInt64)
  | bytes
  | string
  | array (element : ArgType)
  | fixedArray (length : UInt64) (element : ArgType)
  | tuple (elements : List ArgType)
  deriving BEq

namespace ArgType

instance : Inhabited ArgType := ⟨.bool⟩

mutual

/-- A value of a dynamic type is encoded away from its place, at an offset. -/
def isDynamic : ArgType → Bool
  | .uint _ | .int _ | .address | .bool | .fixedBytes _ => false
  | .bytes | .string | .array _ => true
  | .fixedArray _ element => element.isDynamic
  | .tuple elements => anyDynamic elements
termination_by structural type => type

def anyDynamic : List ArgType → Bool
  | [] => false
  | element :: rest => element.isDynamic || anyDynamic rest
termination_by structural elements => elements

end

mutual

def chars : ArgType → List Char
  | .uint bits => ['u', 'i', 'n', 't'] ++ Nat.toDigits 10 bits.toNat
  | .int bits => ['i', 'n', 't'] ++ Nat.toDigits 10 bits.toNat
  | .address => ['a', 'd', 'd', 'r', 'e', 's', 's']
  | .bool => ['b', 'o', 'o', 'l']
  | .fixedBytes length => ['b', 'y', 't', 'e', 's'] ++ Nat.toDigits 10 length.toNat
  | .bytes => ['b', 'y', 't', 'e', 's']
  | .string => ['s', 't', 'r', 'i', 'n', 'g']
  | .array element => element.chars ++ ['[', ']']
  | .fixedArray length element => element.chars ++ '[' :: Nat.toDigits 10 length.toNat ++ [']']
  | .tuple [] => ['(', ')']
  | .tuple (first :: rest) => '(' :: first.chars ++ moreChars rest
termination_by structural type => type

def moreChars : List ArgType → List Char
  | [] => [')']
  | element :: rest => ',' :: element.chars ++ moreChars rest
termination_by structural elements => elements

end

def name (type : ArgType) : String := String.ofList type.chars

def signature (function : String) (types : List ArgType) : String :=
  function ++ (ArgType.tuple types).name

inductive Kind where
  | uint | int | address | bool | fixedBytes | bytes | string | array | fixedArray | tuple

def kinds : List (String × Kind) :=
  [("AbiUIntType", .uint), ("AbiIntType", .int), ("AbiAddressType", .address),
    ("AbiBoolType", .bool), ("AbiBytesType", .fixedBytes), ("AbiBytesDynamicType", .bytes),
    ("AbiStringType", .string), ("AbiArrayDynamicType", .array), ("AbiArrayType", .fixedArray),
    ("AbiTupleType", .tuple)]

def bare? : Kind → Option ArgType
  | .address => some .address
  | .bool => some .bool
  | .bytes => some .bytes
  | .string => some .string
  | _ => none

mutual

def toJson : ArgType → Json
  | .uint bits => Json.tagged "AbiUIntType" (.nat bits.toNat)
  | .int bits => Json.tagged "AbiIntType" (.nat bits.toNat)
  | .address => Json.bareTag "AbiAddressType"
  | .bool => Json.bareTag "AbiBoolType"
  | .fixedBytes length => Json.tagged "AbiBytesType" (.nat length.toNat)
  | .bytes => Json.bareTag "AbiBytesDynamicType"
  | .string => Json.bareTag "AbiStringType"
  | .array element => Json.tagged "AbiArrayDynamicType" element.toJson
  | .fixedArray length element =>
    Json.tagged "AbiArrayType" (.array [.nat length.toNat, element.toJson])
  | .tuple elements => Json.tagged "AbiTupleType" (.array (listToJson elements))
termination_by structural type => type

def listToJson : List ArgType → List Json
  | [] => []
  | element :: rest => element.toJson :: listToJson rest
termination_by structural elements => elements

end

end ArgType

namespace Json.Draft

def asWidth (draft : Draft) : Read UInt16 := do return UInt16.ofNat (← draft.asNat (Nat.pow 2 16))

def asLength (draft : Draft) : Read UInt64 := do return UInt64.ofNat (← draft.asNat (Nat.pow 2 64))

end Json.Draft

def ArgType.ofDraft (isHeld : Bool) (levels : Nat) (draft : Json.Draft) : Json.Read ArgType :=
  match levels with
  | 0 => draft.tooDeep
  | levels + 1 =>
    Json.Tagging.read ⟨kinds, bare?, fun isHeld kind contents =>
      match kind with
      | .uint => do return .uint (← contents.asWidth)
      | .int => do return .int (← contents.asWidth)
      | .fixedBytes => do return .fixedBytes (← contents.asLength)
      | .array => do return .array (← ofDraft isHeld levels contents)
      | .fixedArray => match contents, levels with
        | .array items, levels + 1 => do
          let (length, element) ← items.pair Json.Draft.asLength (ofDraft isHeld levels)
          return .fixedArray length element
        | contents, _ => contents.noItems
      | .tuple => match contents, levels with
        | .array items, levels + 1 => do return .tuple (← items.list (ofDraft isHeld levels))
        | contents, _ => contents.noItems
      | _ => .error .misshapen⟩ isHeld levels draft
termination_by levels

end FuzzBridge
