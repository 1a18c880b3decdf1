import FuzzBridge.Argument.Basic

/-!
The JSON form of call arguments.
-/

namespace FuzzBridge.Argument

open Json (Read)
open Json.Draft (asText asBool asWidth asLength)

mutual

def toJson : Argument → Json
  | .uint bits digits => Json.tagged "AbiUInt" (.array [.nat bits.toNat, .text digits])
  | .int bits digits => Json.tagged "AbiInt" (.array [.nat bits.toNat, .text digits])
  | .address hex => Json.tagged "AbiAddress" (.text hex)
  | .bool value => Json.tagged "AbiBool" (.bool value)
  | .fixedBytes length text => Json.tagged "AbiBytes" (.array [.nat length.toNat, .text text])
  | .bytes text => Json.tagged "AbiBytesDynamic" (.text text)
  | .string text => Json.tagged "AbiString" (.text text)
  | .array element elements =>
    Json.tagged "AbiArrayDynamic" (.array [element.toJson, .array (listToJson elements)])
  | .fixedArray length element elements =>
    Json.tagged "AbiArray"
      (.array [.nat length.toNat, element.toJson, .array (listToJson elements)])
  | .tuple elements => Json.tagged "AbiTuple" (.array (listToJson elements))
termination_by structural argument => argument

def listToJson : List Argument → List Json
  | [] => []
  | element :: rest => element.toJson :: listToJson rest
termination_by structural elements => elements

end

inductive Kind where
  | uint | int | address | bool | fixedBytes | bytes | string | array | fixedArray | tuple

def kinds : List (String × Kind) :=
  [("AbiUInt", .uint), ("AbiInt", .int), ("AbiAddress", .address), ("AbiBool", .bool),
    ("AbiBytes", .fixedBytes), ("AbiBytesDynamic", .bytes), ("AbiString", .string),
    ("AbiArrayDynamic", .array), ("AbiArray", .fixedArray), ("AbiTuple", .tuple)]

def numbered {α : Type} (levels : Nat) (number : Json.Draft → Read α) (contents : Json.Draft) :
    Read (α × String) :=
  contents.items levels fun _ items => items.pair number asText

def ofDraft (isHeld : Bool) (levels : Nat) (draft : Json.Draft) : Read Argument :=
  match levels with
  | 0 => draft.tooDeep
  | levels + 1 =>
    Json.Tagging.read ⟨kinds, fun _ => none, fun isHeld kind contents =>
      match kind with
      | .uint => do
        let (bits, digits) ← numbered levels asWidth contents
        return .uint bits digits
      | .int => do
        let (bits, digits) ← numbered levels asWidth contents
        return .int bits digits
      | .address => .address <$> contents.asText
      | .bool => .bool <$> contents.asBool
      | .fixedBytes => do
        let (length, text) ← numbered levels asLength contents
        return .fixedBytes length text
      | .bytes => .bytes <$> contents.asText
      | .string => .string <$> contents.asText
      | .array => match contents, levels with
        | .array items, levels + 1 => do
          let (element, elements) ← items.pair (ArgType.ofDraft isHeld levels) fun list =>
            match list, levels with
            | .array items, levels + 1 => items.list (ofDraft isHeld levels)
            | list, _ => list.noItems
          return .array element elements
        | contents, _ => contents.noItems
      | .fixedArray => match contents, levels with
        | .array items, levels + 1 => do
          let (first, items) ← items.next
          let length ← first.asLength
          let (element, elements) ← items.pair (ArgType.ofDraft isHeld levels) fun list =>
            match list, levels with
            | .array items, levels + 1 => items.list (ofDraft isHeld levels)
            | list, _ => list.noItems
          return .fixedArray length element elements
        | contents, _ => contents.noItems
      | .tuple => match contents, levels with
        | .array items, levels + 1 => do return .tuple (← items.list (ofDraft isHeld levels))
        | contents, _ => contents.noItems⟩ isHeld levels draft
termination_by levels

end FuzzBridge.Argument
