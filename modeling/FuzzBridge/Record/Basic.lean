import FuzzBridge.Argument.Form

/-!
Transactions as the fuzzer records them, and their JSON form. All numbers are hexadecimal texts.
-/

namespace FuzzBridge

inductive Action where
  | call (function : String) (arguments : List Argument)
  | wait
  deriving BEq

structure Record where
  action : Action
  source : String
  target : String
  gas : String
  gasPrice : String
  value : String
  timeDelay : String
  blockDelay : String
  deriving BEq

namespace Action

def toJson : Action → Json
  | .call function arguments =>
    Json.tagged "SolCall" (.array [.text function, .array (Argument.listToJson arguments)])
  | .wait => Json.bareTag "NoCall"

def kinds : List (String × Bool) := [("SolCall", true), ("NoCall", false)]

def ofDraft (levels : Nat) (draft : Json.Draft) : Json.Read Action :=
  match levels with
  | 0 => draft.tooDeep
  | levels + 1 =>
    Json.Tagging.read ⟨kinds, fun isCall => if isCall then none else some .wait,
      fun isHeld _ contents => contents.items levels fun levels items => do
        let (function, arguments) ← items.pair Json.Draft.asText fun list =>
          list.items levels fun levels items => items.list (Argument.ofDraft isHeld levels)
        return .call function arguments⟩ false levels draft

end Action

namespace Record

def toJson (record : Record) : Json :=
  .object [("_call", record.action.toJson), ("_src", .text record.source),
    ("_dst", .text record.target), ("_gas'", .text record.gas),
    ("_gasprice'", .text record.gasPrice), ("_value", .text record.value),
    ("_delay", .array [.text record.timeDelay, .text record.blockDelay])]

structure Fields where
  action : Option Action
  source : Option String
  target : Option String
  gas : Option String
  gasPrice : Option String
  value : Option String
  delays : Option (String × String)

def Fields.none : Fields := ⟨.none, .none, .none, .none, .none, .none, .none⟩

def readDelays (levels : Nat) (draft : Json.Draft) : Json.Read (String × String) :=
  draft.items levels fun _ items => items.pair Json.Draft.asText Json.Draft.asText

def once {α : Type} (old : Option α) (read : Json.Draft → Json.Read α) (store : α → Fields) :
    Json.Slot Fields :=
  match old with
  | some _ => .repeated
  | .none => .read fun draft => store <$> read draft

def slot (levels : Nat) (fields : Fields) : String → Json.Slot Fields
  | "_call" => once fields.action (Action.ofDraft levels) fun value =>
    { fields with action := some value }
  | "_src" => once fields.source Json.Draft.asText fun value => { fields with source := some value }
  | "_dst" => once fields.target Json.Draft.asText fun value => { fields with target := some value }
  | "_gas'" => once fields.gas Json.Draft.asText fun value => { fields with gas := some value }
  | "_gasprice'" => once fields.gasPrice Json.Draft.asText fun value =>
    { fields with gasPrice := some value }
  | "_value" => once fields.value Json.Draft.asText fun value => { fields with value := some value }
  | "_delay" => once fields.delays (readDelays levels) fun value =>
    { fields with delays := some value }
  | _ => .unknown

def Fields.record? (fields : Fields) : Option Record := do
  let (timeDelay, blockDelay) ← fields.delays
  return ⟨← fields.action, ← fields.source, ← fields.target, ← fields.gas, ← fields.gasPrice,
    ← fields.value, timeDelay, blockDelay⟩

def ofMembers (levels : Nat) (members : Json.Members) : Json.Read Record := do
  match (← members.walk (slot levels) .none).record? with
  | some record => return record
  | .none => .error .misshapen

def ofItems (levels : Nat) (items : Json.Items) : Json.Read Record := do
  let (draft, items) ← items.next
  let action ← Action.ofDraft levels draft
  let (draft, items) ← items.next
  let source ← draft.asText
  let (draft, items) ← items.next
  let target ← draft.asText
  let (draft, items) ← items.next
  let gas ← draft.asText
  let (draft, items) ← items.next
  let gasPrice ← draft.asText
  let (draft, items) ← items.next
  let value ← draft.asText
  let (draft, items) ← items.next
  let (timeDelay, blockDelay) ← readDelays levels draft
  items.done
  return ⟨action, source, target, gas, gasPrice, value, timeDelay, blockDelay⟩

def ofDraft (levels : Nat) (draft : Json.Draft) : Json.Read Record :=
  draft.fields levels ofItems ofMembers

def ofRead {α : Type} : Json.Read α → Result α
  | .ok value => .ok value
  | .error flaw => .error (.json flaw)

def listOfText (text : Text.Decoded) : Result (List Record) :=
  ofRead ((Json.Document.ofText text).read fun draft =>
    draft.items Json.depthLimit fun levels items => items.list (ofDraft levels))

def listToText (records : List Record) : String := (Json.array (records.map (·.toJson))).render

def signature? (record : Record) : Option String :=
  match record.action with
  | .call function arguments => some (ArgType.signature function (Argument.types arguments))
  | .wait => .none

end Record

end FuzzBridge
