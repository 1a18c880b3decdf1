import FuzzBridge.Argument.Fill
import FuzzBridge.Record.Basic

/-!
Writing a model back into a recorded transaction: every field that the model gives a value to is
replaced, under the name that the transaction was lifted with.
-/

namespace FuzzBridge.Record

def fillArguments (model : Assignment) (transaction : String) :
    Nat → List Argument → Result (List Argument)
  | _, [] => .ok []
  | index, argument :: rest => do
    let filled ← argument.fill model (.ofField transaction (.argument index))
    return filled :: (← fillArguments model transaction (index + 1) rest)

def fillAction (model : Assignment) (transaction : String) : Action → Result Action
  | .call function arguments => .call function <$> fillArguments model transaction 0 arguments
  | .wait => .ok .wait

/-- A field as the model has it, shown in its own way, or else as it was. -/
def fillField (model : Assignment) (transaction : String) (field : Field) (shown : Nat → String)
    (old : String) : String :=
  match model.valueAt? (.ofField transaction field) with
  | some value => shown value
  | none => old

def fill (record : Record) (model : Assignment) (transaction : String) : Result Record := do
  let action ← fillAction model transaction record.action
  let field := fillField model transaction
  return { record with
    action
    blockDelay := field .blockDelay Number.toHex record.blockDelay
    timeDelay := field .timeDelay Number.toHex record.timeDelay
    source := field .sender Number.toAddress record.source
    value := field .value Number.toHex record.value }

/-- The records of a sequence from `position` on, each named by its position. -/
def fillFrom (model : Assignment) (position : Nat) : List Record → Result (List Record)
  | [] => .ok []
  | record :: rest => do
    let filled ← record.fill model (transactionName position)
    return filled :: (← fillFrom model (position + 1) rest)

def fillAll (records : List Record) (model : Assignment) : Result (List Record) :=
  fillFrom model 0 records

end FuzzBridge.Record
