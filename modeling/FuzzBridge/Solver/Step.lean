import FuzzBridge.Solver.CallData

/-!
One step of a sequence as a solver sees it: a call or none, and how far the block moves on. The
seeds are the values that the step was recorded with.
-/

namespace FuzzBridge

structure Call where
  origin : Term
  sender : Term
  recipient : Nat
  value : Term
  data : CallData
  gasPrice : Term
  gasLimit : Term
  deriving DecidableEq

structure Step where
  call : Option Call
  blockDelay : Term
  timeDelay : Term
  seeds : Assignment
  deriving DecidableEq

def Call.toJson (call : Call) : Json :=
  .object [("origin", call.origin.toJson), ("sender", call.sender.toJson),
    ("recipient", .text (Number.toHex call.recipient)), ("value", call.value.toJson),
    ("data", call.data.toJson), ("gas_price", call.gasPrice.toJson),
    ("gas_limit", call.gasLimit.toJson)]

def Call.lines (call : Call) : List String :=
  [ "sender:    " ++ call.sender.shown,
    "recipient: " ++ Number.toHex call.recipient,
    "value:     " ++ call.value.shown ++ (if call.value.isConcrete then "" else " (symbolic)"),
    "data:      " ++ toString call.data.size ++ " bytes, " ++ toString call.data.variableCount ++
      " symbolic",
    "gas:       " ++ call.gasLimit.shown ++ " @ " ++ call.gasPrice.shown ]

namespace Step

def toJson (step : Step) : Json :=
  .object [("tx", match step.call with
      | some call => call.toJson
      | none => .null),
    ("block_num_inc", step.blockDelay.toJson), ("block_timestamp_inc", step.timeDelay.toJson),
    ("ctx", step.seeds.toJson)]

def lines (step : Step) : List String :=
  (match step.call with
    | some call => call.lines
    | none => ["no call"]) ++
  ["block inc: " ++ step.blockDelay.shown, "time inc:  " ++ step.timeDelay.shown]

def shown (step : Step) : String := "\n".intercalate step.lines

end Step

def requestText (steps : List Step) : String := (Json.array (steps.map (·.toJson))).render

end FuzzBridge
