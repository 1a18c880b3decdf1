import FuzzBridge.Encoding.Call
import FuzzBridge.Record.Basic
import FuzzBridge.Solver.Step

/-!
From a recorded transaction to a step that a solver can work on. Every variable is named after the
transaction and declared with the recorded value, so a step that nobody solves replays the record.
-/

namespace FuzzBridge.Record

def typedArguments : List Argument → Result (List (ArgType × Datum))
  | [] => .ok []
  | argument :: rest => do
    let typed ← argument.typed
    return typed :: (← typedArguments rest)

/-- A call that sends nothing keeps a constant value: only payable functions take any. -/
def liftValue (transaction : String) (value : Nat) (seeds : Assignment) : Term × Assignment :=
  if value = 0 then (.word 256 0, seeds)
  else Term.declare seeds (.ofField transaction .value) 256 value

def liftCall (record : Record) (function : String) (arguments : List Argument)
    (transaction : String) (seeds : Assignment) : Result (Call × Assignment) := do
  let typed ← typedArguments arguments
  let (data, seeds) ← Encoding.functionCall function typed transaction seeds
  let (sender, seeds) :=
    Term.declare seeds (.ofField transaction .sender) 160 (← readHex record.source)
  let (value, seeds) := liftValue transaction (← readHex record.value) seeds
  let recipient ← readHex record.target
  let gasPrice := Term.word 256 (← readHex record.gasPrice)
  let gasLimit := Term.word 256 (← readHex record.gas)
  return (⟨sender, sender, recipient, value, data, gasPrice, gasLimit⟩, seeds)

def lift (record : Record) (transaction : String) : Result Step := do
  let (blockDelay, seeds) :=
    Term.declare .empty (.ofField transaction .blockDelay) 256 (← readHex record.blockDelay)
  let (timeDelay, seeds) :=
    Term.declare seeds (.ofField transaction .timeDelay) 256 (← readHex record.timeDelay)
  match record.action with
  | .wait => return ⟨none, blockDelay, timeDelay, seeds⟩
  | .call function arguments =>
    let (call, seeds) ← record.liftCall function arguments transaction seeds
    return ⟨some call, blockDelay, timeDelay, seeds⟩

def liftFrom (position : Nat) : List Record → Result (List Step)
  | [] => .ok []
  | record :: rest => do
    let step ← record.lift (transactionName position)
    return step :: (← liftFrom (position + 1) rest)

def liftAll (records : List Record) : Result (List Step) := liftFrom 0 records

end FuzzBridge.Record
