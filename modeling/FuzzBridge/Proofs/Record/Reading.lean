import FuzzBridge.Proofs.Argument.Leaves
import FuzzBridge.Proofs.Encoding.FunctionCall
import FuzzBridge.Record.Fill
import FuzzBridge.Record.Lift

/-!
What the texts of a record denote, and the step that it is lifted to. Lifting succeeds on a record
exactly if all its texts denote something and its arguments conform to their types.
-/

namespace FuzzBridge

/-- What the texts of a call denote. -/
structure CallReading where
  function : String
  types : List ArgType
  values : List Datum
  source : Nat
  target : Nat
  value : Nat
  gasPrice : Nat
  gas : Nat

/-- What the texts of a record denote. Without a call, only the delays are looked at. -/
structure Reading where
  blockDelay : Nat
  timeDelay : Nat
  call : Option CallReading

namespace CallReading

variable (call : CallReading) (transaction : String)

def argumentLeaves : List Leaf := Encoding.callLeaves call.types transaction call.values

def senderLeaf : Leaf := .ofValue (.ofField transaction .sender) 160 call.source

theorem place_senderLeaf : (call.senderLeaf transaction).place = .ofField transaction .sender := rfl

theorem bits_senderLeaf : (call.senderLeaf transaction).bits = 160 := rfl

/-- The leaves that every call has. -/
def coreLeaves : List Leaf := call.argumentLeaves transaction ++ [call.senderLeaf transaction]

def valueLeaf : Leaf := .ofValue (.ofField transaction .value) 256 call.value

theorem place_valueLeaf : (call.valueLeaf transaction).place = .ofField transaction .value := rfl

theorem name_valueLeaf :
    (call.valueLeaf transaction).name = (Place.ofField transaction .value).name :=
  congrArg Place.name (call.place_valueLeaf transaction)

def valueLeaves : List Leaf := if call.value = 0 then [] else [call.valueLeaf transaction]

def valueTerm : Term :=
  if call.value = 0 then .word 256 0 else .symbol 256 (Place.ofField transaction .value).name

def data : CallData := ⟨Encoding.callTerms call.function call.types transaction call.values⟩

def toCall : Call :=
  let sender := .symbol 160 (Place.ofField transaction .sender).name
  ⟨sender, sender, call.target, call.valueTerm transaction, call.data transaction,
    .word 256 call.gasPrice, .word 256 call.gas⟩

end CallReading

namespace Reading

variable (reading : Reading) (transaction : String)

def blockLeaf : Leaf := .ofValue (.ofField transaction .blockDelay) 256 reading.blockDelay

def timeLeaf : Leaf := .ofValue (.ofField transaction .timeDelay) 256 reading.timeDelay

theorem place_blockLeaf :
    (reading.blockLeaf transaction).place = .ofField transaction .blockDelay := rfl

theorem bits_blockLeaf : (reading.blockLeaf transaction).bits = 256 := rfl

theorem place_timeLeaf :
    (reading.timeLeaf transaction).place = .ofField transaction .timeDelay := rfl

theorem bits_timeLeaf : (reading.timeLeaf transaction).bits = 256 := rfl

/-- The leaves that a record has whether or not it sends something. -/
def coreLeaves : List Leaf :=
  reading.blockLeaf transaction :: reading.timeLeaf transaction ::
    match reading.call with
    | some call => call.coreLeaves transaction
    | none => []

def valueLeaves : List Leaf :=
  match reading.call with
  | some call => call.valueLeaves transaction
  | none => []

def leaves : List Leaf := reading.coreLeaves transaction ++ reading.valueLeaves transaction

def step : Step where
  call := reading.call.map (·.toCall transaction)
  blockDelay := .symbol 256 (Place.ofField transaction .blockDelay).name
  timeDelay := .symbol 256 (Place.ofField transaction .timeDelay).name
  seeds := Assignment.empty.declare (reading.leaves transaction)

theorem seeds_step :
    (reading.step transaction).seeds = Assignment.empty.declare (reading.leaves transaction) := by
  rw [step]

end Reading

namespace Record

structure ReadsCall (record : Record) (function : String) (arguments : List Argument)
    (call : CallReading) : Prop where
  function : call.function = function
  types : call.types = Argument.types arguments
  values : Argument.data arguments = .ok call.values
  conform : List.Forall₂ Conforms call.types call.values
  source : readHex record.source = .ok call.source
  target : readHex record.target = .ok call.target
  value : readHex record.value = .ok call.value
  gasPrice : readHex record.gasPrice = .ok call.gasPrice
  gas : readHex record.gas = .ok call.gas

inductive ReadsAction (record : Record) : Action → Option CallReading → Prop
  | call {function : String} {arguments : List Argument} {call : CallReading}
      (reads : record.ReadsCall function arguments call) :
      ReadsAction record (.call function arguments) (some call)
  | wait : ReadsAction record .wait none

/-- The texts of the record denote what the reading says. -/
structure Reads (record : Record) (reading : Reading) : Prop where
  blockDelay : readHex record.blockDelay = .ok reading.blockDelay
  timeDelay : readHex record.timeDelay = .ok reading.timeDelay
  action : record.ReadsAction record.action reading.call

theorem typedArguments_eq_ok {arguments : List Argument} {typed : List (ArgType × Datum)} :
    typedArguments arguments = .ok typed ↔
      ∃ values, Argument.data arguments = .ok values ∧
        (Argument.types arguments).zip values = typed := by
  induction arguments generalizing typed with
  | nil =>
    constructor
    · intro h
      exact ⟨[], rfl, Except.ok.inj h⟩
    · rintro ⟨values, read, rfl⟩
      rfl
  | cons argument rest ih =>
    rw [typedArguments, Result.bind_eq_ok]
    constructor
    · rintro ⟨first, hfirst, h⟩
      obtain ⟨others, hothers, typed_eq⟩ := Result.bind_eq_ok.1 h
      obtain ⟨value, hvalue, first_eq⟩ := Result.bind_eq_ok.1 hfirst
      obtain ⟨values, hvalues, rfl⟩ := ih.1 hothers
      obtain rfl := Result.pure_eq_ok.1 first_eq
      obtain rfl := Result.pure_eq_ok.1 typed_eq
      exact ⟨value :: values, Argument.data_eq_ok.2 (.cons hvalue (Argument.data_eq_ok.1 hvalues)),
        rfl⟩
    · rintro ⟨values, read, rfl⟩
      obtain ⟨value, hvalue, h⟩ := Result.bind_eq_ok.1 read
      obtain ⟨others, hothers, values_eq⟩ := Result.bind_eq_ok.1 h
      obtain rfl := Result.pure_eq_ok.1 values_eq
      refine ⟨(argument.type, value), Result.bind_eq_ok.2 ⟨value, hvalue, rfl⟩, ?_⟩
      exact Result.bind_eq_ok.2 ⟨_, ih.2 ⟨others, hothers, rfl⟩, rfl⟩

theorem liftValue_eq (call : CallReading) (transaction : String) (seeds : Assignment) :
    liftValue transaction call.value seeds =
      (call.valueTerm transaction, seeds.declare (call.valueLeaves transaction)) := by
  unfold liftValue CallReading.valueTerm CallReading.valueLeaves CallReading.valueLeaf
  split
  · rfl
  · rw [Assignment.declare_ofValue_cons]
    rfl

theorem liftCall_of_reads {record : Record} {function : String} {arguments : List Argument}
    {call : CallReading} (reads : record.ReadsCall function arguments call) (transaction : String)
    (seeds : Assignment) :
    record.liftCall function arguments transaction seeds =
      .ok (call.toCall transaction,
        (seeds.declare (call.coreLeaves transaction)).declare (call.valueLeaves transaction)) := by
  have typed := typedArguments_eq_ok.2 ⟨call.values, reads.values, rfl⟩
  have length := reads.conform.length_eq
  rw [← reads.types] at typed
  have fst : (call.types.zip call.values).map (·.1) = call.types :=
    List.map_fst_zip (by omega)
  have snd : (call.types.zip call.values).map (·.2) = call.values :=
    List.map_snd_zip (by omega)
  have conform : List.Forall₂ Conforms ((call.types.zip call.values).map (·.1))
      ((call.types.zip call.values).map (·.2)) := by
    rw [fst, snd]
    exact reads.conform
  have encoded := Encoding.functionCall_of_conform conform function transaction seeds
  rw [fst, snd] at encoded
  simp only [liftCall, typed, encoded, reads.source, reads.value, reads.target, reads.gasPrice,
    reads.gas, bind, Except.bind, pure, Except.pure, Term.declare, liftValue_eq]
  simp only [CallReading.toCall, CallReading.data, CallReading.coreLeaves,
    CallReading.argumentLeaves, CallReading.senderLeaf, Assignment.declare_append,
    Assignment.declare_ofValue_cons, Assignment.declare_nil, reads.function]

theorem reads_of_liftCall {record : Record} {function : String} {arguments : List Argument}
    {transaction : String} {seeds : Assignment} {result : Call × Assignment}
    (h : record.liftCall function arguments transaction seeds = .ok result) :
    ∃ call, record.ReadsCall function arguments call := by
  obtain ⟨typed, htyped, afterTyped⟩ := Result.bind_eq_ok.1 h
  obtain ⟨encoded, hencoded, afterEncoded⟩ := Result.bind_eq_ok.1 afterTyped
  obtain ⟨source, hsource, afterSource⟩ := Result.bind_eq_ok.1 afterEncoded
  obtain ⟨value, hvalue, afterValue⟩ := Result.bind_eq_ok.1 afterSource
  obtain ⟨target, htarget, afterTarget⟩ := Result.bind_eq_ok.1 afterValue
  obtain ⟨gasPrice, hgasPrice, afterGasPrice⟩ := Result.bind_eq_ok.1 afterTarget
  obtain ⟨gas, hgas, -⟩ := Result.bind_eq_ok.1 afterGasPrice
  obtain ⟨values, hvalues, rfl⟩ := typedArguments_eq_ok.1 htyped
  have conform := Encoding.conform_of_functionCall hencoded
  have length := Argument.length_of_data hvalues
  rw [List.map_fst_zip (by rw [Argument.types_eq_map, List.length_map]; omega),
    List.map_snd_zip (by rw [Argument.types_eq_map, List.length_map]; omega)] at conform
  exact ⟨⟨function, Argument.types arguments, values, source, target, value, gasPrice, gas⟩,
    rfl, rfl, hvalues, conform, hsource, htarget, hvalue, hgasPrice, hgas⟩

theorem lift_of_reads {record : Record} {reading : Reading} (reads : record.Reads reading)
    (transaction : String) : record.lift transaction = .ok (reading.step transaction) := by
  obtain ⟨blockDelay, timeDelay, call⟩ := reading
  obtain ⟨hblock, htime, haction⟩ := reads
  unfold lift Reading.step Reading.leaves Reading.coreLeaves Reading.blockLeaf Reading.timeLeaf
  rw [hblock, htime, Assignment.declare_append, Assignment.declare_ofValue_cons,
    Assignment.declare_ofValue_cons]
  generalize record.action = action at haction
  cases haction with
  | call reads =>
    simp only [bind, Except.bind, liftCall_of_reads reads]
    rfl
  | wait => rfl

theorem reads_of_lift {record : Record} {transaction : String} {step : Step}
    (h : record.lift transaction = .ok step) : ∃ reading, record.Reads reading := by
  obtain ⟨blockDelay, hblock, afterBlock⟩ := Result.bind_eq_ok.1 h
  obtain ⟨timeDelay, htime, afterTime⟩ := Result.bind_eq_ok.1 afterBlock
  cases action : record.action with
  | call function arguments =>
    simp only [action] at afterTime
    obtain ⟨result, hcall, -⟩ := Result.bind_eq_ok.1 afterTime
    obtain ⟨call, reads⟩ := reads_of_liftCall hcall
    exact ⟨⟨blockDelay, timeDelay, some call⟩, hblock, htime, action ▸ .call reads⟩
  | wait => exact ⟨⟨blockDelay, timeDelay, none⟩, hblock, htime, action ▸ .wait⟩

theorem lift_eq_ok {record : Record} {transaction : String} {step : Step} :
    record.lift transaction = .ok step ↔
      ∃ reading, record.Reads reading ∧ reading.step transaction = step := by
  constructor
  · intro h
    obtain ⟨reading, reads⟩ := reads_of_lift h
    rw [lift_of_reads reads] at h
    exact ⟨reading, reads, Except.ok.inj h⟩
  · rintro ⟨reading, reads, rfl⟩
    exact lift_of_reads reads transaction

end Record

end FuzzBridge
