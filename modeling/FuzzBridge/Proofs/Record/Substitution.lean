import FuzzBridge.Proofs.Argument.Filling
import FuzzBridge.Proofs.Record.Reading

/-!
Filling a record is substituting its leaves. The filled record can be read again, and denotes what
the record denotes with the values that the model gives.
-/

namespace FuzzBridge

/-- `filled` is `call` with the values that the model gives. -/
structure CallReading.IsFilled (model : Assignment) (transaction : String)
    (call filled : CallReading) : Prop where
  function : filled.function = call.function
  types : filled.types = call.types
  shape : List.Forall₂ SameShape call.values filled.values
  sender : filled.senderLeaf transaction = (call.senderLeaf transaction).fill model
  value : filled.value = (model.valueAt? (.ofField transaction .value)).getD call.value
  target : filled.target = call.target
  gasPrice : filled.gasPrice = call.gasPrice
  gas : filled.gas = call.gas

structure Reading.IsFilled (model : Assignment) (transaction : String) (reading filled : Reading) :
    Prop where
  blockLeaf : filled.blockLeaf transaction = (reading.blockLeaf transaction).fill model
  timeLeaf : filled.timeLeaf transaction = (reading.timeLeaf transaction).fill model
  call : Option.Rel (CallReading.IsFilled model transaction) reading.call filled.call

theorem Reading.IsFilled.call_cases {model : Assignment} {transaction : String}
    {reading filled : Reading} (isFilled : reading.IsFilled model transaction filled) :
    (reading.call = none ∧ filled.call = none) ∨
      ∃ call call', reading.call = some call ∧ filled.call = some call' ∧
        call.IsFilled model transaction call' := by
  obtain ⟨blockDelay, timeDelay, call⟩ := reading
  obtain ⟨blockDelay', timeDelay', call'⟩ := filled
  cases isFilled.call with
  | none => exact .inl ⟨rfl, rfl⟩
  | some rel => exact .inr ⟨_, _, rfl, rfl, rel⟩

namespace Action

def substitute (model : Assignment) (transaction : String) : Action → Action
  | .call function arguments =>
    .call function (Argument.substituteAll model (Encoding.argumentPlace transaction) 0 arguments)
  | .wait => .wait

/-- The model has nothing under an argument that it fails on. -/
def IsFillable (model : Assignment) (transaction : String) : Action → Prop
  | .call _ arguments =>
    Argument.AllFillable model (Encoding.argumentPlace transaction) 0 arguments
  | .wait => True

/-- The arrays of a call hold elements of the types that they declare. -/
def IsUniform : Action → Prop
  | .call _ arguments => Argument.AllUniform arguments
  | .wait => True

end Action

namespace Record

def substitute (model : Assignment) (transaction : String) (record : Record) : Record :=
  let field := fillField model transaction
  { record with
    action := record.action.substitute model transaction
    blockDelay := field .blockDelay Number.toHex record.blockDelay
    timeDelay := field .timeDelay Number.toHex record.timeDelay
    source := field .sender Number.toAddress record.source
    value := field .value Number.toHex record.value }

theorem fillArguments_eq_ok {arguments filled : List Argument} {model : Assignment}
    {transaction : String} {index : Nat} :
    fillArguments model transaction index arguments = .ok filled ↔
      Argument.AllFillable model (Encoding.argumentPlace transaction) index arguments ∧
        Argument.substituteAll model (Encoding.argumentPlace transaction) index arguments =
          filled := by
  induction arguments generalizing index filled with
  | nil => exact Result.ok_eq_ok_iff trivial
  | cons argument rest ih =>
    rw [fillArguments, Argument.AllFillable, Argument.substituteAll, Result.bind_eq_ok]
    constructor
    · rintro ⟨first, hfirst, h⟩
      obtain ⟨others, hothers, h⟩ := Result.bind_eq_ok.1 h
      obtain ⟨fillable, rfl⟩ := Argument.fill_eq_ok.1 hfirst
      obtain ⟨allFillable, rfl⟩ := ih.1 hothers
      exact ⟨⟨fillable, allFillable⟩, Except.ok.inj h⟩
    · rintro ⟨⟨fillable, allFillable⟩, rfl⟩
      refine ⟨_, Argument.fill_eq_ok.2 ⟨fillable, rfl⟩, ?_⟩
      rw [ih.2 ⟨allFillable, rfl⟩]
      rfl

/-- Filling a record is substituting its leaves, provided that the texts looked into can be read. -/
theorem fill_eq_ok {record filled : Record} {model : Assignment} {transaction : String} :
    record.fill model transaction = .ok filled ↔
      record.action.IsFillable model transaction ∧
        record.substitute model transaction = filled := by
  unfold fill substitute
  rw [Result.bind_eq_ok]
  cases record.action with
  | wait =>
    constructor
    · rintro ⟨action, h, done⟩
      obtain rfl := Except.ok.inj h
      exact ⟨trivial, Except.ok.inj done⟩
    · rintro ⟨-, done⟩
      exact ⟨_, rfl, congrArg _ done⟩
  | call function arguments =>
    simp only [fillAction, Result.map_eq_ok]
    constructor
    · rintro ⟨action, ⟨arguments', h, rfl⟩, done⟩
      obtain ⟨fillable, rfl⟩ := fillArguments_eq_ok.1 h
      exact ⟨fillable, Except.ok.inj done⟩
    · rintro ⟨fillable, done⟩
      exact ⟨_, ⟨_, fillArguments_eq_ok.2 ⟨fillable, rfl⟩, rfl⟩, congrArg _ done⟩

theorem fill_eq_substitute {record : Record} {reading : Reading} (reads : record.Reads reading)
    (model : Assignment) (transaction : String) :
    record.fill model transaction = .ok (record.substitute model transaction) := by
  refine fill_eq_ok.2 ⟨?_, rfl⟩
  obtain ⟨blockDelay, timeDelay, call⟩ := reading
  have action := reads.action
  generalize record.action = recorded at action
  cases action with
  | call readsCall =>
    refine Argument.allFillable_of_forall (fun argument member position => ?_) 0
    obtain ⟨value, read⟩ := Argument.readable_of_data readsCall.values member
    exact Argument.isFillable_of_datum read model _
  | wait => trivial

/-! The texts of the filled record. -/

theorem readHex_fillField {old : String} {value : Nat} (read : readHex old = .ok value)
    (model : Assignment) (transaction : String) (field : Field) :
    readHex (fillField model transaction field Number.toHex old) =
      .ok ((model.valueAt? (.ofField transaction field)).getD value) := by
  unfold fillField
  split
  · next assigned h => rw [readHex_toHex, h, Option.getD_some]
  · next h => rw [read, h, Option.getD_none]

theorem readHex_fillField_toAddress {old : String} {value : Nat} (read : readHex old = .ok value)
    (model : Assignment) (transaction : String) (field : Field) :
    ∃ filled, readHex (fillField model transaction field Number.toAddress old) = .ok filled ∧
      Leaf.ofValue (.ofField transaction field) 160 filled =
        (Leaf.ofValue (.ofField transaction field) 160 value).fill model := by
  unfold fillField
  rw [Leaf.fill_ofValue]
  split
  · next assigned h =>
    refine ⟨Number.mask assigned 160, readHex_toAddress assigned, ?_⟩
    rw [h, Option.getD_some, Leaf.ofValue_mask]
  · next h => exact ⟨value, read, by rw [h, Option.getD_none]⟩

theorem readsCall_substitute {record : Record} {function : String} {arguments : List Argument}
    {call : CallReading} (reads : record.ReadsCall function arguments call) (model : Assignment)
    (transaction : String) :
    ∃ filled,
      (record.substitute model transaction).ReadsCall function
        (Argument.substituteAll model (Encoding.argumentPlace transaction) 0 arguments) filled ∧
      call.IsFilled model transaction filled := by
  obtain ⟨values, hvalues, shape⟩ := Argument.data_substituteAll reads.values
    (fun _ _ _ place read => Argument.datum_substitute read model place)
    (Encoding.argumentPlace transaction) 0
  obtain ⟨source, hsource, sender⟩ :=
    readHex_fillField_toAddress reads.source model transaction .sender
  have value := readHex_fillField reads.value model transaction .value
  have types : Argument.types (Argument.substituteAll model (Encoding.argumentPlace transaction) 0
      arguments) = Argument.types arguments :=
    Argument.types_substituteAll
      (fun element _ place => Argument.type_substitute model place element) _ 0
  have conform := forall₂_conforms_of_forall₂ reads.conform
    (shape.imp fun _ _ same {_} conforms => conforms.of_sameShape same)
  let sent := (model.valueAt? (.ofField transaction .value)).getD call.value
  refine ⟨{ call with values, source, value := sent }, ?_, ?_⟩
  · exact ⟨reads.function, reads.types.trans types.symm, hvalues, conform, hsource, reads.target,
      value, reads.gasPrice, reads.gas⟩
  · exact ⟨rfl, rfl, shape, sender, rfl, rfl, rfl, rfl⟩

theorem reads_substitute {record : Record} {reading : Reading} (reads : record.Reads reading)
    (model : Assignment) (transaction : String) :
    ∃ filled, (record.substitute model transaction).Reads filled ∧
      reading.IsFilled model transaction filled := by
  obtain ⟨blockDelay, timeDelay, call⟩ := reading
  obtain ⟨hblock, htime, action⟩ := reads
  have hblock' := readHex_fillField hblock model transaction .blockDelay
  have htime' := readHex_fillField htime model transaction .timeDelay
  generalize same : record.action = recorded at action
  have action' : (record.substitute model transaction).action =
      recorded.substitute model transaction := by
    rw [← same]
    rfl
  cases action with
  | call reads =>
    obtain ⟨filled, reads', isFilled⟩ := readsCall_substitute reads model transaction
    refine ⟨⟨_, _, some filled⟩, ⟨hblock', htime', ?_⟩, ?_⟩
    · rw [action']
      exact .call reads'
    · exact ⟨(Leaf.fill_ofValue model _ 256 blockDelay).symm,
        (Leaf.fill_ofValue model _ 256 timeDelay).symm, .some isFilled⟩
  | wait =>
    refine ⟨⟨_, _, none⟩, ⟨hblock', htime', ?_⟩, ?_⟩
    · rw [action']
      exact .wait
    · exact ⟨(Leaf.fill_ofValue model _ 256 blockDelay).symm,
        (Leaf.fill_ofValue model _ 256 timeDelay).symm, .none⟩

theorem coreLeaves_substitute {record : Record} {reading filled : Reading}
    (reads : record.Reads reading) {model : Assignment} {transaction : String}
    (reads' : (record.substitute model transaction).Reads filled)
    (isFilled : reading.IsFilled model transaction filled) (uniform : record.action.IsUniform)
    (room : ∀ leaf ∈ reading.coreLeaves transaction, leaf.HasRoomFor model) :
    filled.coreLeaves transaction = (reading.coreLeaves transaction).map (Leaf.fill model) := by
  obtain ⟨blockDelay, timeDelay, call⟩ := reading
  obtain ⟨blockDelay', timeDelay', call'⟩ := filled
  have action := reads.action
  have action' := reads'.action
  have same : (record.substitute model transaction).action =
      record.action.substitute model transaction := rfl
  rw [same] at action'
  unfold Reading.coreLeaves at room ⊢
  rw [isFilled.blockLeaf, isFilled.timeLeaf, List.map_cons, List.map_cons]
  generalize record.action = recorded at action action' uniform
  cases action with
  | call readsCall =>
    cases action' with
    | call readsCall' =>
      obtain ⟨-, -, ⟨call⟩⟩ := isFilled
      have rooms := (List.forall_mem_cons.1 (List.forall_mem_cons.1 room).2).2
      have arguments := Argument.leavesFrom_substituteAll
        (fun _ _ uniform _ _ _ => Argument.leaves_substitute uniform) uniform readsCall.values
        readsCall'.values (by
          rw [← readsCall.types]
          exact fun leaf member => rooms leaf (List.mem_append_left _ member))
      rw [← readsCall.types] at arguments
      simp only [CallReading.coreLeaves, CallReading.argumentLeaves, Encoding.callLeaves,
        call.types, call.sender, arguments, List.map_append, List.map_singleton]
  | wait =>
    cases action'
    rfl

end Record

theorem Reading.IsFilled.map_place_coreLeaves {model : Assignment} {transaction : String}
    {reading filled : Reading} (isFilled : reading.IsFilled model transaction filled) :
    (filled.coreLeaves transaction).map Leaf.place =
      (reading.coreLeaves transaction).map Leaf.place := by
  obtain ⟨blockDelay, timeDelay, call⟩ := reading
  obtain ⟨blockDelay', timeDelay', call'⟩ := filled
  have calls := isFilled.call
  simp only [Reading.coreLeaves, List.map_cons, isFilled.blockLeaf, isFilled.timeLeaf,
    Leaf.place_fill]
  cases calls with
  | none => rfl
  | some call =>
    simp only [CallReading.coreLeaves, CallReading.argumentLeaves, List.map_append,
      List.map_singleton, call.types, call.sender, Leaf.place_fill,
      Encoding.map_place_callLeaves call.shape]

theorem CallReading.IsFilled.data {call filled : CallReading} {model : Assignment}
    {transaction : String} (isFilled : call.IsFilled model transaction filled) :
    filled.data transaction = call.data transaction := by
  unfold CallReading.data
  rw [isFilled.function, isFilled.types, Encoding.callTerms_of_sameShape isFilled.shape]

theorem Reading.IsFilled.map_call {model : Assignment} {transaction : String}
    {reading filled : Reading} (isFilled : reading.IsFilled model transaction filled) {β : Type}
    {part : Call → β}
    (h : ∀ call call' : CallReading, call.IsFilled model transaction call' →
      part (call'.toCall transaction) = part (call.toCall transaction)) :
    (filled.step transaction).call.map part = (reading.step transaction).call.map part := by
  rcases isFilled.call_cases with ⟨isWait, isWait'⟩ | ⟨call, call', isCall, isCall', callFilled⟩
  · simp only [Reading.step, isWait, isWait']
  · simp only [Reading.step, isCall, isCall', Option.map_some, h call call' callFilled]

end FuzzBridge
