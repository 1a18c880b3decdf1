import FuzzBridge.Proofs.Record.Outcome

/-!
Writing the values of a model back into a record that can be lifted. The record then does what its
step does under the model, and whatever the model names, the step keeps its form.
-/

namespace FuzzBridge

namespace Record

def IsCall (record : Record) : Prop :=
  ∃ function arguments, record.action = .call function arguments

/-- A call that sends something. -/
def Sends (record : Record) : Prop :=
  record.IsCall ∧ ∃ value, readHex record.value = .ok value ∧ value ≠ 0

theorem Reads.isCall_iff {record : Record} {reading : Reading} (reads : record.Reads reading) :
    record.IsCall ↔ ∃ call, reading.call = some call := by
  obtain ⟨blockDelay, timeDelay, call⟩ := reading
  have action := reads.action
  unfold IsCall
  generalize record.action = recorded at action
  cases action with
  | call readsCall => exact ⟨fun _ => ⟨_, rfl⟩, fun _ => ⟨_, _, rfl⟩⟩
  | wait => exact ⟨nofun, nofun⟩

theorem Reads.readsCall {record : Record} {reading : Reading} (reads : record.Reads reading)
    {call : CallReading} (isCall : reading.call = some call) :
    ∃ function arguments, record.action = .call function arguments ∧
      record.ReadsCall function arguments call := by
  obtain ⟨blockDelay, timeDelay, _⟩ := reading
  obtain rfl := isCall
  have action := reads.action
  generalize record.action = recorded at action
  cases action with
  | call readsCall => exact ⟨_, _, rfl, readsCall⟩

theorem Reads.sends_iff {record : Record} {reading : Reading} (reads : record.Reads reading) :
    record.Sends ↔ ∃ call, reading.call = some call ∧ call.value ≠ 0 := by
  unfold Sends
  rw [reads.isCall_iff]
  constructor
  · rintro ⟨⟨call, isCall⟩, value, read, nonzero⟩
    obtain ⟨_, _, -, readsCall⟩ := reads.readsCall isCall
    rw [readsCall.value] at read
    exact ⟨call, isCall, Except.ok.inj read ▸ nonzero⟩
  · rintro ⟨call, isCall, nonzero⟩
    obtain ⟨_, _, -, readsCall⟩ := reads.readsCall isCall
    exact ⟨⟨call, isCall⟩, call.value, readsCall.value, nonzero⟩

theorem Reads.narrow {record : Record} {reading : Reading} (reads : record.Reads reading)
    (narrow : record.action.IsNarrow) {call : CallReading} (isCall : reading.call = some call) :
    ArgType.AllNarrow call.types := by
  obtain ⟨_, _, action, readsCall⟩ := reads.readsCall isCall
  rw [action] at narrow
  rw [readsCall.types]
  exact narrow

def deposit : Record where
  action := .call "deposit" [.uint 8 "5", .array .bool [.bool true], .bytes "hi"]
  source := "0x0000000000000000000000000000000000010000"
  target := "0x20000"
  gas := "0xffff"
  gasPrice := "0x0"
  value := "0x1"
  timeDelay := "0x2"
  blockDelay := "0x3"

def depositReading : Reading where
  blockDelay := 3
  timeDelay := 2
  call := some {
    function := "deposit"
    types := [.uint 8, .array .bool, .bytes]
    values := [.int 5, .seq [.bool true], .bytes [104, 105]]
    source := 65536
    target := 131072
    value := 1
    gasPrice := 0
    gas := 65535 }

theorem deposit_reads : deposit.Reads depositReading := by
  refine ⟨rfl, rfl, .call ⟨rfl, rfl, rfl, ?_, rfl, rfl, rfl, rfl, rfl⟩⟩
  exact .cons (.uint 8 5) (.cons (.array (by simp [Conforms.bool])) (.cons (.bytes _) .nil))

theorem deposit_isUniform : deposit.action.IsUniform := by
  refine ⟨trivial, ⟨?_, trivial, trivial⟩, trivial, trivial⟩
  simp [Argument.type]

theorem deposit_isNarrow : deposit.action.IsNarrow :=
  ⟨(by decide : (8 : UInt16).toNat ≤ 256), trivial, trivial, trivial⟩

/-- Values for the number and for what the call sends, which then sends nothing. -/
def depositModel : Assignment := (Assignment.empty.set "tx0_value" 0 256).set "tx0_arg0" 7 256

theorem depositModel_respects : depositModel.Respects (depositReading.step "tx0").seeds := by
  intro name value assigned
  unfold depositModel at assigned
  by_cases number : name = "tx0_arg0"
  · subst number
    obtain rfl := Option.some.inj assigned
    exact ⟨8, rfl, by decide⟩
  · rw [Assignment.value?_set_of_ne _ number] at assigned
    by_cases sent : name = "tx0_value"
    · subst sent
      obtain rfl := Option.some.inj assigned
      exact ⟨256, rfl, by decide⟩
    · rw [Assignment.value?_set_of_ne _ sent] at assigned
      cases assigned

/-- What a record does with the values of a model written into it is what its step does with the
model: nothing is lost between the values that a solver finds and the transaction that is run. -/
theorem fill_refines_override {record : Record} {transaction : String} {step : Step}
    {model : Assignment} (lifted : record.lift transaction = .ok step)
    (uniform : record.action.IsUniform) (narrow : record.action.IsNarrow)
    (respects : model.Respects step.seeds) :
    ∃ filled step' outcome,
      record.fill model transaction = .ok filled ∧ filled.lift transaction = .ok step' ∧
      step'.outcome step'.seeds = .ok outcome ∧
      step.outcome (step.seeds.override model) = .ok outcome := by
  obtain ⟨reading, reads, rfl⟩ := lift_eq_ok.1 lifted
  obtain ⟨filled, reads', isFilled⟩ := reads_substitute reads model transaction
  have room := fun leaf (member : leaf ∈ reading.coreLeaves transaction) =>
    Reading.room_of_respects respects (Reading.coreLeaves_subset member)
  have leaves := coreLeaves_substitute reads reads' isFilled uniform room
  obtain ⟨outcome, own, solved⟩ :=
    Reading.exists_outcome isFilled leaves respects fun _ => reads.narrow narrow
  exact ⟨_, _, outcome, fill_eq_substitute reads model transaction,
    lift_of_reads reads' transaction, own, solved⟩

theorem fill_refines_override_deposit :
    ∃ filled step' outcome,
      deposit.fill depositModel "tx0" = .ok filled ∧ filled.lift "tx0" = .ok step' ∧
      step'.outcome step'.seeds = .ok outcome ∧
      (depositReading.step "tx0").outcome
          ((depositReading.step "tx0").seeds.override depositModel) =
        .ok outcome :=
  fill_refines_override (lift_of_reads deposit_reads "tx0") deposit_isUniform deposit_isNarrow
    depositModel_respects

/-- Whatever the model names, the filled record can be lifted, and its step has the form of the step
of the record. -/
theorem fill_keeps_form {record : Record} {transaction : String} {step : Step}
    (lifted : record.lift transaction = .ok step) (model : Assignment) :
    ∃ filled step',
      record.fill model transaction = .ok filled ∧ filled.lift transaction = .ok step' ∧
      (filled.IsCall ↔ record.IsCall) ∧
      step'.call.map (·.data.parts) = step.call.map (·.data.parts) ∧
      step'.call.map (·.recipient) = step.call.map (·.recipient) ∧
      step'.call.map (·.gasPrice) = step.call.map (·.gasPrice) ∧
      step'.call.map (·.gasLimit) = step.call.map (·.gasLimit) ∧
      (∀ name, name ≠ (Place.ofField transaction .value).name →
        (name ∈ step'.seeds.names ↔ name ∈ step.seeds.names)) ∧
      ((Place.ofField transaction .value).name ∈ step.seeds.names ↔ record.Sends) ∧
      ((Place.ofField transaction .value).name ∈ step'.seeds.names ↔ filled.Sends) := by
  obtain ⟨reading, reads, rfl⟩ := lift_eq_ok.1 lifted
  obtain ⟨filled, reads', isFilled⟩ := reads_substitute reads model transaction
  refine ⟨_, _, fill_eq_substitute reads model transaction, lift_of_reads reads' transaction,
    ?_, isFilled.map_call ?_, isFilled.map_call ?_, isFilled.map_call ?_, isFilled.map_call ?_,
    ?_, ?_, ?_⟩
  · rw [reads.isCall_iff, reads'.isCall_iff]
    rcases isFilled.call_cases with ⟨isWait, isWait'⟩ | ⟨_, _, isCall, isCall', -⟩
    · simp [isWait, isWait']
    · simp [isCall, isCall']
  · exact fun _ _ callFilled => congrArg CallData.parts callFilled.data
  · exact fun _ _ callFilled => callFilled.target
  · exact fun _ _ callFilled => congrArg (Term.word 256) callFilled.gasPrice
  · exact fun _ _ callFilled => congrArg (Term.word 256) callFilled.gas
  · intro name other
    rw [Reading.mem_names_step_of_ne other, Reading.mem_names_step_of_ne other,
      isFilled.map_place_coreLeaves]
  · rw [Reading.value_mem_names_step, reads.sends_iff]
  · rw [Reading.value_mem_names_step, reads'.sends_iff]

theorem fill_keeps_form_deposit :
    ∃ filled step',
      deposit.fill (depositModel.set "elsewhere" 3 256) "tx0" = .ok filled ∧
      filled.lift "tx0" = .ok step' ∧ (filled.IsCall ↔ deposit.IsCall) ∧
      step'.call.map (·.data.parts) = (depositReading.step "tx0").call.map (·.data.parts) := by
  obtain ⟨filled, step', done, lifted, isCall, parts, -⟩ :=
    fill_keeps_form (lift_of_reads deposit_reads "tx0") (depositModel.set "elsewhere" 3 256)
  exact ⟨filled, step', done, lifted, isCall, parts⟩

end Record

end FuzzBridge
