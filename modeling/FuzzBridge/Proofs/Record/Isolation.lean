import FuzzBridge.Proofs.Argument.Slots
import FuzzBridge.Proofs.Record.Leaves
import FuzzBridge.Proofs.Record.WriteBack

/-!
Filling a record that can be lifted reads nothing of a model but the variables of its step, its
sender and its value.
-/

namespace FuzzBridge.Record

variable {first second : Assignment} {transaction : String}

theorem fillField_congr {field : Field}
    (agree : first.valueAt? (.ofField transaction field) =
      second.valueAt? (.ofField transaction field)) (shown : Nat → String) (old : String) :
    fillField first transaction field shown old = fillField second transaction field shown old := by
  unfold fillField
  rw [agree]

theorem slot_mem_names {record : Record} {reading : Reading} {function : String}
    {arguments : List Argument} {call : CallReading}
    (reads : record.ReadsCall function arguments call) (isCall : reading.call = some call)
    {slot : Slot}
    (member : slot ∈ Argument.slotsFrom (Encoding.argumentPlace transaction) 0 arguments) :
    slot.place.name ∈ (reading.step transaction).seeds.names := by
  have places := Argument.map_place_slotsFrom reads.values reads.conform
    (Encoding.argumentPlace transaction) 0
  obtain ⟨leaf, hleaf, same⟩ := List.mem_map.1 (places ▸ List.mem_map_of_mem member)
  have inCall : leaf ∈ call.coreLeaves transaction := List.mem_append_left _ hleaf
  rw [Reading.mem_names_step, ← same]
  exact List.mem_map.2 ⟨leaf, Reading.coreLeaves_subset (Reading.callLeaf_mem isCall inCall), rfl⟩

theorem action_substitute_congr {record : Record} {reading : Reading}
    (reads : record.Reads reading)
    (agree : ∀ name ∈ (reading.step transaction).seeds.names,
      first.value? name = second.value? name) :
    record.action.substitute first transaction = record.action.substitute second transaction := by
  obtain ⟨blockDelay, timeDelay, call⟩ := reading
  have action := reads.action
  generalize record.action = recorded at action
  cases action with
  | @call function arguments call readsCall =>
    refine congrArg (Action.call function) (Argument.substituteAll_congr
      (fun _ _ _ => Argument.substitute_congr) fun slot member => ?_)
    have same : first.valueAt? slot.place = second.valueAt? slot.place :=
      agree _ (slot_mem_names readsCall rfl member)
    rw [Slot.written?, Slot.written?, same]
  | wait => rfl

/-- Two models that give the same to the variables of the step, to the sender and to the value of
the transaction fill the record alike, whatever else they name. -/
theorem fill_reads_only_own {record : Record} {step : Step}
    (lifted : record.lift transaction = .ok step)
    (seeds : ∀ name ∈ step.seeds.names, first.value? name = second.value? name)
    (sender : first.valueAt? (.ofField transaction .sender) =
      second.valueAt? (.ofField transaction .sender))
    (value : first.valueAt? (.ofField transaction .value) =
      second.valueAt? (.ofField transaction .value)) :
    ∃ filled, record.fill first transaction = .ok filled ∧
      record.fill second transaction = .ok filled := by
  obtain ⟨reading, reads, rfl⟩ := lift_eq_ok.1 lifted
  have core (leaf : Leaf) (member : leaf ∈ reading.coreLeaves transaction) :
      first.valueAt? leaf.place = second.valueAt? leaf.place :=
    seeds _ ((Reading.mem_names_step _).2 (List.mem_map_of_mem (Reading.coreLeaves_subset member)))
  have block := core _ Reading.blockLeaf_mem
  have time := core _ Reading.timeLeaf_mem
  rw [Reading.place_blockLeaf] at block
  rw [Reading.place_timeLeaf] at time
  have same : record.substitute first transaction = record.substitute second transaction := by
    simp only [substitute, action_substitute_congr reads seeds, fillField_congr sender,
      fillField_congr value, fillField_congr block, fillField_congr time]
  refine ⟨_, fill_eq_substitute reads first transaction, ?_⟩
  rw [same]
  exact fill_eq_substitute reads second transaction

/-- Another transaction, a name that goes on after that of a leaf, and a byte past the end of the
byte string. -/
theorem fill_reads_only_own_deposit :
    ∃ filled, deposit.fill depositModel "tx0" = .ok filled ∧
      deposit.fill (((depositModel.set "tx10_value" 9 256).set "tx0_arg0_0" 4 256).set
        "tx0_arg2_2" 65 8) "tx0" = .ok filled :=
  fill_reads_only_own (lift_of_reads deposit_reads "tx0") (by decide) rfl rfl

end FuzzBridge.Record
