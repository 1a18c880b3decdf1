import FuzzBridge.Proofs.Record.WriteBack

/-!
The seeds of a step written back into its record: the record is lifted to the same step again, and a
record in canonical form does not change at all.
-/

namespace FuzzBridge

namespace Reading

variable {reading filled : Reading} {transaction : String}

theorem valueAt?_step_eq_none {field : Field}
    (h : ∀ leaf ∈ reading.leaves transaction, leaf.place.field ≠ field) :
    (reading.step transaction).seeds.valueAt? (.ofField transaction field) = none := by
  rw [seeds_step, Assignment.valueAt?, Assignment.value?, Assignment.find?_declare_of_ne]
  · rfl
  · intro leaf member names
    have places := Place.name_injective (transaction_of_mem_leaves member) names
    exact h leaf member (congrArg Place.field places)

theorem valueAt?_step_of_wait (isWait : reading.call = none) (field : Field)
    (block : field ≠ .blockDelay) (time : field ≠ .timeDelay) :
    (reading.step transaction).seeds.valueAt? (.ofField transaction field) = none := by
  apply valueAt?_step_eq_none
  intro leaf member
  simp only [Reading.leaves, coreLeaves, valueLeaves, isWait, List.append_nil, List.mem_cons,
    List.not_mem_nil, or_false] at member
  rcases member with rfl | rfl
  · exact block.symm
  · exact time.symm

theorem valueAt?_step_value {call : CallReading} (isCall : reading.call = some call)
    (small : call.value < Number.wordCount 256) :
    ((reading.step transaction).seeds.valueAt? (.ofField transaction .value)).getD call.value =
      call.value := by
  by_cases zero : call.value = 0
  · have undeclared : ∀ leaf ∈ reading.leaves transaction, leaf.place.field ≠ .value := by
      intro leaf member
      rcases List.mem_append.1 member with core | value
      · exact (place_of_mem_coreLeaves core).2
      · obtain ⟨other, isOther, sends, -⟩ := mem_valueLeaves.1 value
        rw [isCall] at isOther
        exact absurd zero (Option.some.inj isOther ▸ sends)
    rw [valueAt?_step_eq_none undeclared, Option.getD_none]
  · rw [valueAt?_value isCall zero, Option.getD_some, Number.mask_of_lt small]

theorem step_filled_own
    (isFilled : reading.IsFilled (reading.step transaction).seeds transaction filled)
    (leaves : filled.coreLeaves transaction =
      (reading.coreLeaves transaction).map (Leaf.fill (reading.step transaction).seeds))
    (small : ∀ call, reading.call = some call → call.value < Number.wordCount 256) :
    filled.step transaction = reading.step transaction := by
  have core : filled.coreLeaves transaction = reading.coreLeaves transaction := by
    rw [leaves]
    refine (List.map_congr_left ?_).trans (List.map_id _)
    intro leaf member
    exact Leaf.fill_eq_self (valueAt?_step (coreLeaves_subset member))
  rcases isFilled.call_cases with ⟨isWait, isWait'⟩ | ⟨call, call', isCall, isCall', callFilled⟩
  · simp only [step, Reading.leaves, valueLeaves, core, isWait, isWait']
  · have value : call'.value = call.value := by
      rw [callFilled.value, valueAt?_step_value isCall (small call isCall)]
    have calls : call'.toCall transaction = call.toCall transaction := by
      simp only [CallReading.toCall, CallReading.valueTerm, callFilled.data, callFilled.target,
        callFilled.gasPrice, callFilled.gas, value]
    simp only [step, Reading.leaves, valueLeaves, CallReading.valueLeaves, CallReading.valueLeaf,
      core, isCall, isCall', value, Option.map_some, calls]

end Reading

namespace Record

/-- The shortest text of a word. -/
def IsWordText (text : String) : Prop :=
  Number.IsShortestHex text ∧ ∃ value, readHex text = .ok value ∧ value < Number.wordCount 256

/-- Every text that is looked at has the form in which filling a record would write it. -/
structure IsCanonical (record : Record) : Prop where
  blockDelay : IsWordText record.blockDelay
  timeDelay : IsWordText record.timeDelay
  value : record.IsCall → IsWordText record.value
  source : record.IsCall → Number.IsAddressText record.source
  arguments : ∀ function arguments, record.action = .call function arguments →
    Argument.AllCanonical arguments

theorem fillField_of_unassigned {model : Assignment} {transaction : String} {field : Field}
    (h : model.valueAt? (.ofField transaction field) = none) (shown : Nat → String) (old : String) :
    fillField model transaction field shown old = old := by
  rw [fillField, h]

theorem fillField_of_isWordText {model : Assignment} {transaction : String} {field : Field}
    {old : String} (canonical : IsWordText old) {value : Nat} (read : readHex old = .ok value)
    (own : (model.valueAt? (.ofField transaction field)).getD value = value) :
    fillField model transaction field Number.toHex old = old := by
  unfold fillField
  split
  · next assigned h =>
    rw [h, Option.getD_some] at own
    rw [own]
    exact Number.toHex_of_isShortestHex canonical.1 (readHex_eq_ok.1 read)
  · rfl

theorem fillField_of_isAddressText {model : Assignment} {transaction : String} {field : Field}
    {old : String} (canonical : Number.IsAddressText old) {value : Nat}
    (read : readHex old = .ok value)
    (own : model.valueAt? (.ofField transaction field) = some (Number.mask value 160)) :
    fillField model transaction field Number.toAddress old = old := by
  rw [fillField, own]
  exact (Number.toAddress_mask value).trans
    (Number.toAddress_of_isAddressText canonical (readHex_eq_ok.1 read))

theorem lt_of_isWordText {text : String} (canonical : IsWordText text) {value : Nat}
    (read : readHex text = .ok value) : value < Number.wordCount 256 := by
  obtain ⟨-, value', read', lt⟩ := canonical
  rw [read] at read'
  rw [Except.ok.inj read']
  exact lt

section

variable {record : Record} {reading : Reading} (reads : record.Reads reading) (transaction : String)

include reads

theorem delays_own (canonical : record.IsCanonical) :
    fillField (reading.step transaction).seeds transaction .blockDelay Number.toHex
        record.blockDelay = record.blockDelay ∧
      fillField (reading.step transaction).seeds transaction .timeDelay Number.toHex
        record.timeDelay = record.timeDelay := by
  have block : (reading.step transaction).seeds.valueAt? (.ofField transaction .blockDelay) =
      some (Number.mask reading.blockDelay 256) := by
    rw [← reading.place_blockLeaf transaction,
      Reading.valueAt?_step (Reading.coreLeaves_subset Reading.blockLeaf_mem)]
    rfl
  have time : (reading.step transaction).seeds.valueAt? (.ofField transaction .timeDelay) =
      some (Number.mask reading.timeDelay 256) := by
    rw [← reading.place_timeLeaf transaction,
      Reading.valueAt?_step (Reading.coreLeaves_subset Reading.timeLeaf_mem)]
    rfl
  constructor
  · refine fillField_of_isWordText canonical.blockDelay reads.blockDelay ?_
    rw [block, Option.getD_some,
      Number.mask_of_lt (lt_of_isWordText canonical.blockDelay reads.blockDelay)]
  · refine fillField_of_isWordText canonical.timeDelay reads.timeDelay ?_
    rw [time, Option.getD_some,
      Number.mask_of_lt (lt_of_isWordText canonical.timeDelay reads.timeDelay)]

theorem call_own {call : CallReading} (isCall : reading.call = some call)
    (uniform : record.action.IsUniform) (canonical : record.IsCanonical) :
    record.action.substitute (reading.step transaction).seeds transaction = record.action ∧
    fillField (reading.step transaction).seeds transaction .sender Number.toAddress record.source =
      record.source ∧
    fillField (reading.step transaction).seeds transaction .value Number.toHex record.value =
      record.value := by
  obtain ⟨function, arguments, action, readsCall⟩ := reads.readsCall isCall
  have recordIsCall : record.IsCall := ⟨function, arguments, action⟩
  have canonicalValue := canonical.value recordIsCall
  have own {leaf : Leaf} (member : leaf ∈ call.coreLeaves transaction) :=
    Reading.valueAt?_step (Reading.coreLeaves_subset (Reading.callLeaf_mem isCall member))
  refine ⟨?_, ?_, ?_⟩
  · rw [action] at uniform ⊢
    have leaves : (reading.step transaction).seeds.Holds (Encoding.leavesFrom
        (Argument.types arguments) (Encoding.argumentPlace transaction) 0 call.values) := by
      rw [← readsCall.types]
      exact fun leaf member => own (List.mem_append_left _ member)
    exact congrArg (Action.call function) (Argument.substituteAll_own
      (fun _ _ uniform canonical _ _ => Argument.substitute_own uniform canonical) uniform
      (canonical.arguments function arguments action) readsCall.values leaves)
  · refine fillField_of_isAddressText (canonical.source recordIsCall) readsCall.source ?_
    rw [← call.place_senderLeaf transaction, own (List.mem_append_right _ List.mem_cons_self)]
    rfl
  · exact fillField_of_isWordText canonicalValue readsCall.value
      (Reading.valueAt?_step_value isCall (lt_of_isWordText canonicalValue readsCall.value))

theorem wait_own (isWait : reading.call = none) :
    record.action.substitute (reading.step transaction).seeds transaction = record.action ∧
    fillField (reading.step transaction).seeds transaction .sender Number.toAddress record.source =
      record.source ∧
    fillField (reading.step transaction).seeds transaction .value Number.toHex record.value =
      record.value := by
  refine ⟨?_,
    fillField_of_unassigned (Reading.valueAt?_step_of_wait isWait .sender nofun nofun) _ _,
    fillField_of_unassigned (Reading.valueAt?_step_of_wait isWait .value nofun nofun) _ _⟩
  cases action : record.action with
  | wait => rfl
  | call function arguments =>
    obtain ⟨call, isCall⟩ := reads.isCall_iff.1 ⟨function, arguments, action⟩
    rw [isWait] at isCall
    cases isCall

/-- A canonical record does not change when it is filled with its own seeds. -/
theorem substitute_own (uniform : record.action.IsUniform) (canonical : record.IsCanonical) :
    record.substitute (reading.step transaction).seeds transaction = record := by
  obtain ⟨block, time⟩ := delays_own reads transaction canonical
  have rest :
      record.action.substitute (reading.step transaction).seeds transaction = record.action ∧
      fillField (reading.step transaction).seeds transaction .sender Number.toAddress
        record.source = record.source ∧
      fillField (reading.step transaction).seeds transaction .value Number.toHex record.value =
        record.value := by
    cases isCall : reading.call with
    | none => exact wait_own reads transaction isCall
    | some call => exact call_own reads transaction isCall uniform canonical
  obtain ⟨action, source, value⟩ := rest
  simp only [substitute, action, block, time, source, value]

end

/-- A step that nobody has solved is written back as it was recorded: the record is lifted to the
same step, and is the same text by text if it was canonical. -/
theorem fill_seeds {record : Record} {transaction : String} {step : Step}
    (lifted : record.lift transaction = .ok step) (uniform : record.action.IsUniform)
    (small : record.IsCall → ∀ value, readHex record.value = .ok value →
      value < Number.wordCount 256) :
    ∃ filled, record.fill step.seeds transaction = .ok filled ∧
      filled.lift transaction = .ok step ∧ (record.IsCanonical → filled = record) := by
  obtain ⟨reading, reads, rfl⟩ := lift_eq_ok.1 lifted
  obtain ⟨filled, reads', isFilled⟩ := reads_substitute reads (reading.step transaction).seeds
    transaction
  have room : ∀ leaf ∈ reading.coreLeaves transaction,
      leaf.HasRoomFor (reading.step transaction).seeds := by
    intro leaf member value assigned
    rw [Reading.valueAt?_step (Reading.coreLeaves_subset member)] at assigned
    rw [← Option.some.inj assigned]
    exact leaf.fits
  have leaves := coreLeaves_substitute reads reads' isFilled uniform room
  have smallCall (call : CallReading) (isCall : reading.call = some call) :
      call.value < Number.wordCount 256 := by
    obtain ⟨function, arguments, action, readsCall⟩ := reads.readsCall isCall
    exact small ⟨function, arguments, action⟩ call.value readsCall.value
  refine ⟨_, fill_eq_substitute reads _ transaction, ?_, substitute_own reads transaction uniform⟩
  rw [lift_of_reads reads', Reading.step_filled_own isFilled leaves smallCall]

theorem deposit_isCanonical : deposit.IsCanonical where
  blockDelay := ⟨⟨['3'], rfl, by decide⟩, 3, rfl, by decide⟩
  timeDelay := ⟨⟨['2'], rfl, by decide⟩, 2, rfl, by decide⟩
  value _ := ⟨⟨['1'], rfl, by decide⟩, 1, rfl, by decide⟩
  source _ := ⟨_, rfl, by decide, by decide⟩
  arguments := by
    intro function arguments same
    obtain ⟨rfl, rfl⟩ := Action.call.inj same
    refine ⟨⟨.inl (by decide), 5, rfl, by decide, by decide⟩, ⟨trivial, trivial⟩, trivial, trivial⟩

theorem fill_seeds_deposit :
    deposit.fill (depositReading.step "tx0").seeds "tx0" = .ok deposit ∧
      deposit.lift "tx0" = .ok (depositReading.step "tx0") := by
  have small : deposit.IsCall → ∀ value, readHex deposit.value = .ok value →
      value < Number.wordCount 256 := by
    intro _ value read
    have known : readHex deposit.value = .ok 1 := rfl
    rw [known] at read
    rw [← Except.ok.inj read]
    decide
  obtain ⟨filled, done, lifted, same⟩ :=
    fill_seeds (lift_of_reads deposit_reads "tx0") deposit_isUniform small
  rw [same deposit_isCanonical] at done lifted
  exact ⟨done, lifted⟩

end Record

end FuzzBridge
