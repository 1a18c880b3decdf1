import FuzzBridge.Proofs.Record.Leaves
import FuzzBridge.Proofs.Record.Substitution

/-!
What a step does once its variables have values. Filling a record with a model does the same as
giving the values of the model to the variables of the record.
-/

namespace FuzzBridge

structure CallOutcome where
  origin : Nat
  sender : Nat
  value : Nat
  data : List UInt8

structure StepOutcome where
  blockDelay : Nat
  timeDelay : Nat
  call : Option CallOutcome

def Call.outcome (assignment : Assignment) (call : Call) : Except EvalFault CallOutcome := do
  return ⟨← call.origin.eval assignment, ← call.sender.eval assignment,
    ← call.value.eval assignment, ← call.data.concretize assignment⟩

/-- The call data in bytes, and the values of the terms of a step. -/
def Step.outcome (assignment : Assignment) (step : Step) : Except EvalFault StepOutcome := do
  let blockDelay ← step.blockDelay.eval assignment
  let timeDelay ← step.timeDelay.eval assignment
  match step.call with
  | some call => return ⟨blockDelay, timeDelay, some (← call.outcome assignment)⟩
  | none => return ⟨blockDelay, timeDelay, none⟩

/-- The model gives values to declared variables only, each of them a word of the declared width. -/
def Assignment.Respects (model seeds : Assignment) : Prop :=
  ∀ name value, model.value? name = some value →
    ∃ bits, seeds.width? name = some bits ∧ value < Number.wordCount bits

/-- The integer types of the arguments are no wider than a word. -/
def Action.IsNarrow : Action → Prop
  | .call _ arguments => ArgType.AllNarrow (Argument.types arguments)
  | .wait => True

theorem Term.eval_symbol_of_lt {assignment : Assignment} {place : Place} {bits value : Nat}
    (assigned : assignment.valueAt? place = some value) (lt : value < Number.wordCount bits) :
    (symbol bits place.name).eval assignment = .ok value := by
  rw [eval_symbol assigned, Number.mask_of_lt lt]

theorem CallReading.eval_valueTerm {call : CallReading} {transaction : String}
    {assignment : Assignment} {value : Nat} (zero : call.value = 0 → value = 0)
    (assigned : call.value ≠ 0 →
      assignment.valueAt? (.ofField transaction .value) = some (Number.mask value 256)) :
    (call.valueTerm transaction).eval assignment = .ok (Number.mask value 256) := by
  unfold valueTerm
  split
  · next none => rw [zero none, Term.eval_word]
  · next some => rw [Term.eval_symbol_of_lt (assigned some) (Number.mask_lt value 256)]

theorem CallReading.outcome_toCall {call : CallReading} {transaction : String}
    {assignment : Assignment} {sender value : Nat} {data : List UInt8}
    (hsender : (Term.symbol 160 (Place.ofField transaction .sender).name).eval assignment =
      .ok sender)
    (hvalue : (call.valueTerm transaction).eval assignment = .ok value)
    (hdata : (call.data transaction).concretize assignment = .ok data) :
    (call.toCall transaction).outcome assignment = .ok ⟨sender, sender, value, data⟩ := by
  unfold toCall Call.outcome
  rw [hsender, hvalue, hdata]
  rfl

theorem CallReading.exists_outcome {call filled : CallReading} {model : Assignment}
    {transaction : String} (isFilled : call.IsFilled model transaction filled)
    (narrow : ArgType.AllNarrow call.types) {own solved : Assignment}
    (hown : ∀ leaf ∈ call.coreLeaves transaction,
      own.valueAt? leaf.place = some (leaf.fill model).seed)
    (hsolved : ∀ leaf ∈ call.coreLeaves transaction,
      solved.valueAt? leaf.place = some (leaf.fill model).seed)
    (zero : call.value = 0 → filled.value = 0)
    (sent : filled.value ≠ 0 →
      own.valueAt? (.ofField transaction .value) = some (Number.mask filled.value 256))
    (sent' : call.value ≠ 0 →
      solved.valueAt? (.ofField transaction .value) = some (Number.mask filled.value 256)) :
    ∃ outcome, (filled.toCall transaction).outcome own = .ok outcome ∧
      (call.toCall transaction).outcome solved = .ok outcome := by
  have arguments : ∀ leaf ∈ call.argumentLeaves transaction, leaf ∈ call.coreLeaves transaction :=
    fun leaf member => List.mem_append_left _ member
  have sender : call.senderLeaf transaction ∈ call.coreLeaves transaction :=
    List.mem_append_right _ List.mem_cons_self
  have lt := ((call.senderLeaf transaction).fill model).fits
  have senderOwn := hown _ sender
  have senderSolved := hsolved _ sender
  rw [Leaf.bits_fill, bits_senderLeaf] at lt
  rw [place_senderLeaf] at senderOwn senderSolved
  have agree : ∀ term ∈ (call.data transaction).parts, term.eval own = term.eval solved :=
    fun term member => Encoding.eval_congr (Encoding.isTermOf_callTerms member) fun leaf h => by
      rw [hown leaf (arguments leaf h), hsolved leaf (arguments leaf h)]
  have concrete := Encoding.concretize_callTerms narrow
    (fun leaf h => by rw [hown leaf (arguments leaf h)]; rfl) call.function
  have concrete' := (CallData.concretizeParts_congr agree).symm.trans concrete
  refine ⟨_, outcome_toCall (Term.eval_symbol_of_lt senderOwn lt) (eval_valueTerm id sent) ?_,
    outcome_toCall (Term.eval_symbol_of_lt senderSolved lt) (eval_valueTerm zero sent') concrete'⟩
  rw [isFilled.data]
  exact concrete

theorem Reading.outcome_step {reading : Reading} {transaction : String} {assignment : Assignment}
    {outcome : StepOutcome}
    (hblock : (Term.symbol 256 (Place.ofField transaction .blockDelay).name).eval assignment =
      .ok outcome.blockDelay)
    (htime : (Term.symbol 256 (Place.ofField transaction .timeDelay).name).eval assignment =
      .ok outcome.timeDelay)
    (hcall : Option.Rel
      (fun call outcome => (call.toCall transaction).outcome assignment = .ok outcome)
      reading.call outcome.call) :
    (reading.step transaction).outcome assignment = .ok outcome := by
  obtain ⟨blockDelay, timeDelay, call⟩ := reading
  obtain ⟨blockDelay', timeDelay', call'⟩ := outcome
  unfold step Step.outcome
  rw [hblock, htime]
  cases hcall with
  | none => rfl
  | some h =>
    simp only [Option.map_some, h]
    rfl

namespace Reading

variable {reading filled : Reading} {transaction : String} {model : Assignment}

theorem room_of_respects (respects : model.Respects (reading.step transaction).seeds) {leaf : Leaf}
    (member : leaf ∈ reading.leaves transaction) : leaf.HasRoomFor model := by
  intro value assigned
  obtain ⟨bits, width, lt⟩ := respects _ _ assigned
  rw [seeds_step, ← Leaf.name,
    Assignment.width?_declare_of_mem (reading.nodup_leaves transaction) member] at width
  rw [Option.some.inj width]
  exact lt

theorem valueAt?_step {leaf : Leaf} (member : leaf ∈ reading.leaves transaction) :
    (reading.step transaction).seeds.valueAt? leaf.place = some leaf.seed := by
  rw [seeds_step, Assignment.holds_declare (reading.nodup_leaves transaction) _ leaf member]

theorem valueAt?_override {leaf : Leaf} (member : leaf ∈ reading.leaves transaction)
    (respects : model.Respects (reading.step transaction).seeds) :
    ((reading.step transaction).seeds.override model).valueAt? leaf.place =
      some (leaf.fill model).seed := by
  rw [seeds_step, Assignment.valueAt?_override_declare (reading.nodup_leaves transaction) member
    (room_of_respects respects member)]

theorem value?_eq_none_of_respects (respects : model.Respects (reading.step transaction).seeds)
    {name : String} (undeclared : name ∉ (reading.step transaction).seeds.names) :
    model.value? name = none := by
  rw [← Option.not_isSome_iff_eq_none, Option.isSome_iff_exists]
  rintro ⟨value, assigned⟩
  obtain ⟨bits, width, -⟩ := respects name value assigned
  obtain ⟨entry, found, -⟩ := Option.map_eq_some_iff.1 width
  exact undeclared ((Table.mem_keys_iff _ _).2 (by rw [found]; rfl))

theorem valueAt?_value {call : CallReading} (isCall : reading.call = some call)
    (sends : call.value ≠ 0) :
    (reading.step transaction).seeds.valueAt? (.ofField transaction .value) =
      some (Number.mask call.value 256) := by
  rw [← call.place_valueLeaf transaction, valueAt?_step (valueLeaf_mem isCall sends)]
  rfl

theorem valueAt?_override_value {call filled : CallReading} (isCall : reading.call = some call)
    (callFilled : call.IsFilled model transaction filled)
    (respects : model.Respects (reading.step transaction).seeds) (sends : call.value ≠ 0) :
    ((reading.step transaction).seeds.override model).valueAt? (.ofField transaction .value) =
      some (Number.mask filled.value 256) := by
  rw [← call.place_valueLeaf transaction, valueAt?_override (valueLeaf_mem isCall sends) respects,
    CallReading.valueLeaf, Leaf.fill_ofValue, ← callFilled.value]
  rfl

theorem value_filled_eq_zero {call filled : CallReading} (isCall : reading.call = some call)
    (callFilled : call.IsFilled model transaction filled)
    (respects : model.Respects (reading.step transaction).seeds) (zero : call.value = 0) :
    filled.value = 0 := by
  have undeclared :
      (Place.ofField transaction .value).name ∉ (reading.step transaction).seeds.names := by
    rw [value_mem_names_step]
    rintro ⟨other, isOther, sends⟩
    rw [isCall] at isOther
    exact sends (Option.some.inj isOther ▸ zero)
  rw [callFilled.value, Assignment.valueAt?, value?_eq_none_of_respects respects undeclared]
  exact zero

theorem valueAt?_filled
    (leaves : filled.coreLeaves transaction =
      (reading.coreLeaves transaction).map (Leaf.fill model))
    (respects : model.Respects (reading.step transaction).seeds) {leaf : Leaf}
    (member : leaf ∈ reading.coreLeaves transaction) :
    (filled.step transaction).seeds.valueAt? leaf.place = some (leaf.fill model).seed ∧
    ((reading.step transaction).seeds.override model).valueAt? leaf.place =
      some (leaf.fill model).seed := by
  have member' : leaf.fill model ∈ filled.coreLeaves transaction := by
    rw [leaves]
    exact List.mem_map_of_mem member
  refine ⟨?_, valueAt?_override (coreLeaves_subset member) respects⟩
  rw [← Leaf.place_fill model leaf]
  exact valueAt?_step (coreLeaves_subset member')

section

variable (isFilled : reading.IsFilled model transaction filled)
  (leaves : filled.coreLeaves transaction = (reading.coreLeaves transaction).map (Leaf.fill model))
  (respects : model.Respects (reading.step transaction).seeds)
  (narrow : ∀ call, reading.call = some call → ArgType.AllNarrow call.types)

include isFilled leaves respects narrow

theorem exists_outcome_call :
    ∃ outcome,
      Option.Rel (fun call outcome =>
        (call.toCall transaction).outcome (filled.step transaction).seeds = .ok outcome)
        filled.call outcome ∧
      Option.Rel (fun call outcome => (call.toCall transaction).outcome
        ((reading.step transaction).seeds.override model) = .ok outcome) reading.call outcome := by
  rcases isFilled.call_cases with ⟨isWait, isWait'⟩ | ⟨call, call', isCall, isCall', callFilled⟩
  · rw [isWait, isWait']
    exact ⟨none, .none, .none⟩
  · obtain ⟨outcome, own, solved⟩ := CallReading.exists_outcome callFilled (narrow call isCall)
      (fun leaf member => (valueAt?_filled leaves respects (callLeaf_mem isCall member)).1)
      (fun leaf member => (valueAt?_filled leaves respects (callLeaf_mem isCall member)).2)
      (value_filled_eq_zero isCall callFilled respects) (valueAt?_value isCall')
      (valueAt?_override_value isCall callFilled respects)
    rw [isCall, isCall']
    exact ⟨some outcome, .some own, .some solved⟩

/-- The filled step under its own seeds does what the step does with the values of the model. -/
theorem exists_outcome :
    ∃ outcome,
      (filled.step transaction).outcome (filled.step transaction).seeds = .ok outcome ∧
      (reading.step transaction).outcome ((reading.step transaction).seeds.override model) =
        .ok outcome := by
  obtain ⟨call, callOwn, callSolved⟩ := exists_outcome_call isFilled leaves respects narrow
  have block := ((reading.blockLeaf transaction).fill model).fits
  have time := ((reading.timeLeaf transaction).fill model).fits
  obtain ⟨blockOwn, blockSolved⟩ := valueAt?_filled leaves respects blockLeaf_mem
  obtain ⟨timeOwn, timeSolved⟩ := valueAt?_filled leaves respects timeLeaf_mem
  rw [Leaf.bits_fill, bits_blockLeaf] at block
  rw [Leaf.bits_fill, bits_timeLeaf] at time
  rw [place_blockLeaf] at blockOwn blockSolved
  rw [place_timeLeaf] at timeOwn timeSolved
  let outcome : StepOutcome := ⟨((reading.blockLeaf transaction).fill model).seed,
    ((reading.timeLeaf transaction).fill model).seed, call⟩
  refine ⟨outcome, outcome_step ?_ ?_ callOwn, outcome_step ?_ ?_ callSolved⟩
  · exact Term.eval_symbol_of_lt blockOwn block
  · exact Term.eval_symbol_of_lt timeOwn time
  · exact Term.eval_symbol_of_lt blockSolved block
  · exact Term.eval_symbol_of_lt timeSolved time

end

end Reading

end FuzzBridge
