import FuzzBridge.Proofs.Encoding.Symbols
import FuzzBridge.Proofs.Record.Leaves
import FuzzBridge.Proofs.Solver.Name

/-!
The variables of a step. No two positions of a step have one in common, every one of them is
declared with its width and a seed, and nothing is declared that no position has.
-/

namespace FuzzBridge

/-- The variables of a call; the origin has none of its own. -/
def Call.symbols (call : Call) : List (Nat × String) :=
  call.data.symbols ++ call.sender.symbols ++ call.value.symbols

/-- The variables of a step, each as often as it occurs. -/
def Step.symbols (step : Step) : List (Nat × String) :=
  step.blockDelay.symbols ++ step.timeDelay.symbols ++
    match step.call with
    | some call => call.symbols
    | none => []

/-- Variables and declarations of a step belong to each other one to one. -/
structure Step.IsSeparated (step : Step) : Prop where
  declared : ∀ bits name, (bits, name) ∈ step.symbols →
    ∃ seed, step.seeds.table.find? name = some ⟨bits, some seed⟩ ∧ seed < Number.wordCount bits
  once : ∀ name ∈ step.seeds.names, (step.symbols.map (·.2)).count name = 1
  origin : ∀ call, step.call = some call → call.origin = call.sender
  gas : ∀ call, step.call = some call → call.gasPrice.symbols = [] ∧ call.gasLimit.symbols = []

namespace CallReading

variable (call : CallReading) (transaction : String)

theorem symbols_valueTerm :
    (call.valueTerm transaction).symbols = (call.valueLeaves transaction).map Leaf.symbol := by
  unfold valueTerm valueLeaves
  split
  · rfl
  · rfl

theorem symbols_toCall_perm :
    (call.toCall transaction).symbols.Perm
      ((call.coreLeaves transaction ++ call.valueLeaves transaction).map Leaf.symbol) := by
  rw [coreLeaves, List.map_append, List.map_append, ← symbols_valueTerm]
  have arguments := Encoding.symbols_callTerms_perm call.function call.types transaction call.values
  exact (arguments.append_right _).append_right _

theorem length_valueLeaves :
    (call.valueLeaves transaction).length = if call.value = 0 then 0 else 1 := by
  unfold valueLeaves
  split
  · rfl
  · rfl

end CallReading

namespace Reading

variable (reading : Reading) (transaction : String)

theorem symbols_step_perm :
    (reading.step transaction).symbols.Perm ((reading.leaves transaction).map Leaf.symbol) := by
  obtain ⟨blockDelay, timeDelay, call⟩ := reading
  cases call with
  | none => exact .refl _
  | some call => exact ((call.symbols_toCall_perm transaction).cons _).cons _

theorem map_name_symbols_step_perm :
    ((reading.step transaction).symbols.map (·.2)).Perm
      ((reading.leaves transaction).map Leaf.name) := by
  have names := (reading.symbols_step_perm transaction).map (·.2)
  rwa [List.map_map] at names

theorem isSeparated_step : (reading.step transaction).IsSeparated where
  declared bits name member := by
    obtain ⟨leaf, hleaf, same⟩ :=
      List.mem_map.1 ((reading.symbols_step_perm transaction).mem_iff.1 member)
    obtain ⟨rfl, rfl⟩ := Prod.mk.inj same
    exact ⟨leaf.seed, Assignment.find?_declare_of_mem (reading.nodup_leaves transaction) hleaf _,
      leaf.fits⟩
  once name member := by
    rw [(reading.map_name_symbols_step_perm transaction).count_eq]
    exact List.count_eq_one_of_mem (reading.nodup_leaves transaction)
      ((mem_names_step name).1 member)
  origin call isCall := by
    obtain ⟨read, -, rfl⟩ := Option.map_eq_some_iff.1 isCall
    rfl
  gas call isCall := by
    obtain ⟨read, -, rfl⟩ := Option.map_eq_some_iff.1 isCall
    exact ⟨rfl, rfl⟩

theorem size_step :
    (reading.step transaction).seeds.size = (reading.step transaction).symbols.length := by
  rw [seeds_step, Assignment.size_declare (reading.nodup_leaves transaction),
    (reading.symbols_step_perm transaction).length_eq, List.length_map]

theorem disjoint_names_step {left right : Reading} {first second : String} (h : first ≠ second) :
    (left.step first).seeds.names.Disjoint (right.step second).seeds.names := by
  intro name inLeft inRight
  obtain ⟨leaf, hleaf, rfl⟩ := List.mem_map.1 ((mem_names_step name).1 inLeft)
  obtain ⟨other, hother, same⟩ := List.mem_map.1 ((mem_names_step leaf.name).1 inRight)
  have place : other.place = leaf.place := Place.name_inj.1 same
  apply h
  rw [← transaction_of_mem_leaves hleaf, ← transaction_of_mem_leaves hother, place]

end Reading

namespace Record

variable {record : Record} {transaction : String} {step : Step}

theorem isSeparated_of_lift (lifted : record.lift transaction = .ok step) : step.IsSeparated := by
  obtain ⟨reading, -, rfl⟩ := lift_eq_ok.1 lifted
  exact reading.isSeparated_step transaction

theorem size_of_lift_wait (lifted : record.lift transaction = .ok step)
    (wait : record.action = .wait) : step.call = none ∧ step.seeds.size = 2 := by
  obtain ⟨⟨blockDelay, timeDelay, call⟩, reads, rfl⟩ := lift_eq_ok.1 lifted
  have action := reads.action
  rw [wait] at action
  cases action
  exact ⟨rfl, Reading.size_step _ transaction⟩

theorem size_of_lift_call (lifted : record.lift transaction = .ok step) {function : String}
    {arguments : List Argument} (isCall : record.action = .call function arguments) :
    ∃ call value, step.call = some call ∧ readHex record.value = .ok value ∧
      step.seeds.size = call.data.variableCount + if value = 0 then 3 else 4 := by
  obtain ⟨⟨blockDelay, timeDelay, call⟩, reads, rfl⟩ := lift_eq_ok.1 lifted
  have action := reads.action
  rw [isCall] at action
  cases action with
  | @call _ _ call readsCall =>
    refine ⟨call.toCall transaction, call.value, rfl, readsCall.value, ?_⟩
    have value : (call.toCall transaction).value.symbols.length =
        if call.value = 0 then 0 else 1 := by
      rw [CallReading.toCall, call.symbols_valueTerm, List.length_map, call.length_valueLeaves]
    rw [Reading.size_step, ← CallData.length_symbols]
    simp only [Step.symbols, Reading.step, Option.map_some, Call.symbols, List.length_append, value]
    simp only [CallReading.toCall, Term.symbols_symbol, List.length_singleton]
    split <;> omega

theorem lift_of_liftFrom {position : Nat} {records : List Record} {steps : List Step}
    (lifted : liftFrom position records = .ok steps) {index : Nat} {step : Step}
    (found : steps[index]? = some step) :
    ∃ record, records[index]? = some record ∧
      record.lift (transactionName (position + index)) = .ok step := by
  induction records generalizing position steps index with
  | nil =>
    obtain rfl := Except.ok.inj lifted
    cases found
  | cons record rest ih =>
    obtain ⟨first, hfirst, afterFirst⟩ := Result.bind_eq_ok.1 lifted
    obtain ⟨others, hothers, steps_eq⟩ := Result.bind_eq_ok.1 afterFirst
    obtain rfl := Result.pure_eq_ok.1 steps_eq
    cases index with
    | zero =>
      obtain rfl := Option.some.inj found
      exact ⟨record, rfl, hfirst⟩
    | succ index =>
      obtain ⟨other, hother, lifted⟩ := ih hothers found
      rw [Nat.add_right_comm, Nat.add_assoc] at lifted
      exact ⟨other, hother, lifted⟩

theorem disjoint_names_of_liftAll {records : List Record} {steps : List Step}
    (lifted : liftAll records = .ok steps) {i j : Nat} (differ : i ≠ j) {left right : Step}
    (atLeft : steps[i]? = some left) (atRight : steps[j]? = some right) :
    left.seeds.names.Disjoint right.seeds.names := by
  obtain ⟨_, -, liftedLeft⟩ := lift_of_liftFrom lifted atLeft
  obtain ⟨_, -, liftedRight⟩ := lift_of_liftFrom lifted atRight
  obtain ⟨readLeft, -, rfl⟩ := lift_eq_ok.1 liftedLeft
  obtain ⟨readRight, -, rfl⟩ := lift_eq_ok.1 liftedRight
  apply Reading.disjoint_names_step
  intro same
  have positions := transactionName_injective same
  omega

end Record

end FuzzBridge
