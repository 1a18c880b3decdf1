import FuzzBridge.Proofs.Corpus.RoundTrip
import FuzzBridge.Proofs.Record.Variables

/-!
The variables of a whole entry: each step keeps its own apart, and no two steps share one.
-/

namespace FuzzBridge.Corpus

variable {storage : Storage} {path : String}

theorem loadEntry_eq_ok {steps : List Step} :
    loadEntry storage path = .ok steps ↔
      ∃ records, readEntry storage path = .ok records ∧ Record.liftAll records = .ok steps :=
  Result.bind_eq_ok

/-- No variable stands for two things. In the step of a record, every variable that occurs is
declared with its width and a seed of that width, and every declared one occurs exactly once in the
call data, the sender, the value and the delays together; so there are as many as these have. Steps
of an entry have no variable in common. -/
theorem steps_separate_variables :
    (∀ (record : Record) transaction step, record.lift transaction = .ok step →
      step.IsSeparated ∧
      (record.action = .wait → step.call = none ∧ step.seeds.size = 2) ∧
      (∀ function arguments, record.action = .call function arguments →
        ∃ call value, step.call = some call ∧ readHex record.value = .ok value ∧
          step.seeds.size = call.data.variableCount + if value = 0 then 3 else 4)) ∧
      (∀ storage path steps, loadEntry storage path = .ok steps →
        ∀ (i j : Nat) (left right : Step), i ≠ j → steps[i]? = some left → steps[j]? = some right →
          left.seeds.names.Disjoint right.seeds.names) := by
  constructor
  · intro record transaction step lifted
    exact ⟨Record.isSeparated_of_lift lifted, Record.size_of_lift_wait lifted,
      fun _ _ => Record.size_of_lift_call lifted⟩
  · intro storage path steps loaded i j left right differ atLeft atRight
    obtain ⟨records, -, lifted⟩ := loadEntry_eq_ok.1 loaded
    exact Record.disjoint_names_of_liftAll lifted differ atLeft atRight

def twice : Storage :=
  unused.put "twice.txt" (Text.encode (Record.listToText [Record.deposit, Record.deposit]))

theorem loadEntry_twice :
    loadEntry twice "twice.txt" =
      .ok [Record.depositReading.step "tx0", Record.depositReading.step "tx1"] := by
  have read : twice.read "twice.txt" =
      .ok (Text.encode (Record.listToText [Record.deposit, Record.deposit])) := by rfl
  have back := Record.readsBack_of_depth
    (by decide : (Record.listToJson [Record.deposit, Record.deposit]).depth ≤ Json.depthLimit)
  have first := Record.lift_of_reads Record.deposit_reads (transactionName 0)
  have second := Record.lift_of_reads Record.deposit_reads (transactionName 1)
  refine loadEntry_eq_ok.2 ⟨_, readEntry_of_read read back, ?_⟩
  simp only [Record.liftAll, Record.liftFrom, first, second]
  rfl

theorem steps_separate_variables_twice :
    (Record.depositReading.step "tx0").IsSeparated ∧
      (Record.depositReading.step "tx0").seeds.size = 8 ∧
      (Record.depositReading.step "tx0").seeds.names.Disjoint
        (Record.depositReading.step "tx1").seeds.names := by
  obtain ⟨alone, together⟩ := steps_separate_variables
  obtain ⟨separated, -, size⟩ :=
    alone _ _ _ (Record.lift_of_reads Record.deposit_reads "tx0")
  obtain ⟨call, value, isCall, read, size⟩ := size _ _ rfl
  obtain rfl := Option.some.inj isCall
  obtain rfl := Except.ok.inj read
  exact ⟨separated, size, together _ _ _ loadEntry_twice 0 1 _ _ (by decide) rfl rfl⟩

end FuzzBridge.Corpus
