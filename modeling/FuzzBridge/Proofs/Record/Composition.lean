import FuzzBridge.Proofs.Argument.Composition
import FuzzBridge.Proofs.Record.WriteBack

/-!
Models written into a record one after the other do what their merge does at once.
-/

namespace FuzzBridge.Record

variable {merged first second : Assignment}

theorem fillField_fillField (merge : merged.IsMerge first second) (transaction : String)
    (field : Field) (shown : Nat → String) (old : String) :
    fillField second transaction field shown (fillField first transaction field shown old) =
      fillField merged transaction field shown old := by
  have here : merged.valueAt? (.ofField transaction field) =
      (second.valueAt? (.ofField transaction field)).or
        (first.valueAt? (.ofField transaction field)) :=
    merge _
  unfold fillField
  rw [here]
  cases second.valueAt? (.ofField transaction field) with
  | some value => rfl
  | none => rw [Option.none_or]

theorem action_substitute_substitute (merge : merged.IsMerge first second) (transaction : String)
    (action : Action) :
    (action.substitute first transaction).substitute second transaction =
      action.substitute merged transaction := by
  cases action with
  | wait => rfl
  | call function arguments =>
    exact congrArg (Action.call function) (Argument.substituteAll_substituteAll
      (fun argument _ => Argument.substitute_substitute merge argument) _ 0)

theorem substitute_substitute (merge : merged.IsMerge first second) (transaction : String)
    (record : Record) :
    (record.substitute first transaction).substitute second transaction =
      record.substitute merged transaction := by
  simp only [substitute, action_substitute_substitute merge, fillField_fillField merge]

theorem isFillable_merge (merge : merged.IsMerge first second) (transaction : String)
    (action : Action) :
    action.IsFillable merged transaction ↔
      action.IsFillable first transaction ∧
        (action.substitute first transaction).IsFillable second transaction := by
  cases action with
  | wait => exact ⟨fun _ => ⟨trivial, trivial⟩, fun _ => trivial⟩
  | call function arguments =>
    simp only [Action.IsFillable, Action.substitute]
    rw [Argument.allFillable_merge fun argument _ => Argument.isFillable_merge merge argument,
      Argument.allFillable_substituteAll fun argument _ => Argument.isFillable_substitute argument]

theorem fill_fill_eq_ok (merge : merged.IsMerge first second) {record result : Record}
    {transaction : String} :
    (record.fill first transaction >>= fun filled => filled.fill second transaction) = .ok result ↔
      record.fill merged transaction = .ok result := by
  rw [Result.bind_eq_ok, fill_eq_ok, isFillable_merge merge]
  constructor
  · rintro ⟨filled, once, twice⟩
    obtain ⟨fillable, rfl⟩ := fill_eq_ok.1 once
    obtain ⟨fillable', rfl⟩ := fill_eq_ok.1 twice
    exact ⟨⟨fillable, fillable'⟩, (substitute_substitute merge transaction record).symm⟩
  · rintro ⟨⟨fillable, fillable'⟩, rfl⟩
    exact ⟨_, fill_eq_ok.2 ⟨fillable, rfl⟩,
      fill_eq_ok.2 ⟨fillable', substitute_substitute merge transaction record⟩⟩

/-- Two models one after the other fill a record if and as their merge does, in which the later one
counts. So a model that is written a second time changes nothing. -/
theorem fill_composes (record : Record) (transaction : String) :
    (∀ first second merged : Assignment, merged.IsMerge first second → ∀ result,
      (record.fill first transaction >>= fun filled => filled.fill second transaction) =
          .ok result ↔
        record.fill merged transaction = .ok result) ∧
      ∀ (model : Assignment) (filled : Record), record.fill model transaction = .ok filled →
        filled.fill model transaction = .ok filled := by
  constructor
  · intro first second merged merge result
    exact fill_fill_eq_ok merge
  · intro model filled done
    obtain ⟨again, once, twice⟩ :=
      Result.bind_eq_ok.1 ((fill_fill_eq_ok model.isMerge_self).2 done)
    rw [done] at once
    obtain rfl := Except.ok.inj once
    exact twice

/-- The second model looks into a byte string that the first one leaves alone. -/
theorem fill_composes_deposit :
    (depositModel.set "tx0_arg2_1" 79 8).IsMerge depositModel
        (Assignment.empty.set "tx0_arg2_1" 79 8) ∧
      (deposit.fill depositModel "tx0" >>= fun filled =>
          filled.fill (Assignment.empty.set "tx0_arg2_1" 79 8) "tx0") =
        .ok { deposit with
          action := .call "deposit" [.uint 8 "7", .array .bool [.bool true], .bytes "hO"]
          value := "0x0" } := by
  have merge := Assignment.isMerge_set depositModel "tx0_arg2_1" 79 8
  exact ⟨merge, ((fill_composes deposit "tx0").1 _ _ _ merge _).2 rfl⟩

end FuzzBridge.Record
