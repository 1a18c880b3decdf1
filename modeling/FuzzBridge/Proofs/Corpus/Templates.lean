import FuzzBridge.Corpus.Templates
import FuzzBridge.Proofs.Encoding.RoundTrip
import FuzzBridge.Proofs.Record.Reading
import FuzzBridge.Proofs.Record.Signature

/-!
Templates are first come, first served: the template for a signature is the first record that was
added with it. The call data of a record begins with the selector of its signature.
-/

namespace FuzzBridge

namespace Templates

variable {templates : Templates} {records : List Record} {record : Record} {key : String}

/-- Whether a record is a call with a signature. -/
def calls (key : String) (record : Record) : Bool := record.signature? == some key

theorem find?_add :
    (templates.add record).find? key =
      (templates.find? key).or (if calls key record then some record else none) := by
  unfold add calls
  split
  · next unnamed => simp [unnamed]
  · next signature named =>
    rw [named, Table.contains]
    by_cases same : key = signature
    · subst same
      split
      · next known =>
        obtain ⟨old, known⟩ := Option.isSome_iff_exists.1 known
        rw [known, Option.some_or]
      · next unknown =>
        rw [Option.not_isSome_iff_eq_none.1 unknown, Table.find?_insert_self]
        simp
    · have differ : (some signature == some key) = false := by simpa using Ne.symm same
      rw [differ, if_neg Bool.false_ne_true, Option.or_none]
      split
      · rfl
      · exact Table.find?_insert_of_ne templates same record

/-- What has a template keeps it, and otherwise the first that is added is taken. -/
theorem find?_addAll :
    (templates.addAll records).find? key =
      (templates.find? key).or (records.find? (calls key)) := by
  rw [addAll]
  induction records generalizing templates with
  | nil => simp
  | cons record rest ih =>
    rw [List.foldl_cons, ih, find?_add, Option.or_assoc, List.find?_cons]
    cases calls key record <;> simp

theorem find?_empty_addAll : (empty.addAll records).find? key = records.find? (calls key) := by
  rw [find?_addAll]
  exact Option.none_or

theorem records?_eq_some {graph : Graph} {sequence : List Nat} :
    templates.records? graph sequence = some records ↔
      List.Forall₂ (fun node record => templates.find? (graph.signature node) = some record)
        sequence records := by
  rw [records?]
  induction sequence generalizing records with
  | nil =>
    rw [List.forall₂_nil_left_iff]
    simp [eq_comm]
  | cons node rest ih =>
    rw [List.mapM_cons, List.forall₂_cons_left_iff]
    simp only [Option.bind_eq_bind, Option.bind_eq_some_iff, Option.pure_def, Option.some_inj, ih]
    constructor
    · rintro ⟨first, known, others, each, rfl⟩
      exact ⟨first, others, known, each, rfl⟩
    · rintro ⟨first, others, known, each, rfl⟩
      exact ⟨first, known, others, each, rfl⟩

end Templates

namespace Record

/-- The call data of a record begins with the selector of its signature. -/
theorem head?_parts_of_lift {record : Record} {signature transaction : String} {step : Step}
    (named : record.signature? = some signature) (lifted : record.lift transaction = .ok step) :
    ∃ call, step.call = some call ∧ call.data.parts.head? =
      some (.constant 32 (Decoder.number (Encoding.selector signature))) := by
  obtain ⟨function, arguments, isCall, rfl⟩ := signature?_eq_some.1 named
  obtain ⟨reading, reads, rfl⟩ := lift_eq_ok.1 lifted
  have action := reads.action
  rw [isCall] at action
  generalize called : reading.call = call? at action
  cases action with
  | call reads =>
    next call =>
    refine ⟨call.toCall transaction, by rw [Reading.step, called]; rfl, ?_⟩
    rw [← reads.function, ← reads.types]
    exact congrArg (some ∘ Term.constant 32)
      (Number.mask_of_lt (Encoding.number_selector_lt (ArgType.signature call.function call.types)))

end Record

end FuzzBridge
