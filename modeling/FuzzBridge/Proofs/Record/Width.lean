import FuzzBridge.Proofs.Json.Draft
import FuzzBridge.Proofs.Record.WriteBack
import FuzzBridge.Proofs.Solver.Width

/-!
The words of a record as a model leaves them. They are written as the model has them, so they are
below the number of words just as far as the values of the model are.
-/

namespace FuzzBridge.Record

/-- The fields that are a word each. -/
def words (record : Record) : List (Field × String) :=
  [(.blockDelay, record.blockDelay), (.timeDelay, record.timeDelay), (.value, record.value)]

theorem readHex_of_mem_words {record filled : Record} {model : Assignment} {transaction : String}
    (done : record.fill model transaction = .ok filled) {word : Field × String}
    (member : word ∈ filled.words) {number : Nat}
    (assigned : model.valueAt? (.ofField transaction word.1) = some number) :
    readHex word.2 = .ok number := by
  obtain ⟨-, rfl⟩ := fill_eq_ok.1 done
  have written {field : Field} (old : String)
      (given : model.valueAt? (.ofField transaction field) = some number) :
      readHex (fillField model transaction field Number.toHex old) = .ok number := by
    rw [fillField, given, readHex_toHex]
  simp only [words, List.mem_cons, List.not_mem_nil, or_false] at member
  rcases member with rfl | rfl | rfl
  · exact written record.blockDelay assigned
  · exact written record.timeDelay assigned
  · exact written record.value assigned

/-- An assignment that variables were entered into fits its widths. A model that was read from an
answer has words only, and it fits if and only if the answer gives no number that is too large for
one. What is written into the words of a record are the numbers of the model, which are words if the
model fits and declares no more than a word. -/
theorem values_fit_widths (model : Assignment) :
    (∀ edits, Assignment.ofEdits edits = model → model.IsFitting) ∧
      (∀ text, Model.ofText text = .ok (some model) →
        ∃ members, Json.parse? text = some (.object members) ∧
          (∀ name bits, model.width? name = some bits → bits = 256) ∧
          (model.IsFitting ↔ ∀ member ∈ (Json.fields members).entries, ∀ number,
            Model.value member.1 member.2 = .ok (some number) → number < Number.wordCount 256)) ∧
      ∀ (record filled : Record) (transaction : String),
        record.fill model transaction = .ok filled → ∀ word ∈ filled.words, ∀ number,
          model.valueAt? (.ofField transaction word.1) = some number →
          readHex word.2 = .ok number ∧
            (model.IsFitting → ∀ bits,
              model.width? (Place.ofField transaction word.1).name = some bits → bits ≤ 256 →
              number < Number.wordCount 256) := by
  refine ⟨?_, ?_, ?_⟩
  · rintro edits rfl
    exact Assignment.isFitting_ofEdits edits
  · intro text read
    obtain ⟨members, parsed, aligned⟩ := Model.isRead_of_ofText read
    exact ⟨members, parsed, fun _ _ => Model.width?_of_isRead aligned,
      Model.isFitting_iff_of_isRead aligned⟩
  · intro record filled transaction done word member number assigned
    refine ⟨readHex_of_mem_words done member assigned, fun fitting bits wide narrow => ?_⟩
    exact Nat.lt_of_lt_of_le (fitting.lt_of_value? assigned wide) (Number.wordCount_le narrow)

def wideAnswer : String :=
  "\x7b\"tx0_value\":\"0x10000000000000000000000000000000000000000000000000000000000000005\"\x7d"

def wideMembers : List (String × Json) :=
  [("tx0_value", .text (Number.toHex (Number.wordCount 256 + 5)))]

def wideModel : Assignment :=
  ⟨Table.ofList [("tx0_value", ⟨256, some (Number.wordCount 256 + 5)⟩)]⟩

theorem parse?_wideAnswer : Json.parse? wideAnswer = some (.object wideMembers) := by
  have printed : wideAnswer = (Json.object wideMembers).render := rfl
  have plain : (Json.object wideMembers).IsPlain := ⟨trivial, trivial⟩
  rw [Json.parse?, printed, Json.Document.ofText_render plain]
  rfl

/-- A model keeps a number of 257 bits for a word, and this is what the transaction then sends. -/
theorem wide_model_does_not_fit :
    Model.ofText wideAnswer = .ok (some wideModel) ∧ ¬ wideModel.IsFitting ∧
      ∃ filled, deposit.fill wideModel "tx0" = .ok filled ∧
        readHex filled.value = .ok (Number.wordCount 256 + 5) := by
  refine ⟨?_, ?_, _, rfl, readHex_toHex _⟩
  · rw [Model.ofText, parse?_wideAnswer]
    rfl
  · intro fitting
    have small := fitting ("tx0_value", ⟨256, some (Number.wordCount 256 + 5)⟩) List.mem_cons_self
    exact absurd (small _ rfl) (Nat.not_lt.2 (Nat.le_add_right _ 5))

end FuzzBridge.Record
