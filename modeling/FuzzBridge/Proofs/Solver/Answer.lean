import FuzzBridge.Proofs.Json.Draft
import FuzzBridge.Proofs.Json.Limits
import FuzzBridge.Proofs.Json.Number
import FuzzBridge.Proofs.Number.Grammar
import FuzzBridge.Proofs.Number.Word
import FuzzBridge.Proofs.Solver.Scope
import FuzzBridge.Proofs.Solver.Width

/-!
The grammar of answers. An answer has a model if and only if the last value of each name denotes a
number or leaves the name free, and the model has just these numbers.
-/

namespace FuzzBridge.Model

/-- The number that a value of an answer stands for; `null` stands for none and leaves its name
free. -/
inductive Denotes : Json → Option Nat → Prop
  | free : Denotes .null none
  | whole {value : Nat} (fits : value < Nat.pow 2 64) :
      Denotes (.number (.natural value)) (some value)
  | zero {text : String} (marked : Number.IsMarked text.toList []) : Denotes (.text text) (some 0)
  | hexadecimal {text : String} {digits : List Char} {value : Nat}
      (marked : Number.IsMarked text.toList digits) (spelled : Number.IsNatural 16 digits value) :
      Denotes (.text text) (some value)
  | decimal {text : String} {body : List Char} {value : Nat}
      (unmarked : ∀ digits, ¬ Number.IsMarked text.toList digits)
      (padded : Number.IsPadded text.toList body) (spelled : Number.IsInteger 10 body value) :
      Denotes (.text text) (some value)

/-- The last value of each name denotes something. -/
def IsAnswer (members : List (String × Json)) : Prop :=
  ∀ name json, Table.IsLast members name json → ∃ number, Denotes json number

/-- The names of the model are those of the object, all of them declared as words. A name has the
number that its last value denotes, and no value if that one is `null`. -/
structure IsOf (model : Assignment) (members : List (String × Json)) : Prop where
  names : ∀ name, name ∈ model.names ↔ ∃ json, (name, json) ∈ members
  declared : ∀ name entry, model.table.find? name = some entry ↔
    entry.bits = 256 ∧ ∃ json, Table.IsLast members name json ∧ Denotes json entry.value
  assigned : ∀ name number, model.value? name = some number ↔
    ∃ json, Table.IsLast members name json ∧ Denotes json (some number)
  below : ∀ place, model.assignsUnder place = true ↔
    ∃ name json number,
      place.Covers name ∧ Table.IsLast members name json ∧ Denotes json (some number)

/-! One value. -/

theorem hasBaseMark_iff {text : String} :
    hasBaseMark text = true ↔ ∃ digits, Number.IsMarked text.toList digits := by
  unfold hasBaseMark
  split
  · next digits same => exact ⟨fun _ => ⟨digits, .inl same⟩, fun _ => rfl⟩
  · next digits same => exact ⟨fun _ => ⟨digits, .inr same⟩, fun _ => rfl⟩
  · next lower upper =>
    refine ⟨nofun, ?_⟩
    rintro ⟨digits, same | same⟩
    · exact absurd same (lower digits)
    · exact absurd same (upper digits)

theorem value_eq_ok_of_marked {name text : String} {digits : List Char} {number : Option Nat}
    (marked : Number.IsMarked text.toList digits) :
    value name (.text text) = .ok number ↔
      ∃ value, (digits = [] ∧ value = 0 ∨ Number.IsNatural 16 digits value) ∧
        some value = number := by
  rw [value, if_pos (hasBaseMark_iff.2 ⟨digits, marked⟩), Result.map_eq_ok]
  simp only [readHex_eq_ok, Number.ofHex?_eq_some marked]

theorem value_eq_ok_of_unmarked {name text : String} {number : Option Nat}
    (unmarked : ∀ digits, ¬ Number.IsMarked text.toList digits) :
    value name (.text text) = .ok number ↔
      ∃ value : Nat, (∃ body, Number.IsPadded text.toList body ∧ Number.IsInteger 10 body value) ∧
        some value = number := by
  have plain : ¬ hasBaseMark text = true := by
    rw [hasBaseMark_iff]
    exact not_exists.2 unmarked
  rw [value, if_neg plain, Result.bind_eq_ok]
  constructor
  · rintro ⟨integer, read, after⟩
    split at after
    · next value known =>
      obtain rfl := Number.unsigned?_eq_some.1 known
      exact ⟨value, Number.ofDecimal?_eq_some.1 (readDecimal_eq_ok.1 read),
        Result.pure_eq_ok.1 after⟩
    · cases after
  · rintro ⟨value, spelled, rfl⟩
    refine ⟨value, readDecimal_eq_ok.2 (Number.ofDecimal?_eq_some.2 spelled), ?_⟩
    rw [Number.unsigned?_eq_some.2 rfl]
    rfl

theorem Denotes.value_eq {json : Json} {number : Option Nat} (denotes : Denotes json number)
    (name : String) : value name json = .ok number := by
  cases denotes with
  | free => rfl
  | whole fits => rfl
  | zero marked => exact (value_eq_ok_of_marked marked).2 ⟨0, .inl ⟨rfl, rfl⟩, rfl⟩
  | hexadecimal marked spelled => exact (value_eq_ok_of_marked marked).2 ⟨_, .inr spelled, rfl⟩
  | decimal unmarked padded spelled =>
    exact (value_eq_ok_of_unmarked unmarked).2 ⟨_, ⟨_, padded, spelled⟩, rfl⟩

/-- Whole numbers of a text fit 64 bits, and then the values that are read are those that denote
something. -/
theorem value_eq_ok {name : String} {json : Json} {number : Option Nat}
    (fits : ∀ value, json = .number (.natural value) → value < Nat.pow 2 64) :
    value name json = .ok number ↔ Denotes json number := by
  refine ⟨fun read => ?_, fun denotes => denotes.value_eq name⟩
  cases json with
  | null =>
    obtain rfl : none = number := Except.ok.inj read
    exact .free
  | number numeral =>
    -- Minus zero and what does not fit 64 bits are doubles, and so are not read.
    cases numeral with
    | natural value =>
      obtain rfl : some value = number := Except.ok.inj read
      exact .whole (fits value rfl)
    | negative magnitude => cases read
    | double value => cases read
  | text text =>
    by_cases based : ∃ digits, Number.IsMarked text.toList digits
    · obtain ⟨digits, marked⟩ := based
      obtain ⟨value, ⟨rfl, rfl⟩ | spelled, rfl⟩ := (value_eq_ok_of_marked marked).1 read
      · exact .zero marked
      · exact .hexadecimal marked spelled
    · have unmarked := not_exists.1 based
      obtain ⟨value, ⟨body, padded, spelled⟩, rfl⟩ := (value_eq_ok_of_unmarked unmarked).1 read
      exact .decimal unmarked padded spelled
  | bool value => cases read
  | array items => cases read
  | object members => cases read

/-! Failures. -/

def OnlyUnsupported {α : Type} (result : Result α) : Prop :=
  ∀ fault, result = .error fault → ∃ cause, fault = .unsupported cause

namespace OnlyUnsupported

variable {α β : Type}

theorem ok (value : α) : OnlyUnsupported (.ok value) := nofun

theorem unsupported (cause : Unsupported) :
    OnlyUnsupported (.error (.unsupported cause) : Result α) :=
  fun _ same => ⟨cause, (Except.error.inj same).symm⟩

theorem bind {attempt : Result α} {next : α → Result β} (first : OnlyUnsupported attempt)
    (second : ∀ value, OnlyUnsupported (next value)) : OnlyUnsupported (attempt >>= next) := by
  cases attempt with
  | ok value => exact second value
  | error fault =>
    intro other same
    exact first other (congrArg Except.error (Except.error.inj same))

theorem map {attempt : Result α} {change : α → β} (inner : OnlyUnsupported attempt) :
    OnlyUnsupported (change <$> attempt) := by
  rw [map_eq_pure_bind]
  exact inner.bind fun _ => ok _

theorem readHex (text : String) : OnlyUnsupported (readHex text) := by
  unfold FuzzBridge.readHex
  split
  · exact ok _
  · exact unsupported _

theorem readDecimal (text : String) : OnlyUnsupported (readDecimal text) := by
  unfold FuzzBridge.readDecimal
  split
  · exact ok _
  · exact unsupported _

end OnlyUnsupported

theorem onlyUnsupported_value (name : String) (json : Json) :
    OnlyUnsupported (value name json) := by
  unfold value
  split
  · exact .ok _
  · exact .ok _
  · exact .unsupported _
  · split
    · exact (OnlyUnsupported.readHex _).map
    · refine (OnlyUnsupported.readDecimal _).bind fun integer => ?_
      split
      · exact .ok _
      · exact .unsupported _
  · exact .unsupported _

theorem onlyUnsupported_readVariables (members : List (String × Json)) :
    OnlyUnsupported (readVariables members) := by
  induction members with
  | nil => exact .ok _
  | cons member rest ih =>
    exact (onlyUnsupported_value member.1 member.2).bind fun _ => ih.bind fun _ => .ok _

theorem onlyUnsupported_ofJson (json : Json) : OnlyUnsupported (ofJson json) := by
  unfold ofJson
  split
  · exact .ok _
  · exact (onlyUnsupported_readVariables _).bind fun _ => .ok _
  · exact .unsupported _

/-! All values. -/

theorem exists_readVariables {members : List (String × Json)} :
    (∃ entries, readVariables members = .ok entries) ↔
      ∀ member ∈ members, ∃ number, value member.1 member.2 = .ok number := by
  induction members with
  | nil => exact ⟨fun _ => List.forall_mem_nil _, fun _ => ⟨[], rfl⟩⟩
  | cons member rest ih =>
    rw [List.forall_mem_cons, ← ih]
    constructor
    · rintro ⟨entries, read⟩
      obtain ⟨number, first, others⟩ := Result.bind_eq_ok.1 read
      obtain ⟨entries, later, -⟩ := Result.bind_eq_ok.1 others
      exact ⟨⟨number, first⟩, entries, later⟩
    · rintro ⟨⟨number, first⟩, entries, later⟩
      exact ⟨(member.1, ⟨256, number⟩) :: entries, Result.bind_eq_ok.2
        ⟨number, first, Result.bind_eq_ok.2 ⟨entries, later, rfl⟩⟩⟩

section

variable {fields : Table Json} {table : Table Variable}

theorem rel_find? (aligned : List.Forall₂ IsRead fields.entries table.entries) (name : String) :
    Option.Rel (fun json entry => IsRead (name, json) (name, entry)) (fields.find? name)
      (table.find? name) := by
  unfold Table.find?
  generalize fields.entries = members at aligned ⊢
  generalize table.entries = entries at aligned ⊢
  induction aligned with
  | nil => exact .none
  | cons first _ ih =>
    obtain ⟨same, wide, read⟩ := first
    rw [List.find?_cons, List.find?_cons, same]
    split
    · next found =>
      rw [beq_iff_eq.1 found] at read
      exact .some ⟨rfl, wide, read⟩
    · exact ih

theorem find?_eq_some_of_isRead (aligned : List.Forall₂ IsRead fields.entries table.entries)
    {name : String} {entry : Variable} :
    table.find? name = some entry ↔
      entry.bits = 256 ∧ ∃ json, fields.find? name = some json ∧
        value name json = .ok entry.value := by
  have related := rel_find? aligned name
  generalize fields.find? name = given at related ⊢
  generalize table.find? name = kept at related ⊢
  cases related with
  | none => simp
  | some read =>
    obtain ⟨-, wide, read⟩ := read
    constructor
    · intro same
      obtain rfl := Option.some.inj same
      exact ⟨wide, _, rfl, read⟩
    · rintro ⟨bits, json, same, other⟩
      obtain rfl := Option.some.inj same
      have values := Except.ok.inj (read.symm.trans other)
      rw [Option.some.injEq, Variable.mk.injEq]
      exact ⟨wide.trans bits.symm, values⟩

theorem isSome_find?_of_isRead (aligned : List.Forall₂ IsRead fields.entries table.entries)
    (name : String) : (table.find? name).isSome = (fields.find? name).isSome := by
  have related := rel_find? aligned name
  generalize fields.find? name = given at related ⊢
  generalize table.find? name = kept at related ⊢
  cases related <;> rfl

end

theorem ofJson_congr {members others : List (String × Json)}
    (same : ∀ name json, Table.IsLast members name json ↔ Table.IsLast others name json) :
    ofJson (.object members) = ofJson (.object others) := by
  have fields : Json.fields members = Json.fields others := by
    refine Table.ext_find? fun name => Option.ext fun json => ?_
    rw [Json.fields, Json.fields, Table.find?_ofList, Table.find?_ofList, same]
  rw [ofJson, ofJson, fields]

theorem IsOf.of_isRead {members : List (String × Json)} {model : Assignment}
    (fits : ∀ name value, (name, .number (.natural value)) ∈ members → value < Nat.pow 2 64)
    (aligned : List.Forall₂ IsRead (Json.fields members).entries model.table.entries) :
    IsOf model members := by
  have declared (name : String) (entry : Variable) : model.table.find? name = some entry ↔
      entry.bits = 256 ∧ ∃ json, Table.IsLast members name json ∧ Denotes json entry.value := by
    rw [find?_eq_some_of_isRead aligned]
    refine and_congr_right fun _ => exists_congr fun json => ?_
    rw [Json.fields, Table.find?_ofList]
    exact and_congr_right fun last =>
      value_eq_ok fun value same => fits name value (same ▸ last.mem)
  have assigned (name : String) (number : Nat) : model.value? name = some number ↔
      ∃ json, Table.IsLast members name json ∧ Denotes json (some number) := by
    rw [Assignment.value?, Option.bind_eq_some_iff]
    constructor
    · rintro ⟨entry, found, given⟩
      exact given ▸ ((declared name entry).1 found).2
    · intro given
      exact ⟨⟨256, some number⟩, (declared name _).2 ⟨rfl, given⟩, rfl⟩
  refine ⟨fun name => ?_, declared, assigned, fun place => ?_⟩
  · rw [Assignment.names, Table.mem_keys_iff, isSome_find?_of_isRead aligned,
      Option.isSome_iff_exists, Json.fields]
    simp only [Table.find?_ofList]
    constructor
    · rintro ⟨json, last⟩
      exact ⟨json, last.mem⟩
    · rintro ⟨json, member⟩
      exact Table.exists_isLast member
  · rw [Assignment.assignsUnder_iff]
    simp only [Option.isSome_iff_exists, assigned]
    constructor
    · rintro ⟨name, covers, number, json, last, denotes⟩
      exact ⟨name, json, number, covers, last, denotes⟩
    · rintro ⟨name, json, number, covers, last, denotes⟩
      exact ⟨name, covers, number, json, last, denotes⟩

/-- An object has a model if and only if the last value of each of its names denotes something. -/
theorem exists_ofJson_iff {members : List (String × Json)}
    (fits : ∀ name value, (name, .number (.natural value)) ∈ members → value < Nat.pow 2 64) :
    (∃ model, ofJson (.object members) = .ok (some model)) ↔ IsAnswer members := by
  have each : IsAnswer members ↔ ∀ member ∈ (Json.fields members).entries,
      ∃ number, value member.1 member.2 = .ok number := by
    rw [Prod.forall]
    refine forall_congr' fun name => forall_congr' fun json => ?_
    rw [← Table.find?_eq_some, Json.fields, Table.find?_ofList]
    refine forall_congr' fun last => exists_congr fun number => ?_
    exact (value_eq_ok fun value same => fits name value (same ▸ last.mem)).symm
  rw [each, ← exists_readVariables]
  constructor
  · rintro ⟨model, read⟩
    obtain ⟨entries, read, -⟩ := Result.bind_eq_ok.1 read
    exact ⟨entries, read⟩
  · rintro ⟨entries, read⟩
    exact ⟨⟨Table.ofList entries⟩, Result.bind_eq_ok.2 ⟨entries, read, rfl⟩⟩

theorem ofJson_eq_none_iff {json : Json} : ofJson json = .ok none ↔ json = .null := by
  constructor
  · intro read
    cases json with
    | null => rfl
    | object members =>
      obtain ⟨entries, -, same⟩ := Result.bind_eq_ok.1 read
      cases same
    | bool value | number value | text value | array items => cases read
  · rintro rfl
    rfl

theorem exists_object_of_ofJson {json : Json} {model : Assignment}
    (read : ofJson json = .ok (some model)) : ∃ members, json = .object members := by
  cases json with
  | object members => exact ⟨members, rfl⟩
  | null | bool value | number value | text value | array items => cases read

/-! Texts. -/

section

variable {text : String} {json : Json} {members : List (String × Json)}

theorem ofText_of_parse? (parsed : Json.parse? text = some json) : ofText text = ofJson json := by
  rw [ofText, parsed]

theorem exists_model_iff (parsed : Json.parse? text = some json) :
    (∃ model, ofText text = .ok (some model)) ↔
      ∃ members, json = .object members ∧ IsAnswer members := by
  rw [ofText_of_parse? parsed]
  constructor
  · rintro ⟨model, read⟩
    obtain ⟨members, rfl⟩ := exists_object_of_ofJson read
    have fits := Json.natural_lt_of_parse? parsed
    exact ⟨members, rfl, (exists_ofJson_iff fits).1 ⟨model, read⟩⟩
  · rintro ⟨members, rfl, answer⟩
    exact (exists_ofJson_iff (Json.natural_lt_of_parse? parsed)).2 answer

theorem isOf_of_ofText (parsed : Json.parse? text = some (.object members)) {model : Assignment}
    (read : ofText text = .ok (some model)) : IsOf model members := by
  obtain ⟨others, parsed', aligned⟩ := isRead_of_ofText read
  obtain rfl : members = others := Json.object.inj (Option.some.inj (parsed.symm.trans parsed'))
  exact .of_isRead (Json.natural_lt_of_parse? parsed) aligned

theorem exists_unsupported_iff (parsed : Json.parse? text = some json) :
    (∃ cause, ofText text = .error (.unsupported cause)) ↔
      json ≠ .null ∧ ∀ members, json = .object members → ¬ IsAnswer members := by
  constructor
  · rintro ⟨cause, failed⟩
    constructor
    · rintro rfl
      exact nomatch failed.symm.trans (ofText_of_parse? parsed)
    · intro members object answer
      obtain ⟨model, read⟩ := (exists_model_iff parsed).2 ⟨members, object, answer⟩
      exact nomatch failed.symm.trans read
  · rintro ⟨notNull, noAnswer⟩
    cases result : ofText text with
    | ok found =>
      cases found with
      | none =>
        rw [ofText_of_parse? parsed] at result
        exact absurd (ofJson_eq_none_iff.1 result) notNull
      | some model =>
        obtain ⟨members, object, answer⟩ := (exists_model_iff parsed).1 ⟨model, result⟩
        exact absurd answer (noAnswer members object)
    | error fault =>
      rw [ofText_of_parse? parsed] at result
      obtain ⟨cause, rfl⟩ := onlyUnsupported_ofJson json fault result
      exact ⟨cause, rfl⟩

/-- Only what the JSON reader refuses is malformed. -/
theorem ofText_eq_malformed_iff :
    ofText text = .error (.json .malformed) ↔
      ¬ Json.IsText text ∨ (Json.rootOf text).Exceeds Json.depthLimit := by
  have refused : Json.parse? text = none ↔
      ¬ Json.IsText text ∨ (Json.rootOf text).Exceeds Json.depthLimit := by
    rw [Option.eq_none_iff_forall_ne_some, ← not_exists, Json.exists_parse?_iff, not_and_or,
      not_not]
  rw [← refused]
  constructor
  · intro failed
    cases parsed : Json.parse? text with
    | none => rfl
    | some json =>
      rw [ofText_of_parse? parsed] at failed
      obtain ⟨cause, other⟩ := onlyUnsupported_ofJson json _ failed
      cases other
  · intro none
    rw [ofText, none]

end

def mixedAnswer : String :=
  "\x7b\"tx0_value\":\" 7 \",\"tx0_sender\":null,\"tx0_value\":\"0XfF_\",\"tx0_arg0\":5\x7d"

def mixedMembers : List (String × Json) :=
  [("tx0_value", .text " 7 "), ("tx0_sender", .null), ("tx0_value", .text "0XfF_"),
    ("tx0_arg0", .nat 5)]

def mixedModel : Assignment :=
  ⟨Table.ofList
    [("tx0_value", ⟨256, some 255⟩), ("tx0_sender", ⟨256, none⟩), ("tx0_arg0", ⟨256, some 5⟩)]⟩

theorem parse?_mixedAnswer : Json.parse? mixedAnswer = some (.object mixedMembers) := by
  have printed : mixedAnswer = (Json.object mixedMembers).render := rfl
  have small : (Json.nat 5).IsPlain := by simp [Json.nat, Json.IsPlain]
  have plain : (Json.object mixedMembers).IsPlain := ⟨trivial, trivial, trivial, small, trivial⟩
  rw [Json.parse?, printed, Json.Document.ofText_render plain]
  rfl

def hugeAnswer : String := "\x7b\"x\":1e400\x7d"

end FuzzBridge.Model
