import FuzzBridge.Json.Reader
import FuzzBridge.Proofs.Result

/-!
What is JSON and is still not read: numbers beyond the doubles, texts and keys that are no sequence
of characters, and arrays and objects that are nested too deep. Every other JSON text has a value.
-/

namespace FuzzBridge.Json

mutual

/-- Somewhere in a draft is what no value has, when `levels` are left for arrays and objects. -/
inductive Draft.Exceeds : Nat → Draft → Prop
  | number (levels : Nat) : Draft.Exceeds levels (.number none)
  | text (levels : Nat) : Draft.Exceeds levels (.text none)
  | deepArray (items : Items) : Draft.Exceeds 0 (.array items)
  | deepObject (members : Members) : Draft.Exceeds 0 (.object members)
  | array {levels : Nat} {items : Items} (inner : Items.Exceeds levels items) :
      Draft.Exceeds (levels + 1) (.array items)
  | object {levels : Nat} {members : Members} (inner : Members.Exceeds levels members) :
      Draft.Exceeds (levels + 1) (.object members)

inductive Items.Exceeds : Nat → Items → Prop
  | first {levels : Nat} {first : Draft} (rest : Items) (inner : Draft.Exceeds levels first) :
      Items.Exceeds levels (.cons first rest)
  | rest {levels : Nat} (first : Draft) {rest : Items} (inner : Items.Exceeds levels rest) :
      Items.Exceeds levels (.cons first rest)

inductive Members.Exceeds : Nat → Members → Prop
  | key (levels : Nat) (value : Draft) (rest : Members) :
      Members.Exceeds levels (.cons none value rest)
  | value {levels : Nat} (key : Option String) {value : Draft} (rest : Members)
      (inner : Draft.Exceeds levels value) : Members.Exceeds levels (.cons key value rest)
  | rest {levels : Nat} (key : Option String) (value : Draft) {rest : Members}
      (inner : Members.Exceeds levels rest) : Members.Exceeds levels (.cons key value rest)

end

theorem Items.exceeds_cons {levels : Nat} {first : Draft} {rest : Items} :
    Items.Exceeds levels (.cons first rest) ↔
      Draft.Exceeds levels first ∨ Items.Exceeds levels rest := by
  constructor
  · rintro (⟨_, inner⟩ | ⟨_, inner⟩)
    · exact .inl inner
    · exact .inr inner
  · rintro (inner | inner)
    · exact .first rest inner
    · exact .rest first inner

theorem Members.exceeds_cons {levels : Nat} {key : Option String} {value : Draft}
    {rest : Members} :
    Members.Exceeds levels (.cons key value rest) ↔
      key = none ∨ Draft.Exceeds levels value ∨ Members.Exceeds levels rest := by
  constructor
  · rintro (_ | ⟨_, _, inner⟩ | ⟨_, _, inner⟩)
    · exact .inl rfl
    · exact .inr (.inl inner)
    · exact .inr (.inr inner)
  · rintro (rfl | inner | inner)
    · exact .key levels value rest
    · exact .value key rest inner
    · exact .rest key value inner

theorem Draft.exceeds_array {levels : Nat} {items : Items} :
    Draft.Exceeds (levels + 1) (.array items) ↔ Items.Exceeds levels items :=
  ⟨fun | .array inner => inner, .array⟩

theorem Draft.exceeds_object {levels : Nat} {members : Members} :
    Draft.Exceeds (levels + 1) (.object members) ↔ Members.Exceeds levels members :=
  ⟨fun | .object inner => inner, .object⟩

/-- Whether a text is JSON, whatever its numbers and texts are and however deep it is. -/
def IsText (text : String) : Prop :=
  (Document.ofText (Text.ofChars text.toList)).read Draft.skip = .ok ()

instance (text : String) : Decidable (IsText text) :=
  match read : (Document.ofText (Text.ofChars text.toList)).read Draft.skip with
  | .ok () => isTrue read
  | .error _ => isFalse fun valid => nomatch read.symm.trans valid

def rootOf (text : String) : Draft := (Document.ofText (Text.ofChars text.toList)).root

theorem read_eq_ok {α : Type} {read : Draft → Read α} {document : Document} {value : α} :
    document.read read = .ok value ↔
      read document.root = .ok value ∧ document.trailing = false := by
  rw [Document.read, Result.bind_eq_ok]
  constructor
  · rintro ⟨found, read, whole⟩
    split at whole
    · cases whole
    · next ends => exact ⟨Result.pure_eq_ok.1 whole ▸ read, by simpa using ends⟩
  · rintro ⟨read, ends⟩
    exact ⟨value, read, by rw [ends]; rfl⟩

theorem bind_unit_eq_ok {first rest : Read Unit} :
    (first >>= fun _ => rest) = .ok () ↔ first = .ok () ∧ rest = .ok () := by
  rw [Result.bind_eq_ok]
  exact ⟨fun ⟨_, first, rest⟩ => ⟨first, rest⟩, fun ⟨first, rest⟩ => ⟨(), first, rest⟩⟩

section

variable {α β γ : Type}

theorem exists_map_eq_ok {attempt : Read α} {change : α → β} :
    (∃ result, change <$> attempt = .ok result) ↔ ∃ value, attempt = .ok value := by
  simp only [Result.map_eq_ok]
  exact ⟨fun ⟨_, value, done, _⟩ => ⟨value, done⟩, fun ⟨value, done⟩ => ⟨_, value, done, rfl⟩⟩

theorem exists_join_eq_ok {first : Read α} {rest : Read β} {join : α → β → γ} :
    (∃ result, (do let value ← first; return join value (← rest)) = .ok result) ↔
      (∃ value, first = .ok value) ∧ ∃ values, rest = .ok values := by
  simp only [Result.bind_eq_ok, Result.pure_eq_ok]
  constructor
  · rintro ⟨_, value, head, values, tail, -⟩
    exact ⟨⟨value, head⟩, values, tail⟩
  · rintro ⟨⟨value, head⟩, values, tail⟩
    exact ⟨_, value, head, values, tail, rfl⟩

end

mutual

/-- Exactly the drafts of JSON in which nothing exceeds the reader have a value. -/
theorem Draft.exists_value_iff {levels : Nat} : ∀ {draft : Draft},
    (∃ value, draft.value levels = .ok value) ↔ draft.skip = .ok () ∧ ¬ draft.Exceeds levels
  | .absent => ⟨nofun, nofun⟩
  | .null | .bool _ | .number (some _) | .text (some _) =>
    ⟨fun _ => ⟨rfl, nofun⟩, fun _ => ⟨_, rfl⟩⟩
  | .number none => ⟨nofun, fun ⟨_, fits⟩ => absurd (.number levels) fits⟩
  | .text none => ⟨nofun, fun ⟨_, fits⟩ => absurd (.text levels) fits⟩
  | .array items => by
    cases levels with
    | zero => exact ⟨nofun, fun ⟨_, fits⟩ => absurd (.deepArray items) fits⟩
    | succ levels =>
      rw [Draft.exceeds_array, Draft.skip, ← Items.exists_values_iff, Draft.value]
      exact exists_map_eq_ok
  | .object members => by
    cases levels with
    | zero => exact ⟨nofun, fun ⟨_, fits⟩ => absurd (.deepObject members) fits⟩
    | succ levels =>
      rw [Draft.exceeds_object, Draft.skip, ← Members.exists_values_iff, Draft.value]
      exact exists_map_eq_ok

theorem Items.exists_values_iff {levels : Nat} : ∀ {items : Items},
    (∃ values, items.values levels = .ok values) ↔ items.skip = .ok () ∧ ¬ items.Exceeds levels
  | .stop true => ⟨fun _ => ⟨rfl, nofun⟩, fun _ => ⟨[], rfl⟩⟩
  | .stop false => ⟨nofun, nofun⟩
  | .cons first rest => by
    have one := @Draft.exists_value_iff levels first
    have others := @Items.exists_values_iff levels rest
    rw [Items.exceeds_cons, Items.skip, bind_unit_eq_ok, not_or, and_and_and_comm, ← one, ← others,
      Items.values]
    exact exists_join_eq_ok

theorem Members.exists_values_iff {levels : Nat} : ∀ {members : Members},
    (∃ values, members.values levels = .ok values) ↔
      members.skip = .ok () ∧ ¬ members.Exceeds levels
  | .stop true => ⟨fun _ => ⟨rfl, nofun⟩, fun _ => ⟨[], rfl⟩⟩
  | .stop false => ⟨nofun, nofun⟩
  | .cons none value rest => ⟨nofun, fun ⟨_, fits⟩ => absurd (.key levels value rest) fits⟩
  | .cons (some key) value rest => by
    have one := @Draft.exists_value_iff levels value
    have others := @Members.exists_values_iff levels rest
    have known : some key ≠ none := nofun
    rw [Members.exceeds_cons, or_iff_right known, Members.skip, bind_unit_eq_ok, not_or,
      and_and_and_comm, ← one, ← others, Members.values]
    exact exists_join_eq_ok

end

/-- A text has a value if and only if it is JSON and nothing in it exceeds the reader. -/
theorem exists_parse?_iff {text : String} :
    (∃ json, parse? text = some json) ↔
      IsText text ∧ ¬ (rootOf text).Exceeds depthLimit := by
  have read : (∃ json, parse? text = some json) ↔
      ∃ json, (Document.ofText (Text.ofChars text.toList)).read (Draft.value depthLimit) =
        .ok json := by
    rw [parse?]
    cases (Document.ofText (Text.ofChars text.toList)).read (Draft.value depthLimit) <;>
      simp [Except.toOption]
  rw [read, IsText, read_eq_ok]
  simp only [read_eq_ok]
  rw [exists_and_right, Draft.exists_value_iff, rootOf, and_right_comm]

end FuzzBridge.Json
