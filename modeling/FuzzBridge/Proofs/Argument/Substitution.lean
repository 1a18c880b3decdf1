import Mathlib.Data.List.Forall2
import FuzzBridge.Argument.Fill
import FuzzBridge.Proofs.Encoding.Conformance
import FuzzBridge.Proofs.Number.Numeral
import FuzzBridge.Proofs.Result
import FuzzBridge.Proofs.Solver.Assignment

/-!
Substituting the leaves of an argument by the values of a model. What the model says nothing about
stays, and so do the types and the shape.
-/

namespace FuzzBridge

theorem readBytes_eq_ok {text : String} {bytes : List UInt8} :
    readBytes text = .ok bytes ↔ Text.bytesOf text = .ok bytes := by
  unfold readBytes
  cases Text.bytesOf text <;> simp

@[simp] theorem readBytes_ofByteList (bytes : List UInt8) :
    readBytes (Text.ofByteList bytes) = .ok bytes :=
  readBytes_eq_ok.2 (Text.bytesOf_ofByteList bytes)

theorem Text.charOfByte_ofNat {c : Char} (h : c.toNat < 256) :
    Text.charOfByte (UInt8.ofNat c.toNat) = c := by
  apply Char.toNat_inj.1
  rw [toNat_charOfByte, UInt8.toNat_ofNat', Nat.mod_eq_of_lt h]

theorem Text.map_charOfByte {text : List Char} {bytes : List UInt8}
    (h : bytesOfChars text = .ok bytes) : bytes.map charOfByte = text := by
  induction text generalizing bytes with
  | nil =>
    obtain rfl := Except.ok.inj h
    rfl
  | cons c rest ih =>
    rw [bytesOfChars] at h
    split at h
    · next byte =>
      obtain ⟨others, hothers, h⟩ := Result.bind_eq_ok.1 h
      obtain rfl := Except.ok.inj h
      rw [List.map_cons, charOfByte_ofNat byte, ih hothers]
    · simp at h

theorem ofByteList_of_readBytes {text : String} {bytes : List UInt8}
    (h : readBytes text = .ok bytes) : Text.ofByteList bytes = text := by
  rw [Text.ofByteList, Text.map_charOfByte (readBytes_eq_ok.1 h), String.ofList_toList]

namespace Argument

theorem induction {motive : Argument → Prop} (uint : ∀ bits digits, motive (.uint bits digits))
    (int : ∀ bits digits, motive (.int bits digits)) (address : ∀ hex, motive (.address hex))
    (bool : ∀ value, motive (.bool value))
    (fixedBytes : ∀ length text, motive (.fixedBytes length text))
    (bytes : ∀ text, motive (.bytes text)) (string : ∀ text, motive (.string text))
    (array : ∀ element elements, (∀ argument ∈ elements, motive argument) →
      motive (.array element elements))
    (fixedArray : ∀ length element elements, (∀ argument ∈ elements, motive argument) →
      motive (.fixedArray length element elements))
    (tuple : ∀ elements, (∀ argument ∈ elements, motive argument) → motive (.tuple elements))
    (argument : Argument) : motive argument :=
  Argument.rec (motive_2 := fun elements => ∀ argument ∈ elements, motive argument)
    uint int address bool fixedBytes bytes string array fixedArray tuple
    (fun _ member => absurd member List.not_mem_nil)
    (fun _ _ first rest => List.forall_mem_cons.2 ⟨first, rest⟩) argument

theorem types_eq_map (elements : List Argument) : types elements = elements.map type := by
  induction elements with
  | nil => rfl
  | cons element rest ih => rw [types, ih, List.map_cons]

theorem data_eq_ok {elements : List Argument} {values : List Datum} :
    data elements = .ok values ↔
      List.Forall₂ (fun element value => element.datum = .ok value) elements values := by
  induction elements generalizing values with
  | nil =>
    constructor
    · intro h
      obtain rfl := Except.ok.inj h
      exact .nil
    · intro h
      cases h
      rfl
  | cons element rest ih =>
    rw [data, Result.bind_eq_ok]
    constructor
    · rintro ⟨value, hvalue, h⟩
      obtain ⟨others, hothers, h⟩ := Result.bind_eq_ok.1 h
      obtain rfl := Except.ok.inj h
      exact .cons hvalue (ih.1 hothers)
    · intro h
      cases h with
      | cons first others =>
        refine ⟨_, first, ?_⟩
        rw [ih.2 others]
        rfl

/-- The text of the bytes with the values that the model gives to them; a text that denotes no bytes
stays. -/
def substituteText (model : Assignment) (place : Place) (text : String) : String :=
  match readBytes text with
  | .ok content => Text.ofByteList (fillByteList model place 0 content)
  | .error _ => text

mutual

/-- Every leaf that the model gives a value to holds that value, reduced to what it can hold. -/
def substitute (model : Assignment) (place : Place) : Argument → Argument
  | .uint bits digits => match model.valueAt? place with
    | some value => .uint bits (String.ofList (Nat.toDigits 10 (Number.mask value bits.toNat)))
    | none => .uint bits digits
  | .int bits digits => match model.valueAt? place with
    | some value => .int bits (String.ofList (Datum.decimal (Number.toSigned value bits.toNat)))
    | none => .int bits digits
  | .bool old => match model.valueAt? place with
    | some value => .bool (Number.isTrue value)
    | none => .bool old
  | .address hex => match model.valueAt? place with
    | some value => .address (Number.toAddress value)
    | none => .address hex
  | .fixedBytes length text => .fixedBytes length (substituteText model place text)
  | .bytes text => .bytes (substituteText model place text)
  | .string text => .string (substituteText model place text)
  | .array element elements => .array element (substituteAll model place.element 0 elements)
  | .fixedArray length element elements =>
    .fixedArray length element (substituteAll model place.element 0 elements)
  | .tuple elements => .tuple (substituteAll model place.element 0 elements)
termination_by structural argument => argument

def substituteAll (model : Assignment) (placeOf : Nat → Place) (index : Nat) :
    List Argument → List Argument
  | [] => []
  | element :: rest =>
    element.substitute model (placeOf index) :: substituteAll model placeOf (index + 1) rest
termination_by structural elements => elements

end

/-! Without a value. -/

theorem fillByteList_eq_self {model : Assignment} {place : Place}
    (h : ∀ path, model.valueAt? (place.extend path) = none) (index : Nat) (bytes : List UInt8) :
    fillByteList model place index bytes = bytes := by
  induction bytes generalizing index with
  | nil => rfl
  | cons byte rest ih => rw [fillByteList, ih, Place.element_eq_extend, h]

theorem substituteText_eq_self {model : Assignment} {place : Place}
    (h : ∀ path, model.valueAt? (place.extend path) = none) (text : String) :
    substituteText model place text = text := by
  unfold substituteText
  split
  · next content readable => rw [fillByteList_eq_self h, ofByteList_of_readBytes readable]
  · rfl

theorem substituteAll_eq_self {model : Assignment} {placeOf : Nat → Place}
    {elements : List Argument} {index : Nat}
    (each : ∀ element ∈ elements, ∀ position,
      element.substitute model (placeOf position) = element) :
    substituteAll model placeOf index elements = elements := by
  induction elements generalizing index with
  | nil => rfl
  | cons element rest ih =>
    rw [substituteAll, each element (by simp),
      ih fun element member => each element (List.mem_cons_of_mem _ member)]

theorem substitute_eq_self {model : Assignment} {place : Place}
    (h : ∀ path, model.valueAt? (place.extend path) = none) (argument : Argument) :
    argument.substitute model place = argument := by
  have here : model.valueAt? place = none := by simpa using h []
  induction argument using Argument.induction generalizing place with
  | uint bits digits => rw [substitute, here]
  | int bits digits => rw [substitute, here]
  | address hex => rw [substitute, here]
  | bool value => rw [substitute, here]
  | fixedBytes length text => rw [substitute, substituteText_eq_self h]
  | bytes text => rw [substitute, substituteText_eq_self h]
  | string text => rw [substitute, substituteText_eq_self h]
  | array element elements ih | fixedArray length element elements ih | tuple elements ih =>
    rw [substitute, substituteAll_eq_self]
    intro element member position
    refine ih element member ?_ (h [position])
    intro path
    rw [Place.extend_element]
    exact h _

/-! Type and shape stay. -/

theorem types_substituteAll {elements : List Argument} {model : Assignment}
    (each : ∀ element ∈ elements, ∀ place, (element.substitute model place).type = element.type)
    (placeOf : Nat → Place) (index : Nat) :
    types (substituteAll model placeOf index elements) = types elements := by
  induction elements generalizing index with
  | nil => rfl
  | cons element rest ih =>
    rw [substituteAll, types, types, each element (by simp),
      ih fun element member => each element (List.mem_cons_of_mem _ member)]

theorem type_substitute (model : Assignment) (place : Place) (argument : Argument) :
    (argument.substitute model place).type = argument.type := by
  induction argument using Argument.induction generalizing place with
  | uint bits digits | int bits digits | address hex | bool old =>
    unfold substitute
    split <;> rfl
  | fixedBytes length text | bytes text | string text => rfl
  | array element elements ih | fixedArray length element elements ih => rfl
  | tuple elements ih => rw [substitute, type, type, types_substituteAll ih]

theorem length_fillByteList (model : Assignment) (place : Place) (index : Nat)
    (bytes : List UInt8) : (fillByteList model place index bytes).length = bytes.length := by
  induction bytes generalizing index with
  | nil => rfl
  | cons byte rest ih => rw [fillByteList, List.length_cons, List.length_cons, ih]

theorem substituteText_of_readBytes {text : String} {content : List UInt8}
    (readable : readBytes text = .ok content) (model : Assignment) (place : Place) :
    substituteText model place text = Text.ofByteList (fillByteList model place 0 content) := by
  rw [substituteText, readable]

theorem readBytes_substituteText {text : String} {content : List UInt8}
    (readable : readBytes text = .ok content) (model : Assignment) (place : Place) :
    readBytes (substituteText model place text) = .ok (fillByteList model place 0 content) := by
  rw [substituteText_of_readBytes readable, readBytes_ofByteList]

theorem data_substituteAll {elements : List Argument} {values : List Datum} {model : Assignment}
    (read : data elements = .ok values)
    (each : ∀ element ∈ elements, ∀ value place, element.datum = .ok value →
      ∃ value', (element.substitute model place).datum = .ok value' ∧ SameShape value value')
    (placeOf : Nat → Place) (index : Nat) :
    ∃ values', data (substituteAll model placeOf index elements) = .ok values' ∧
      List.Forall₂ SameShape values values' := by
  have reads := data_eq_ok.1 read
  induction reads generalizing index with
  | nil => exact ⟨[], rfl, .nil⟩
  | cons first rest ih =>
    obtain ⟨value', hvalue', same⟩ := each _ (by simp) _ (placeOf index) first
    obtain ⟨values', hvalues', sames⟩ := ih (data_eq_ok.2 rest)
      (fun element member => each element (List.mem_cons_of_mem _ member)) (index + 1)
    refine ⟨value' :: values', ?_, .cons same sames⟩
    rw [substituteAll, data_eq_ok]
    exact .cons hvalue' (data_eq_ok.1 hvalues')

theorem datum_substitute {argument : Argument} {value : Datum} (read : argument.datum = .ok value)
    (model : Assignment) (place : Place) :
    ∃ value', (argument.substitute model place).datum = .ok value' ∧ SameShape value value' := by
  induction argument using Argument.induction generalizing value place with
  | uint bits digits =>
    obtain ⟨number, -, rfl⟩ := Result.map_eq_ok.1 read
    unfold substitute
    split
    · exact ⟨_, Result.map_eq_ok.2 ⟨_, readDecimal_toDigits _, rfl⟩, .int _ _⟩
    · exact ⟨_, read, .int _ _⟩
  | int bits digits =>
    obtain ⟨number, -, rfl⟩ := Result.map_eq_ok.1 read
    unfold substitute
    split
    · exact ⟨_, Result.map_eq_ok.2 ⟨_, readDecimal_decimal _, rfl⟩, .int _ _⟩
    · exact ⟨_, read, .int _ _⟩
  | address hex =>
    obtain ⟨number, -, denoted⟩ := Result.bind_eq_ok.1 read
    obtain rfl := Result.pure_eq_ok.1 denoted
    unfold substitute
    split
    · exact ⟨_, Result.bind_eq_ok.2 ⟨_, readHex_toAddress _, rfl⟩, .int _ _⟩
    · exact ⟨_, read, .int _ _⟩
  | bool old =>
    obtain rfl := Except.ok.inj read
    unfold substitute
    split <;> exact ⟨_, rfl, .bool _ _⟩
  | fixedBytes length text | bytes text | string text =>
    obtain ⟨content, readable, rfl⟩ := Result.map_eq_ok.1 read
    have readable' := readBytes_substituteText readable model place
    refine ⟨_, Result.map_eq_ok.2 ⟨_, readable', rfl⟩, .bytes ?_⟩
    rw [length_fillByteList]
  | array element elements ih | fixedArray length element elements ih | tuple elements ih =>
    obtain ⟨values, readable, rfl⟩ := Result.map_eq_ok.1 read
    obtain ⟨values', readable', sames⟩ := data_substituteAll readable
      (fun element member value place inner => ih element member inner place) place.element 0
    exact ⟨_, Result.map_eq_ok.2 ⟨_, readable', rfl⟩, .seq sames⟩

end Argument

end FuzzBridge
