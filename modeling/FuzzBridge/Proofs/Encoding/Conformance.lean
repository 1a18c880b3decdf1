import Mathlib.Data.List.Forall2
import FuzzBridge.Encoding.Call

/-!
When a value conforms to a type, and when two values have the same shape: the encoder looks at
nothing else to decide what it can encode and how.
-/

namespace FuzzBridge

/-- Integers for integer types and addresses, booleans, byte strings of the right length, and
sequences of as many conforming elements as the type asks for. -/
inductive Conforms : ArgType → Datum → Prop
  | uint (bits : UInt16) (value : Int) : Conforms (.uint bits) (.int value)
  | int (bits : UInt16) (value : Int) : Conforms (.int bits) (.int value)
  | address (value : Int) : Conforms .address (.int value)
  | bool (value : Bool) : Conforms .bool (.bool value)
  | fixedBytes {length : UInt64} {value : List UInt8} (count : value.length = length.toNat)
      (short : length.toNat ≤ 32) : Conforms (.fixedBytes length) (.bytes value)
  | bytes (value : List UInt8) : Conforms .bytes (.bytes value)
  | string (value : List UInt8) : Conforms .string (.bytes value)
  | fixedArray {length : UInt64} {element : ArgType} {elements : List Datum}
      (count : elements.length = length.toNat)
      (each : ∀ value ∈ elements, Conforms element value) :
      Conforms (.fixedArray length element) (.seq elements)
  | array {element : ArgType} {elements : List Datum}
      (each : ∀ value ∈ elements, Conforms element value) :
      Conforms (.array element) (.seq elements)
  | tuple {types : List ArgType} {elements : List Datum}
      (each : List.Forall₂ Conforms types elements) : Conforms (.tuple types) (.seq elements)

/-- Values that differ in numbers, booleans and bytes only. -/
inductive SameShape : Datum → Datum → Prop
  | int (left right : Int) : SameShape (.int left) (.int right)
  | bool (left right : Bool) : SameShape (.bool left) (.bool right)
  | bytes {left right : List UInt8} (count : left.length = right.length) :
      SameShape (.bytes left) (.bytes right)
  | seq {left right : List Datum} (each : List.Forall₂ SameShape left right) :
      SameShape (.seq left) (.seq right)

theorem Datum.induction {motive : Datum → Prop} (int : ∀ value, motive (.int value))
    (bool : ∀ value, motive (.bool value)) (bytes : ∀ value, motive (.bytes value))
    (seq : ∀ elements, (∀ element ∈ elements, motive element) → motive (.seq elements))
    (value : Datum) : motive value :=
  Datum.rec (motive_2 := fun elements => ∀ element ∈ elements, motive element)
    int bool bytes seq (fun _ member => absurd member List.not_mem_nil)
    (fun _ _ first rest => List.forall_mem_cons.2 ⟨first, rest⟩) value

theorem forall₂_replicate {α β : Type} {relation : α → β → Prop} {type : α} {elements : List β} :
    List.Forall₂ relation (List.replicate elements.length type) elements ↔
      ∀ element ∈ elements, relation type element := by
  induction elements with
  | nil => simp
  | cons first rest ih => simp [List.replicate_succ, ih]

theorem Conforms.induction
    {motive : (type : ArgType) → (value : Datum) → Conforms type value → Prop}
    (uint : ∀ bits value, motive _ _ (.uint bits value))
    (int : ∀ bits value, motive _ _ (.int bits value))
    (address : ∀ value, motive _ _ (.address value))
    (bool : ∀ value, motive _ _ (.bool value))
    (fixedBytes : ∀ (length : UInt64) (value : List UInt8) (count : value.length = length.toNat)
      (short : length.toNat ≤ 32), motive _ _ (.fixedBytes count short))
    (bytes : ∀ value, motive _ _ (.bytes value))
    (string : ∀ value, motive _ _ (.string value))
    (fixedArray : ∀ (length : UInt64) (element : ArgType) (elements : List Datum)
      (count : elements.length = length.toNat) (each : ∀ value ∈ elements, Conforms element value),
      List.Forall₂ (fun type value => ∃ conforms, motive type value conforms)
        (List.replicate elements.length element) elements →
      motive _ _ (.fixedArray count each))
    (array : ∀ (element : ArgType) (elements : List Datum)
      (each : ∀ value ∈ elements, Conforms element value),
      List.Forall₂ (fun type value => ∃ conforms, motive type value conforms)
        (List.replicate elements.length element) elements →
      motive _ _ (.array each))
    (tuple : ∀ (types : List ArgType) (elements : List Datum)
      (each : List.Forall₂ Conforms types elements),
      List.Forall₂ (fun type value => ∃ conforms, motive type value conforms) types elements →
      motive _ _ (.tuple each))
    {type : ArgType} {value : Datum} (conforms : Conforms type value) :
    motive type value conforms :=
  Conforms.rec (motive_1 := motive)
    (motive_2 := fun types elements _ =>
      List.Forall₂ (fun type value => ∃ conforms, motive type value conforms) types elements)
    uint int address bool (fixedBytes _ _) bytes string
    (fun count each ih => fixedArray _ _ _ count each
      (forall₂_replicate.2 fun value member => ⟨each value member, ih value member⟩))
    (fun each ih => array _ _ each
      (forall₂_replicate.2 fun value member => ⟨each value member, ih value member⟩))
    (tuple _ _) .nil (fun _ _ first rest => .cons ⟨_, first⟩ rest) conforms

theorem SameShape.induction {motive : (left right : Datum) → SameShape left right → Prop}
    (int : ∀ left right, motive _ _ (.int left right))
    (bool : ∀ left right, motive _ _ (.bool left right))
    (bytes : ∀ (left right : List UInt8) (count : left.length = right.length),
      motive _ _ (.bytes count))
    (seq : ∀ (left right : List Datum) (each : List.Forall₂ SameShape left right),
      List.Forall₂ (fun left right => ∃ same, motive left right same) left right →
      motive _ _ (.seq each))
    {left right : Datum} (same : SameShape left right) : motive left right same :=
  SameShape.rec (motive_1 := motive)
    (motive_2 := fun left right _ =>
      List.Forall₂ (fun left right => ∃ same, motive left right same) left right)
    int bool (bytes _ _) (seq _ _) .nil (fun _ _ first rest => .cons ⟨_, first⟩ rest) same

theorem forall₂_conforms_of_forall₂ {types : List ArgType} {left right : List Datum}
    (conform : List.Forall₂ Conforms types left)
    (each : List.Forall₂ (fun left right => ∀ {type}, Conforms type left → Conforms type right)
      left right) : List.Forall₂ Conforms types right := by
  induction conform generalizing right with
  | nil => cases each; exact .nil
  | cons first _ ih =>
    cases each with
    | cons keep rest => exact .cons (keep first) (ih rest)

theorem Conforms.of_sameShape {left right : Datum} (same : SameShape left right) {type : ArgType}
    (conforms : Conforms type left) : Conforms type right := by
  induction same using SameShape.induction generalizing type with
  | int left right => cases conforms <;> constructor
  | bool left right => cases conforms; constructor
  | bytes left right count =>
    cases conforms with
    | fixedBytes length short => exact .fixedBytes (count ▸ length) short
    | bytes => exact .bytes right
    | string => exact .string right
  | seq left right _ ih =>
    have elementwise {types : List ArgType} (each : List.Forall₂ Conforms types left) :
        List.Forall₂ Conforms types right :=
      forall₂_conforms_of_forall₂ each (ih.imp fun _ _ keep => keep.2)
    have length : left.length = right.length := ih.length_eq
    cases conforms with
    | fixedArray count each =>
      refine .fixedArray (length ▸ count) (forall₂_replicate.1 ?_)
      rw [← length]
      exact elementwise (forall₂_replicate.2 each)
    | array each =>
      refine .array (forall₂_replicate.1 ?_)
      rw [← length]
      exact elementwise (forall₂_replicate.2 each)
    | tuple each => exact .tuple (elementwise each)

end FuzzBridge
