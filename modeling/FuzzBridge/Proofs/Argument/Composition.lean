import FuzzBridge.Proofs.Argument.Filling

/-!
Filling an argument with one model and then with another fills it with their merge, and fails
exactly if that does.
-/

namespace FuzzBridge.Argument

variable {merged first second : Assignment}

theorem fillByteList_fillByteList (merge : merged.IsMerge first second) (place : Place)
    (index : Nat) (bytes : List UInt8) :
    fillByteList second place index (fillByteList first place index bytes) =
      fillByteList merged place index bytes := by
  induction bytes generalizing index with
  | nil => rfl
  | cons byte rest ih =>
    have here : merged.valueAt? (place.element index) =
        (second.valueAt? (place.element index)).or (first.valueAt? (place.element index)) :=
      merge _
    simp only [fillByteList, ih, here]
    cases second.valueAt? (place.element index) with
    | some value => rfl
    | none => rw [Option.none_or]

theorem substituteText_substituteText (merge : merged.IsMerge first second) (place : Place)
    (text : String) :
    substituteText second place (substituteText first place text) =
      substituteText merged place text := by
  cases readable : readBytes text with
  | ok content =>
    have again := readBytes_substituteText readable first place
    rw [substituteText_of_readBytes again, substituteText_of_readBytes readable,
      fillByteList_fillByteList merge]
  | error fault => simp only [substituteText, readable]

theorem substituteAll_substituteAll {elements : List Argument}
    (each : ∀ element ∈ elements, ∀ place,
      (element.substitute first place).substitute second place = element.substitute merged place)
    (placeOf : Nat → Place) (index : Nat) :
    substituteAll second placeOf index (substituteAll first placeOf index elements) =
      substituteAll merged placeOf index elements := by
  induction elements generalizing index with
  | nil => rfl
  | cons element rest ih =>
    rw [substituteAll, substituteAll, substituteAll, each element List.mem_cons_self,
      ih fun element member => each element (List.mem_cons_of_mem _ member)]

theorem substitute_substitute (merge : merged.IsMerge first second) (argument : Argument)
    (place : Place) :
    (argument.substitute first place).substitute second place =
      argument.substitute merged place := by
  have here : merged.valueAt? place = (second.valueAt? place).or (first.valueAt? place) :=
    merge _
  induction argument using Argument.induction generalizing place with
  | uint bits digits | int bits digits | address hex | bool old =>
    cases earlier : first.valueAt? place <;> cases later : second.valueAt? place <;>
      simp [substitute, here, earlier, later]
  | fixedBytes length text | bytes text | string text =>
    simp only [substitute, substituteText_substituteText merge]
  | array element elements ih | fixedArray length element elements ih | tuple elements ih =>
    have each : ∀ element ∈ elements, ∀ place,
        (element.substitute first place).substitute second place =
          element.substitute merged place :=
      fun element member place => ih element member place (merge _)
    simp only [substitute, substituteAll_substituteAll each]

theorem allFillable_merge {elements : List Argument}
    (each : ∀ element ∈ elements, ∀ place, element.IsFillable merged place ↔
      element.IsFillable first place ∧ element.IsFillable second place)
    (placeOf : Nat → Place) (index : Nat) :
    AllFillable merged placeOf index elements ↔
      AllFillable first placeOf index elements ∧ AllFillable second placeOf index elements := by
  induction elements generalizing index with
  | nil => exact ⟨fun _ => ⟨trivial, trivial⟩, fun _ => trivial⟩
  | cons element rest ih =>
    rw [AllFillable, AllFillable, AllFillable, each element List.mem_cons_self,
      ih (fun element member => each element (List.mem_cons_of_mem _ member)), and_and_and_comm]

theorem isFillable_merge (merge : merged.IsMerge first second) (argument : Argument)
    (place : Place) :
    argument.IsFillable merged place ↔
      argument.IsFillable first place ∧ argument.IsFillable second place := by
  induction argument using Argument.induction generalizing place with
  | uint bits digits | int bits digits | address hex | bool old =>
    exact ⟨fun _ => ⟨trivial, trivial⟩, fun _ => trivial⟩
  | fixedBytes length text | bytes text | string text =>
    simp only [IsFillable, merge.assignsUnder]
    exact or_imp
  | array element elements ih | fixedArray length element elements ih | tuple elements ih =>
    exact allFillable_merge ih place.element 0

/-! Whether a text denotes bytes does not change. -/

theorem exists_readBytes_substituteText (model : Assignment) (place : Place) (text : String) :
    (∃ content, readBytes (substituteText model place text) = .ok content) ↔
      ∃ content, readBytes text = .ok content := by
  cases readable : readBytes text with
  | ok content =>
    exact ⟨fun _ => ⟨content, rfl⟩, fun _ => ⟨_, readBytes_substituteText readable model place⟩⟩
  | error fault => simp only [substituteText, readable]

theorem allFillable_substituteAll {elements : List Argument}
    (each : ∀ element ∈ elements, ∀ place,
      (element.substitute first place).IsFillable second place ↔ element.IsFillable second place)
    (placeOf : Nat → Place) (index : Nat) :
    AllFillable second placeOf index (substituteAll first placeOf index elements) ↔
      AllFillable second placeOf index elements := by
  induction elements generalizing index with
  | nil => rfl
  | cons element rest ih =>
    rw [substituteAll, AllFillable, AllFillable, each element List.mem_cons_self,
      ih fun element member => each element (List.mem_cons_of_mem _ member)]

theorem isFillable_substitute (argument : Argument) (place : Place) :
    (argument.substitute first place).IsFillable second place ↔
      argument.IsFillable second place := by
  induction argument using Argument.induction generalizing place with
  | uint bits digits | int bits digits | address hex | bool old =>
    unfold substitute
    split <;> rfl
  | fixedBytes length text | bytes text | string text =>
    simp only [substitute, IsFillable, exists_readBytes_substituteText]
  | array element elements ih | fixedArray length element elements ih | tuple elements ih =>
    exact allFillable_substituteAll ih place.element 0

end FuzzBridge.Argument
