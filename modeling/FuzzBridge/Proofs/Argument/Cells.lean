import FuzzBridge.Proofs.Argument.Filling
import FuzzBridge.Proofs.Number.Word

/-!
Filling an argument told cell by cell. A cell is what stands at a path of indices where a model can
write: a scalar, or one character of a byte string. Filling keeps the form of an argument and writes
to each cell what the model gives to its place; it fails exactly if the model has something under a
byte string with a character that is no byte. Looking into an argument only where the model has
something cannot be told from looking everywhere.
-/

namespace FuzzBridge

inductive Cell where
  | uint (bits : UInt16) (digits : String)
  | int (bits : UInt16) (digits : String)
  | address (hex : String)
  | bool (value : Bool)
  | byte (character : Char)

namespace Cell

/-- A number written to a cell, reduced to what the cell can hold. -/
def write (value : Nat) : Cell → Cell
  | .uint bits _ =>
    .uint bits (String.ofList (Nat.toDigits 10 (value % Number.wordCount bits.toNat)))
  | .int bits _ =>
    .int bits (String.ofList (Datum.decimal ((value : Int).bmod (Number.wordCount bits.toNat))))
  | .address _ => .address (Number.toAddress value)
  | .bool _ => .bool (value != 0)
  | .byte _ => .byte (Char.ofNat (value % 256))

def fill (model : Assignment) (place : Place) (cell : Cell) : Cell :=
  match model.valueAt? place with
  | some value => cell.write value
  | none => cell

theorem fill_of_assigned {model : Assignment} {place : Place} {value : Nat}
    (assigned : model.valueAt? place = some value) (cell : Cell) :
    cell.fill model place = cell.write value := by
  rw [fill, assigned]

theorem fill_of_unassigned {model : Assignment} {place : Place}
    (unassigned : model.valueAt? place = none) (cell : Cell) : cell.fill model place = cell := by
  rw [fill, unassigned]

end Cell

namespace Argument

def elements : Argument → List Argument
  | .array _ elements | .fixedArray _ _ elements | .tuple elements => elements
  | _ => []

def text? : Argument → Option String
  | .fixedBytes _ text | .bytes text | .string text => some text
  | _ => none

def componentAt? (argument : Argument) : List Nat → Option Argument
  | [] => some argument
  | index :: path => argument.elements[index]?.bind (·.componentAt? path)

def cellAt? : Argument → List Nat → Option Cell
  | .uint bits digits, [] => some (.uint bits digits)
  | .int bits digits, [] => some (.int bits digits)
  | .address hex, [] => some (.address hex)
  | .bool value, [] => some (.bool value)
  | .fixedBytes _ text, [index] | .bytes text, [index] | .string text, [index] =>
    text.toList[index]?.map .byte
  | .array _ elements, index :: path | .fixedArray _ _ elements, index :: path
  | .tuple elements, index :: path => elements[index]?.bind (·.cellAt? path)
  | _, _ => none
termination_by structural _ path => path

@[simp] theorem componentAt?_nil (argument : Argument) : argument.componentAt? [] = some argument :=
  rfl

@[simp] theorem componentAt?_cons (argument : Argument) (index : Nat) (path : List Nat) :
    argument.componentAt? (index :: path) =
      argument.elements[index]?.bind (·.componentAt? path) := rfl

/-- Arguments of the same kind, with the same declared types, widths and lengths, and with as many
elements and characters. -/
inductive SameForm : Argument → Argument → Prop
  | uint (bits : UInt16) (left right : String) : SameForm (.uint bits left) (.uint bits right)
  | int (bits : UInt16) (left right : String) : SameForm (.int bits left) (.int bits right)
  | address (left right : String) : SameForm (.address left) (.address right)
  | bool (left right : Bool) : SameForm (.bool left) (.bool right)
  | fixedBytes (length : UInt64) {left right : String} (count : left.length = right.length) :
      SameForm (.fixedBytes length left) (.fixedBytes length right)
  | bytes {left right : String} (count : left.length = right.length) :
      SameForm (.bytes left) (.bytes right)
  | string {left right : String} (count : left.length = right.length) :
      SameForm (.string left) (.string right)
  | array (element : ArgType) {left right : List Argument}
      (each : List.Forall₂ SameForm left right) :
      SameForm (.array element left) (.array element right)
  | fixedArray (length : UInt64) (element : ArgType) {left right : List Argument}
      (each : List.Forall₂ SameForm left right) :
      SameForm (.fixedArray length element left) (.fixedArray length element right)
  | tuple {left right : List Argument} (each : List.Forall₂ SameForm left right) :
      SameForm (.tuple left) (.tuple right)

variable {model : Assignment} {place : Place}

/-! Elements and characters by their indices. -/

theorem getElem?_substituteAll (model : Assignment) (placeOf : Nat → Place) (start : Nat)
    (elements : List Argument) (index : Nat) :
    (substituteAll model placeOf start elements)[index]? =
      elements[index]?.map (·.substitute model (placeOf (start + index))) := by
  induction elements generalizing start index with
  | nil => rfl
  | cons element rest ih =>
    cases index with
    | zero => rfl
    | succ index =>
      rw [substituteAll, List.getElem?_cons_succ, List.getElem?_cons_succ, ih, Nat.add_right_comm,
        Nat.add_assoc]

theorem getElem?_fillByteList (model : Assignment) (place : Place) (start : Nat)
    (bytes : List UInt8) (index : Nat) :
    (fillByteList model place start bytes)[index]? = bytes[index]?.map fun byte =>
      match model.valueAt? (place.element (start + index)) with
      | some value => UInt8.ofNat value
      | none => byte := by
  induction bytes generalizing start index with
  | nil => rfl
  | cons byte rest ih =>
    cases index with
    | zero => rfl
    | succ index =>
      rw [fillByteList, List.getElem?_cons_succ, List.getElem?_cons_succ, ih, Nat.add_right_comm,
        Nat.add_assoc]

theorem allFillable_iff {elements : List Argument} {placeOf : Nat → Place} {start : Nat} :
    AllFillable model placeOf start elements ↔ ∀ (index : Nat) (element : Argument),
      elements[index]? = some element → element.IsFillable model (placeOf (start + index)) := by
  induction elements generalizing start with
  | nil => simp [AllFillable]
  | cons element rest ih =>
    rw [AllFillable, ih]
    constructor
    · rintro ⟨first, others⟩ (_ | index) found h
      · obtain rfl := Option.some.inj h
        exact first
      · rw [← Nat.add_assoc, Nat.add_right_comm]
        exact others index found h
    · intro each
      refine ⟨each 0 element rfl, fun index found h => ?_⟩
      rw [Nat.add_right_comm, Nat.add_assoc]
      exact each (index + 1) found h

/-! When filling fails. -/

theorem bytesOfChars_eq_ok_iff {text : List Char} :
    (∃ content, Text.bytesOfChars text = .ok content) ↔ ∀ c ∈ text, c.toNat ≤ 0xFF := by
  induction text with
  | nil => simp [Text.bytesOfChars]
  | cons c rest ih =>
    rw [List.forall_mem_cons, ← ih, Text.bytesOfChars]
    split
    · next byte =>
      constructor
      · rintro ⟨content, h⟩
        obtain ⟨others, hothers, -⟩ := Result.bind_eq_ok.1 h
        exact ⟨by omega, others, hothers⟩
      · rintro ⟨-, others, hothers⟩
        rw [hothers]
        exact ⟨_, rfl⟩
    · next wide =>
      constructor
      · rintro ⟨content, h⟩
        cases h
      · rintro ⟨byte, -⟩
        omega

theorem exists_readBytes_iff {text : String} :
    (∃ content, readBytes text = .ok content) ↔ ∀ c ∈ text.toList, c.toNat ≤ 0xFF := by
  simp only [readBytes_eq_ok, Text.bytesOf, bytesOfChars_eq_ok_iff]

theorem isFillable_iff {argument : Argument} {place : Place} :
    argument.IsFillable model place ↔ ∀ path component text,
      argument.componentAt? path = some component → component.text? = some text →
      model.assignsUnder (place.extend path) = true → ∃ content, readBytes text = .ok content := by
  induction argument using Argument.induction generalizing place with
  | uint bits digits | int bits digits | address hex | bool value =>
    refine ⟨fun _ path component text found textual => ?_, fun _ => trivial⟩
    cases path with
    | nil =>
      obtain rfl := Option.some.inj found
      cases textual
    | cons index path => cases found
  | fixedBytes length text | bytes text | string text =>
    constructor
    · intro fillable path component text' found textual
      cases path with
      | nil =>
        obtain rfl := Option.some.inj found
        obtain rfl := Option.some.inj textual
        rw [Place.extend_nil]
        exact fillable
      | cons index path => cases found
    · intro each
      have here := each [] _ text rfl rfl
      rw [Place.extend_nil] at here
      exact here
  | array element elements ih | fixedArray length element elements ih | tuple elements ih =>
    rw [IsFillable, allFillable_iff]
    constructor
    · intro each path component text found textual
      cases path with
      | nil =>
        obtain rfl := Option.some.inj found
        cases textual
      | cons index path =>
        obtain ⟨element, member, inner⟩ := Option.bind_eq_some_iff.1 found
        have fillable := each index element member
        rw [Nat.zero_add, ih element (List.mem_of_getElem? member)] at fillable
        rw [← Place.extend_element]
        exact fillable path component text inner textual
    · intro each index element member
      rw [Nat.zero_add, ih element (List.mem_of_getElem? member)]
      intro path component text inner textual
      rw [Place.extend_element]
      exact each (index :: path) component text (by simp [Argument.elements, member, inner]) textual

/-! What filling changes. -/

theorem forall₂_substituteAll {elements : List Argument}
    (each : ∀ element ∈ elements, ∀ place, SameForm element (element.substitute model place))
    (placeOf : Nat → Place) (index : Nat) :
    List.Forall₂ SameForm elements (substituteAll model placeOf index elements) := by
  induction elements generalizing index with
  | nil => exact .nil
  | cons element rest ih =>
    exact .cons (each element List.mem_cons_self _)
      (ih (fun element member => each element (List.mem_cons_of_mem _ member)) (index + 1))

theorem length_substituteText (model : Assignment) (place : Place) (text : String) :
    text.length = (substituteText model place text).length := by
  unfold substituteText
  split
  · next content readable =>
    rw [← ofByteList_of_readBytes readable]
    simp [Text.ofByteList, length_fillByteList]
  · rfl

theorem sameForm_substitute (model : Assignment) (place : Place) (argument : Argument) :
    SameForm argument (argument.substitute model place) := by
  induction argument using Argument.induction generalizing place with
  | uint bits digits | int bits digits | address hex | bool value =>
    unfold substitute
    split <;> constructor
  | fixedBytes length text => exact .fixedBytes length (length_substituteText model place text)
  | bytes text => exact .bytes (length_substituteText model place text)
  | string text => exact .string (length_substituteText model place text)
  | array element elements ih =>
    exact .array element (forall₂_substituteAll ih _ _)
  | fixedArray length element elements ih =>
    exact .fixedArray length element (forall₂_substituteAll ih _ _)
  | tuple elements ih =>
    exact .tuple (forall₂_substituteAll ih _ _)

theorem getElem?_substituteText {text : String}
    (fillable : model.assignsUnder place = true → ∃ content, readBytes text = .ok content)
    (index : Nat) :
    (substituteText model place text).toList[index]?.map Cell.byte =
      (text.toList[index]?.map Cell.byte).map (Cell.fill model (place.extend [index])) := by
  cases readable : readBytes text with
  | ok content =>
    rw [substituteText_of_readBytes readable, ← ofByteList_of_readBytes readable]
    simp only [Text.ofByteList, String.toList_ofList, List.getElem?_map, getElem?_fillByteList,
      Option.map_map, Nat.zero_add]
    congr 1
    funext byte
    simp only [Function.comp_apply, Cell.fill, ← Place.element_eq_extend]
    cases model.valueAt? (place.element index) with
    | none => rfl
    | some value => rfl
  | error fault =>
    have closed : model.assignsUnder place = false := by
      rw [← Bool.not_eq_true]
      intro opened
      obtain ⟨content, h⟩ := fillable opened
      rw [h] at readable
      cases readable
    have absent := Assignment.valueAt?_extend_eq_none closed
    rw [substituteText_eq_self absent, Option.map_map]
    congr 1
    funext character
    exact (Cell.fill_of_unassigned (absent [index]) _).symm

theorem cellAt?_substitute {argument : Argument} {place : Place}
    (fillable : argument.IsFillable model place) (path : List Nat) :
    (argument.substitute model place).cellAt? path =
      (argument.cellAt? path).map (Cell.fill model (place.extend path)) := by
  induction argument using Argument.induction generalizing place path with
  | uint bits digits | address hex | bool value =>
    cases assigned : model.valueAt? place <;> cases path <;>
      simp [substitute, cellAt?, Cell.fill, Cell.write, assigned, Number.mask, Number.isTrue]
  | int bits digits =>
    cases assigned : model.valueAt? place <;> cases path <;>
      simp [substitute, cellAt?, Cell.fill, Cell.write, assigned, Number.toSigned_eq_bmod]
  | fixedBytes length text | bytes text | string text =>
    rcases path with _ | ⟨index, _ | ⟨_, _⟩⟩
    · rfl
    · exact getElem?_substituteText fillable index
    · rfl
  | array element elements ih | fixedArray length element elements ih | tuple elements ih =>
    cases path with
    | nil => rfl
    | cons index path =>
      rw [IsFillable, allFillable_iff] at fillable
      simp only [substitute, cellAt?, getElem?_substituteAll, Nat.zero_add]
      cases found : elements[index]? with
      | none => rfl
      | some inner =>
        have here := fillable index inner found
        rw [Nat.zero_add] at here
        rw [Option.map_some, Option.bind_some, Option.bind_some,
          ih inner (List.mem_of_getElem? found) here, Place.extend_element]

/-! Form and cells determine an argument. -/

theorem eq_of_forall₂ {old left right : List Argument}
    (each : ∀ element ∈ old, ∀ left right, SameForm element left → SameForm element right →
      (∀ path, left.cellAt? path = right.cellAt? path) → left = right)
    (hleft : List.Forall₂ SameForm old left) (hright : List.Forall₂ SameForm old right)
    (cells : ∀ (index : Nat) (path : List Nat),
      left[index]?.bind (·.cellAt? path) = right[index]?.bind (·.cellAt? path)) :
    left = right := by
  induction hleft generalizing right with
  | nil =>
    cases hright
    rfl
  | cons first _ ih =>
    cases hright with
    | cons first' rest' =>
      have heads := each _ List.mem_cons_self _ _ first first' fun path => cells 0 path
      have others := ih (fun element member => each element (List.mem_cons_of_mem _ member)) rest'
        fun index path => cells (index + 1) path
      rw [heads, others]

theorem eq_of_getElem?_byte {left right : String}
    (h : ∀ index : Nat, left.toList[index]?.map Cell.byte = right.toList[index]?.map Cell.byte) :
    left = right := by
  apply String.toList_injective
  apply List.ext_getElem?
  intro index
  exact Option.map_injective (fun _ _ same => Cell.byte.inj same) (h index)

theorem eq_of_cells {old left right : Argument} (hleft : SameForm old left)
    (hright : SameForm old right) (cells : ∀ path, left.cellAt? path = right.cellAt? path) :
    left = right := by
  induction old using Argument.induction generalizing left right with
  | uint bits digits | int bits digits | address hex | bool value =>
    cases hleft
    cases hright
    have here := Option.some.inj (cells [])
    cases here
    rfl
  | fixedBytes length text | bytes text | string text =>
    cases hleft
    cases hright
    rw [eq_of_getElem?_byte fun index => cells [index]]
  | array element elements ih | fixedArray length element elements ih | tuple elements ih =>
    cases hleft
    cases hright
    rename_i left each right each'
    rw [eq_of_forall₂ (fun element member left right => ih element member) each each'
      fun index path => cells (index :: path)]

theorem not_isFillable_iff {argument : Argument} :
    ¬ argument.IsFillable model place ↔ ∃ path component text,
      argument.componentAt? path = some component ∧ component.text? = some text ∧
        (∃ c ∈ text.toList, 0xFF < c.toNat) ∧
        ∃ name, (place.extend path).Covers name ∧ (model.value? name).isSome := by
  simp only [isFillable_iff, exists_readBytes_iff, Assignment.assignsUnder_iff, not_forall,
    exists_prop, Nat.not_le]
  grind

theorem fill_eq_error_iff {argument : Argument} :
    (∃ fault, argument.fill model place = .error fault) ↔ ¬ argument.IsFillable model place := by
  constructor
  · rintro ⟨fault, failed⟩ fillable
    rw [fill_eq_ok.2 ⟨fillable, rfl⟩] at failed
    cases failed
  · intro closed
    cases done : argument.fill model place with
    | ok filled => exact absurd (fill_eq_ok.1 done).1 closed
    | error fault => exact ⟨fault, rfl⟩

theorem substitute_congr_cells {argument : Argument} {other : Assignment}
    (fillable : argument.IsFillable model place) (fillable' : argument.IsFillable other place)
    (agree : ∀ path, (argument.cellAt? path).isSome →
      model.valueAt? (place.extend path) = other.valueAt? (place.extend path)) :
    argument.substitute model place = argument.substitute other place := by
  apply eq_of_cells (sameForm_substitute model place argument)
    (sameForm_substitute other place argument)
  intro path
  rw [cellAt?_substitute fillable, cellAt?_substitute fillable']
  cases cell : argument.cellAt? path with
  | none => rfl
  | some old =>
    have same := agree path (by simp [cell])
    rw [Option.map_some, Option.map_some, Cell.fill, Cell.fill, same]

/-- Filling an argument substitutes its cells. It fails exactly if a byte string with a character
that is no byte has, in the model, a value at its place or at a name that goes on below it.
Otherwise the form stays, and each cell holds what the model gives to its place, or what it held
before. Models that give the same to the cells have the same result, whatever else they name. -/
theorem fill_substitutes_cells (argument : Argument) (place : Place) (model : Assignment) :
    ((∃ fault, argument.fill model place = .error fault) ↔
      ∃ path component text,
        argument.componentAt? path = some component ∧ component.text? = some text ∧
          (∃ c ∈ text.toList, 0xFF < c.toNat) ∧
          ∃ name, (place.extend path).Covers name ∧ (model.value? name).isSome) ∧
      (∀ filled, argument.fill model place = .ok filled →
        SameForm argument filled ∧ ∀ path, filled.cellAt? path =
          (argument.cellAt? path).map (Cell.fill model (place.extend path))) ∧
      ∀ (other : Assignment) (left right : Argument),
        (∀ path, (argument.cellAt? path).isSome →
          model.valueAt? (place.extend path) = other.valueAt? (place.extend path)) →
        argument.fill model place = .ok left → argument.fill other place = .ok right →
        left = right := by
  refine ⟨fill_eq_error_iff.trans not_isFillable_iff, ?_, ?_⟩
  · intro filled done
    obtain ⟨fillable, rfl⟩ := fill_eq_ok.1 done
    exact ⟨sameForm_substitute model place argument, cellAt?_substitute fillable⟩
  · intro other left right agree done done'
    obtain ⟨fillable, rfl⟩ := fill_eq_ok.1 done
    obtain ⟨fillable', rfl⟩ := fill_eq_ok.1 done'
    exact substitute_congr_cells fillable fillable' agree

end Argument

end FuzzBridge
