import FuzzBridge.Proofs.Argument.Substitution
import FuzzBridge.Proofs.Encoding.Terms
import FuzzBridge.Proofs.Number.Word

/-!
The leaves of a substituted argument are the leaves of the argument, each filled by the model, and a
model that gives every leaf its own seed leaves a canonical argument as it is.
-/

namespace FuzzBridge.Argument

open Encoding (leaves leavesFrom byteLeaves leaves_address)

mutual

/-- The elements of an array are of the type that the array declares for them. -/
def IsUniform : Argument → Prop
  | .array element elements | .fixedArray _ element elements =>
    (∀ argument ∈ elements, argument.type = element) ∧ AllUniform elements
  | .tuple elements => AllUniform elements
  | _ => True
termination_by structural argument => argument

def AllUniform : List Argument → Prop
  | [] => True
  | element :: rest => element.IsUniform ∧ AllUniform rest
termination_by structural elements => elements

end

mutual

/-- Integers are in their shortest form and in the range of their type, and addresses have all their
digits. -/
def IsCanonical : Argument → Prop
  | .uint bits digits => Number.IsShortestDecimal digits ∧
    ∃ value, readDecimal digits = .ok value ∧ 0 ≤ value ∧ value < Number.wordCount bits.toNat
  | .int bits digits => Number.IsShortestDecimal digits ∧
    ∃ value, readDecimal digits = .ok value ∧ -(Number.wordCount bits.toNat : Int) ≤ 2 * value ∧
      2 * value < Number.wordCount bits.toNat
  | .address hex => Number.IsAddressText hex
  | .array _ elements | .fixedArray _ _ elements | .tuple elements => AllCanonical elements
  | _ => True
termination_by structural argument => argument

def AllCanonical : List Argument → Prop
  | [] => True
  | element :: rest => element.IsCanonical ∧ AllCanonical rest
termination_by structural elements => elements

end

theorem types_of_uniform {element : ArgType} {elements : List Argument}
    (h : ∀ argument ∈ elements, argument.type = element) :
    types elements = List.replicate elements.length element := by
  rw [types_eq_map, List.eq_replicate_iff, List.length_map]
  refine ⟨rfl, ?_⟩
  intro type member
  obtain ⟨argument, hargument, rfl⟩ := List.mem_map.1 member
  exact h argument hargument

theorem length_of_data {elements : List Argument} {values : List Datum}
    (read : data elements = .ok values) : values.length = elements.length :=
  (data_eq_ok.1 read).length_eq.symm

theorem length_substituteAll (model : Assignment) (placeOf : Nat → Place) (index : Nat)
    (elements : List Argument) :
    (substituteAll model placeOf index elements).length = elements.length := by
  induction elements generalizing index with
  | nil => rfl
  | cons element rest ih => rw [substituteAll, List.length_cons, List.length_cons, ih]

theorem leavesFrom_replicate {element : ArgType} {elements : List Argument}
    (h : ∀ argument ∈ elements, argument.type = element) {values : List Datum}
    (length : values.length = elements.length) (placeOf : Nat → Place) (index : Nat) :
    leavesFrom (List.replicate values.length element) placeOf index values =
      leavesFrom (types elements) placeOf index values := by
  rw [types_of_uniform h, length]

theorem byteLeaves_fillByteList (model : Assignment) (place : Place) (index : Nat)
    (bytes : List UInt8) :
    byteLeaves place index (fillByteList model place index bytes) =
      (byteLeaves place index bytes).map (Leaf.fill model) := by
  induction bytes generalizing index with
  | nil => rfl
  | cons byte rest ih =>
    rw [fillByteList, byteLeaves, byteLeaves, List.map_cons, ih]
    refine congrArg (· :: _) ?_
    cases assigned : model.valueAt? (place.element index) with
    | some value =>
      rw [Leaf.fill_of_assigned assigned rfl]
      exact Leaf.ext rfl rfl UInt8.toNat_ofNat'
    | none => rw [Leaf.fill_of_unassigned assigned rfl]

theorem leavesFrom_substituteAll {elements : List Argument} {model : Assignment}
    (each : ∀ element ∈ elements, element.IsUniform → ∀ place value value',
      element.datum = .ok value → (element.substitute model place).datum = .ok value' →
      (∀ leaf ∈ leaves element.type place value, leaf.HasRoomFor model) →
      leaves element.type place value' = (leaves element.type place value).map (Leaf.fill model))
    (uniform : AllUniform elements) {placeOf : Nat → Place} {index : Nat}
    {values values' : List Datum} (read : data elements = .ok values)
    (read' : data (substituteAll model placeOf index elements) = .ok values')
    (room : ∀ leaf ∈ leavesFrom (types elements) placeOf index values, leaf.HasRoomFor model) :
    leavesFrom (types elements) placeOf index values' =
      (leavesFrom (types elements) placeOf index values).map (Leaf.fill model) := by
  induction elements generalizing index values values' with
  | nil =>
    obtain rfl := Except.ok.inj read
    obtain rfl := Except.ok.inj read'
    rfl
  | cons element rest ih =>
    rw [substituteAll, data_eq_ok] at read'
    rw [data_eq_ok] at read
    cases read with
    | cons first others =>
      cases read' with
      | cons first' others' =>
        rw [types, leavesFrom, List.forall_mem_append] at room
        rw [types, leavesFrom, leavesFrom, List.map_append,
          each element (by simp) uniform.1 _ _ _ first first' room.1,
          ih (fun element member => each element (List.mem_cons_of_mem _ member)) uniform.2
            (data_eq_ok.2 others) (data_eq_ok.2 others') room.2]

theorem ofInt_eq_fill {model : Assignment} {place : Place} {assigned bits : Nat}
    (h : model.valueAt? place = some assigned) {filled : Int}
    (pattern : Number.toPattern filled bits = Number.mask assigned bits) (old : Int) :
    Leaf.ofInt place bits filled = (Leaf.ofInt place bits old).fill model := by
  rw [Leaf.fill_of_assigned h rfl]
  exact Leaf.ext rfl rfl pattern

theorem leaves_substitute {argument : Argument} (uniform : argument.IsUniform) {model : Assignment}
    {place : Place} {value value' : Datum} (read : argument.datum = .ok value)
    (read' : (argument.substitute model place).datum = .ok value')
    (room : ∀ leaf ∈ leaves argument.type place value, leaf.HasRoomFor model) :
    leaves argument.type place value' =
      (leaves argument.type place value).map (Leaf.fill model) := by
  induction argument using Argument.induction generalizing place value value' with
  | uint bits digits =>
    obtain ⟨number, -, rfl⟩ := Result.map_eq_ok.1 read
    rw [type, leaves, List.map_singleton]
    cases assigned : model.valueAt? place with
    | none =>
      rw [substitute, assigned, read] at read'
      obtain rfl := Except.ok.inj read'
      rw [leaves, Leaf.fill_of_unassigned assigned rfl]
    | some new =>
      rw [substitute, assigned, datum, readDecimal_toDigits] at read'
      obtain rfl := Except.ok.inj read'
      rw [leaves, ofInt_eq_fill assigned _ number]
      rw [Number.toPattern_natCast, Number.mask_mask]
  | int bits digits =>
    obtain ⟨number, -, rfl⟩ := Result.map_eq_ok.1 read
    rw [type, leaves, List.map_singleton]
    cases assigned : model.valueAt? place with
    | none =>
      rw [substitute, assigned, read] at read'
      obtain rfl := Except.ok.inj read'
      rw [leaves, Leaf.fill_of_unassigned assigned rfl]
    | some new =>
      rw [substitute, assigned, datum, readDecimal_decimal] at read'
      obtain rfl := Except.ok.inj read'
      rw [leaves, ofInt_eq_fill assigned (Number.toPattern_toSigned new bits.toNat) number]
  | address hex =>
    obtain ⟨number, -, denoted⟩ := Result.bind_eq_ok.1 read
    obtain rfl := Result.pure_eq_ok.1 denoted
    rw [type, leaves_address, List.map_singleton]
    cases assigned : model.valueAt? place with
    | none =>
      rw [substitute, assigned, read] at read'
      obtain rfl := Except.ok.inj read'
      rw [leaves_address, Leaf.fill_of_unassigned assigned rfl]
    | some new =>
      rw [substitute, assigned, datum, readHex_toAddress] at read'
      obtain rfl := Except.ok.inj read'
      rw [leaves_address, ofInt_eq_fill assigned _ (number : Int)]
      rw [Number.toPattern_natCast, Number.mask_mask]
  | bool old =>
    obtain rfl := Except.ok.inj read
    rw [type, leaves, List.map_singleton]
    cases assigned : model.valueAt? place with
    | none =>
      rw [substitute, assigned, datum] at read'
      obtain rfl := Except.ok.inj read'
      rw [leaves, Leaf.fill_of_unassigned assigned rfl]
    | some new =>
      rw [substitute, assigned, datum] at read'
      obtain rfl := Except.ok.inj read'
      have small : new < 2 := room (.ofBool place old) (by simp [leaves]) new assigned
      rw [leaves, Leaf.fill_of_assigned assigned rfl]
      refine congrArg ([·]) (Leaf.ext rfl rfl ?_)
      obtain rfl | rfl : new = 0 ∨ new = 1 := by omega
      · rfl
      · rfl
  | fixedBytes length text | bytes text | string text =>
    obtain ⟨content, readable, rfl⟩ := Result.map_eq_ok.1 read
    have readable' := readBytes_substituteText readable model place
    rw [substitute, datum, readable'] at read'
    obtain rfl := Except.ok.inj read'
    exact byteLeaves_fillByteList model place 0 content
  | array element elements ih | fixedArray length element elements ih =>
    obtain ⟨values, readable, rfl⟩ := Result.map_eq_ok.1 read
    obtain ⟨values', readable', rfl⟩ := Result.map_eq_ok.1 read'
    have count := length_of_data readable
    have count' := (length_of_data readable').trans (length_substituteAll model _ 0 elements)
    rw [type, leaves, leavesFrom_replicate uniform.1 count] at room
    rw [type, leaves, leaves, leavesFrom_replicate uniform.1 count,
      leavesFrom_replicate uniform.1 count']
    exact leavesFrom_substituteAll
      (fun element member uniform place value value' => ih element member uniform) uniform.2
      readable readable' room
  | tuple elements ih =>
    obtain ⟨values, readable, rfl⟩ := Result.map_eq_ok.1 read
    obtain ⟨values', readable', rfl⟩ := Result.map_eq_ok.1 read'
    rw [type, leaves] at room
    rw [type, leaves, leaves]
    exact leavesFrom_substituteAll
      (fun element member uniform place value value' => ih element member uniform) uniform
      readable readable' room

/-! Canonical arguments. -/

theorem fillByteList_own {model : Assignment} {place : Place} {index : Nat} {bytes : List UInt8}
    (own : model.Holds (byteLeaves place index bytes)) :
    fillByteList model place index bytes = bytes := by
  induction bytes generalizing index with
  | nil => rfl
  | cons byte rest ih =>
    rw [byteLeaves, Assignment.holds_cons] at own
    have first : model.valueAt? (place.element index) = some byte.toNat := own.1
    rw [fillByteList, first, ih own.2]
    exact congrArg (· :: rest) UInt8.ofNat_toNat

theorem substituteAll_own {elements : List Argument} {model : Assignment}
    (each : ∀ element ∈ elements, element.IsUniform → element.IsCanonical →
      ∀ place value, element.datum = .ok value →
      model.Holds (leaves element.type place value) →
      element.substitute model place = element)
    (uniform : AllUniform elements) (canonical : AllCanonical elements) {placeOf : Nat → Place}
    {index : Nat} {values : List Datum} (read : data elements = .ok values)
    (own : model.Holds (leavesFrom (types elements) placeOf index values)) :
    substituteAll model placeOf index elements = elements := by
  induction elements generalizing index values with
  | nil => rfl
  | cons element rest ih =>
    rw [data_eq_ok] at read
    cases read with
    | cons first others =>
      rw [types, leavesFrom, Assignment.holds_append] at own
      rw [substituteAll, each element (by simp) uniform.1 canonical.1 _ _ first own.1,
        ih (fun element member => each element (List.mem_cons_of_mem _ member)) uniform.2
          canonical.2 (data_eq_ok.2 others) own.2]

theorem substitute_own {argument : Argument} (uniform : argument.IsUniform)
    (canonical : argument.IsCanonical) {model : Assignment} {place : Place} {value : Datum}
    (read : argument.datum = .ok value)
    (own : model.Holds (leaves argument.type place value)) :
    argument.substitute model place = argument := by
  induction argument using Argument.induction generalizing place value with
  | uint bits digits =>
    obtain ⟨shortest, number, denoted, low, high⟩ := canonical
    rw [datum, denoted] at read
    obtain rfl := Except.ok.inj read
    rw [type, leaves, Assignment.holds_singleton, Leaf.place_ofInt, Leaf.seed_ofInt] at own
    obtain ⟨magnitude, rfl⟩ := Int.eq_ofNat_of_zero_le low
    rw [Number.toPattern_natCast] at own
    simp only [substitute, own, Number.mask_of_lt (Int.ofNat_lt.1 high)]
    exact congrArg (Argument.uint bits)
      (Number.decimal_of_isShortestDecimal shortest (readDecimal_eq_ok.1 denoted))
  | int bits digits =>
    obtain ⟨shortest, number, denoted, low, high⟩ := canonical
    rw [datum, denoted] at read
    obtain rfl := Except.ok.inj read
    rw [type, leaves, Assignment.holds_singleton, Leaf.place_ofInt, Leaf.seed_ofInt] at own
    simp only [substitute, own, Number.toSigned_toPattern,
      Number.bmod_wordCount_of_range low high]
    exact congrArg (Argument.int bits)
      (Number.decimal_of_isShortestDecimal shortest (readDecimal_eq_ok.1 denoted))
  | address hex =>
    obtain ⟨number, denoted, pure_eq⟩ := Result.bind_eq_ok.1 read
    obtain rfl := Result.pure_eq_ok.1 pure_eq
    rw [type, leaves_address, Assignment.holds_singleton, Leaf.place_ofInt, Leaf.seed_ofInt,
      Number.toPattern_natCast] at own
    simp only [substitute, own, Number.toAddress_mask]
    exact congrArg Argument.address
      (Number.toAddress_of_isAddressText canonical (readHex_eq_ok.1 denoted))
  | bool old =>
    obtain rfl := Except.ok.inj read
    rw [type, leaves, Assignment.holds_singleton, Leaf.place_ofBool, Leaf.seed_ofBool] at own
    rw [substitute, own]
    cases old
    · rfl
    · rfl
  | fixedBytes length text | bytes text | string text =>
    obtain ⟨content, readable, rfl⟩ := Result.map_eq_ok.1 read
    rw [type, leaves] at own
    simp only [substitute, substituteText, readable, fillByteList_own own,
      ofByteList_of_readBytes readable]
  | array element elements ih | fixedArray length element elements ih =>
    obtain ⟨values, readable, rfl⟩ := Result.map_eq_ok.1 read
    rw [type, leaves, leavesFrom_replicate uniform.1 (length_of_data readable)] at own
    rw [substitute, substituteAll_own
      (fun element member uniform canonical place value => ih element member uniform canonical)
      uniform.2 canonical readable own]
  | tuple elements ih =>
    obtain ⟨values, readable, rfl⟩ := Result.map_eq_ok.1 read
    rw [type, leaves] at own
    rw [substitute, substituteAll_own
      (fun element member uniform canonical place value => ih element member uniform canonical)
      uniform canonical readable own]

end FuzzBridge.Argument
