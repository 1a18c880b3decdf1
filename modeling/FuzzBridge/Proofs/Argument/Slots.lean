import FuzzBridge.Proofs.Argument.Leaves

/-!
The slots of an argument are the places that a model can write to. What a model writes depends on
the slots alone, and the encoder has one leaf for each of them.
-/

namespace FuzzBridge

inductive SlotKind where
  | uint (bits : UInt16)
  | int (bits : UInt16)
  | address
  | bool
  | byte
  deriving DecidableEq

namespace SlotKind

def bits : SlotKind → Nat
  | .uint bits | .int bits => bits.toNat
  | .address => 160
  | .bool => 1
  | .byte => 8

/-- The number that a slot holds after a value was written to it. A boolean tells zero from the
rest, and every other slot reads the low bits. -/
def written (value : Nat) : SlotKind → Int
  | .uint bits => Number.mask value bits.toNat
  | .int bits => Number.toSigned value bits.toNat
  | .address => Number.mask value 160
  | .bool => (Number.isTrue value).toNat
  | .byte => Number.mask value 8

end SlotKind

structure Slot where
  place : Place
  kind : SlotKind

def Slot.written? (model : Assignment) (slot : Slot) : Option Int :=
  (model.valueAt? slot.place).map slot.kind.written

variable {first second : Assignment}

theorem Slot.written?_congr {place : Place} {kind : SlotKind}
    (h : Slot.written? first ⟨place, kind⟩ = Slot.written? second ⟨place, kind⟩) :
    (first.valueAt? place = none ∧ second.valueAt? place = none) ∨
      ∃ value other, first.valueAt? place = some value ∧ second.valueAt? place = some other ∧
        kind.written value = kind.written other := by
  simp only [written?] at h
  cases assigned : first.valueAt? place with
  | none =>
    rw [assigned, Option.map_none, eq_comm, Option.map_eq_none_iff] at h
    exact .inl ⟨rfl, h⟩
  | some value =>
    rw [assigned, Option.map_some, eq_comm, Option.map_eq_some_iff] at h
    obtain ⟨other, found, same⟩ := h
    exact .inr ⟨value, other, rfl, found, same.symm⟩

namespace Argument

def byteSlots (place : Place) : Nat → List UInt8 → List Slot
  | _, [] => []
  | index, _ :: rest => ⟨place.element index, .byte⟩ :: byteSlots place (index + 1) rest

/-- A text that denotes no bytes has no slot. -/
def textSlots (place : Place) (text : String) : List Slot :=
  match readBytes text with
  | .ok content => byteSlots place 0 content
  | .error _ => []

mutual

def slots (place : Place) : Argument → List Slot
  | .uint bits _ => [⟨place, .uint bits⟩]
  | .int bits _ => [⟨place, .int bits⟩]
  | .address _ => [⟨place, .address⟩]
  | .bool _ => [⟨place, .bool⟩]
  | .fixedBytes _ text | .bytes text | .string text => textSlots place text
  | .array _ elements | .fixedArray _ _ elements | .tuple elements =>
    slotsFrom place.element 0 elements
termination_by structural argument => argument

def slotsFrom (placeOf : Nat → Place) (index : Nat) : List Argument → List Slot
  | [] => []
  | element :: rest => element.slots (placeOf index) ++ slotsFrom placeOf (index + 1) rest
termination_by structural elements => elements

end

theorem textSlots_of_readBytes {text : String} {content : List UInt8}
    (readable : readBytes text = .ok content) (place : Place) :
    textSlots place text = byteSlots place 0 content := by
  rw [textSlots, readable]

/-! Models that write the same to every slot. -/

theorem fillByteList_congr {place : Place} {index : Nat} {bytes : List UInt8}
    (agree : ∀ slot ∈ byteSlots place index bytes, slot.written? first = slot.written? second) :
    fillByteList first place index bytes = fillByteList second place index bytes := by
  induction bytes generalizing index with
  | nil => rfl
  | cons byte rest ih =>
    rw [byteSlots, List.forall_mem_cons] at agree
    rw [fillByteList, fillByteList, ih agree.2]
    obtain ⟨absent, absent'⟩ | ⟨value, other, found, found', same⟩ := Slot.written?_congr agree.1
    · rw [absent, absent']
    · rw [found, found']
      exact congrArg (· :: _) (UInt8.toNat_inj.1 (Int.ofNat_inj.1 same))

theorem substituteText_congr {place : Place} {text : String}
    (agree : ∀ slot ∈ textSlots place text, slot.written? first = slot.written? second) :
    substituteText first place text = substituteText second place text := by
  cases readable : readBytes text with
  | ok content =>
    rw [textSlots_of_readBytes readable] at agree
    rw [substituteText_of_readBytes readable, substituteText_of_readBytes readable,
      fillByteList_congr agree]
  | error fault => simp only [substituteText, readable]

theorem substituteAll_congr {elements : List Argument} {placeOf : Nat → Place} {index : Nat}
    (each : ∀ element ∈ elements, ∀ place,
      (∀ slot ∈ element.slots place, slot.written? first = slot.written? second) →
      element.substitute first place = element.substitute second place)
    (agree : ∀ slot ∈ slotsFrom placeOf index elements,
      slot.written? first = slot.written? second) :
    substituteAll first placeOf index elements = substituteAll second placeOf index elements := by
  induction elements generalizing index with
  | nil => rfl
  | cons element rest ih =>
    rw [slotsFrom, List.forall_mem_append] at agree
    rw [substituteAll, substituteAll, each element List.mem_cons_self _ agree.1,
      ih (fun element member => each element (List.mem_cons_of_mem _ member)) agree.2]

theorem substitute_congr {argument : Argument} {place : Place}
    (agree : ∀ slot ∈ argument.slots place, slot.written? first = slot.written? second) :
    argument.substitute first place = argument.substitute second place := by
  induction argument using Argument.induction generalizing place with
  | uint bits digits =>
    obtain ⟨absent, absent'⟩ | ⟨value, other, found, found', same⟩ :=
      Slot.written?_congr (agree _ List.mem_cons_self)
    · rw [substitute, substitute, absent, absent']
    · have low : Number.mask value bits.toNat = Number.mask other bits.toNat :=
        Int.ofNat_inj.1 same
      simp only [substitute, found, found', low]
  | int bits digits =>
    obtain ⟨absent, absent'⟩ | ⟨value, other, found, found', same⟩ :=
      Slot.written?_congr (agree _ List.mem_cons_self)
    · rw [substitute, substitute, absent, absent']
    · have signed : Number.toSigned value bits.toNat = Number.toSigned other bits.toNat := same
      simp only [substitute, found, found', signed]
  | address hex =>
    obtain ⟨absent, absent'⟩ | ⟨value, other, found, found', same⟩ :=
      Slot.written?_congr (agree _ List.mem_cons_self)
    · rw [substitute, substitute, absent, absent']
    · have low : Number.mask value 160 = Number.mask other 160 := Int.ofNat_inj.1 same
      have shown : Number.toAddress value = Number.toAddress other := by
        rw [← Number.toAddress_mask, low, Number.toAddress_mask]
      simp only [substitute, found, found', shown]
  | bool old =>
    obtain ⟨absent, absent'⟩ | ⟨value, other, found, found', same⟩ :=
      Slot.written?_congr (agree _ List.mem_cons_self)
    · rw [substitute, substitute, absent, absent']
    · have truth : Number.isTrue value = Number.isTrue other := by
        simp only [SlotKind.written] at same
        revert same
        cases Number.isTrue value <;> cases Number.isTrue other <;> decide
      simp only [substitute, found, found', truth]
  | fixedBytes length text | bytes text | string text =>
    simp only [substitute, substituteText_congr agree]
  | array element elements ih | fixedArray length element elements ih | tuple elements ih =>
    have inner := substituteAll_congr (fun element member place => ih element member) agree
    simp only [substitute, inner]

end Argument

/-- The leaf is at the slot and has the pattern of what the model writes there. -/
structure Slot.HasLeaf (model : Assignment) (slot : Slot) (leaf : Leaf) : Prop where
  place : leaf.place = slot.place
  seed : ∀ value, model.valueAt? slot.place = some value →
    leaf.seed = Number.toPattern (slot.kind.written value) leaf.bits

theorem exists_of_mem_left {α β : Type} {relation : α → β → Prop} {left : List α} {right : List β}
    (related : List.Forall₂ relation left right) {element : α} (member : element ∈ left) :
    ∃ other ∈ right, relation element other := by
  induction related with
  | nil => simp at member
  | cons first _ ih =>
    rcases List.mem_cons.1 member with rfl | member
    · exact ⟨_, List.mem_cons_self, first⟩
    · obtain ⟨other, hother, h⟩ := ih member
      exact ⟨other, List.mem_cons_of_mem _ hother, h⟩

namespace Argument

open Encoding (leaves leavesFrom byteLeaves)

variable {model : Assignment} {place : Place} {type : ArgType}

theorem hasLeaf_int {kind : SlotKind} {old filled : Argument} {number : Int} {value : Datum}
    (read : old.datum = .ok (.int number))
    (given : ∀ new, model.valueAt? place = some new → filled.datum = .ok (.int (kind.written new)))
    (kept : model.valueAt? place = none → filled = old) (read' : filled.datum = .ok value)
    (conforms : Conforms type value) :
    List.Forall₂ (Slot.HasLeaf model) [⟨place, kind⟩] (leaves type place value) := by
  obtain ⟨stored, rfl, holds⟩ : ∃ stored, value = .int stored ∧
      ∀ new, model.valueAt? place = some new → stored = kind.written new := by
    cases assigned : model.valueAt? place with
    | none =>
      rw [kept assigned, read] at read'
      exact ⟨number, (Except.ok.inj read').symm, nofun⟩
    | some new =>
      refine ⟨_, Except.ok.inj (read'.symm.trans (given new assigned)), ?_⟩
      rintro _ ⟨rfl⟩
      rfl
  have leaf (bits : Nat) : Slot.HasLeaf model ⟨place, kind⟩ (.ofInt place bits stored) := by
    refine ⟨rfl, fun new assigned => ?_⟩
    rw [Leaf.seed_ofInt, holds new assigned]
    rfl
  cases conforms with
  | uint bits | int bits => exact .cons (leaf bits.toNat) .nil
  | address => exact .cons (leaf 160) .nil

theorem hasLeaf_bytes (model : Assignment) (place : Place) (index : Nat) (bytes : List UInt8) :
    List.Forall₂ (Slot.HasLeaf model) (byteSlots place index bytes)
      (byteLeaves place index (fillByteList model place index bytes)) := by
  induction bytes generalizing index with
  | nil => exact .nil
  | cons byte rest ih =>
    rw [fillByteList]
    refine .cons ⟨rfl, fun value assigned => ?_⟩ (ih (index + 1))
    have pattern : Number.toPattern (SlotKind.byte.written value) 8 = Number.mask value 8 := by
      rw [SlotKind.written, Number.toPattern_natCast, Number.mask_mask]
    rw [assigned]
    exact (UInt8.toNat_ofNat').trans pattern.symm

theorem leaves_seq {values : List Datum} (conforms : Conforms type (.seq values)) :
    ∃ types, List.Forall₂ Conforms types values ∧
      ∀ place, leaves type place (.seq values) = leavesFrom types place.element 0 values := by
  cases conforms with
  | fixedArray count each => exact ⟨_, forall₂_replicate.2 each, fun _ => rfl⟩
  | array each => exact ⟨_, forall₂_replicate.2 each, fun _ => rfl⟩
  | tuple each => exact ⟨_, each, fun _ => rfl⟩

theorem hasLeaf_elements {elements : List Argument}
    (each : ∀ element ∈ elements, ∀ type place value value', element.datum = .ok value →
      (element.substitute model place).datum = .ok value' → Conforms type value' →
      List.Forall₂ (Slot.HasLeaf model) (element.slots place) (leaves type place value'))
    {placeOf : Nat → Place} {index : Nat} {types : List ArgType} {values values' : List Datum}
    (read : data elements = .ok values)
    (read' : data (substituteAll model placeOf index elements) = .ok values')
    (conform : List.Forall₂ Conforms types values') :
    List.Forall₂ (Slot.HasLeaf model) (slotsFrom placeOf index elements)
      (leavesFrom types placeOf index values') := by
  induction elements generalizing index types values values' with
  | nil =>
    obtain rfl := Except.ok.inj read'
    exact .nil
  | cons element rest ih =>
    rw [substituteAll, data_eq_ok] at read'
    rw [data_eq_ok] at read
    cases read with
    | cons first others =>
      cases read' with
      | cons first' others' =>
        cases conform with
        | cons firstConforms othersConform =>
          exact List.rel_append (each element List.mem_cons_self _ _ _ _ first first' firstConforms)
            (ih (fun element member => each element (List.mem_cons_of_mem _ member))
              (data_eq_ok.2 others) (data_eq_ok.2 others') othersConform)

theorem hasLeaf_substitute {argument : Argument} {value value' : Datum}
    (read : argument.datum = .ok value)
    (read' : (argument.substitute model place).datum = .ok value')
    (conforms : Conforms type value') :
    List.Forall₂ (Slot.HasLeaf model) (argument.slots place) (leaves type place value') := by
  induction argument using Argument.induction generalizing type place value value' with
  | uint bits digits =>
    obtain ⟨number, -, rfl⟩ := Result.map_eq_ok.1 read
    refine hasLeaf_int read (fun new assigned => ?_) (fun unassigned => ?_) read' conforms
    · rw [substitute, assigned, datum, readDecimal_toDigits]
      rfl
    · rw [substitute, unassigned]
  | int bits digits =>
    obtain ⟨number, -, rfl⟩ := Result.map_eq_ok.1 read
    refine hasLeaf_int read (fun new assigned => ?_) (fun unassigned => ?_) read' conforms
    · rw [substitute, assigned, datum, readDecimal_decimal]
      rfl
    · rw [substitute, unassigned]
  | address hex =>
    obtain ⟨number, -, denoted⟩ := Result.bind_eq_ok.1 read
    obtain rfl := Result.pure_eq_ok.1 denoted
    refine hasLeaf_int read (fun new assigned => ?_) (fun unassigned => ?_) read' conforms
    · rw [substitute, assigned, datum, readHex_toAddress]
      rfl
    · rw [substitute, unassigned]
  | bool old =>
    cases assigned : model.valueAt? place with
    | none =>
      rw [substitute, assigned, datum] at read'
      obtain rfl := Except.ok.inj read'
      exact .cons ⟨rfl, by simp [assigned]⟩ .nil
    | some new =>
      rw [substitute, assigned, datum] at read'
      obtain rfl := Except.ok.inj read'
      refine .cons ⟨rfl, fun value h => ?_⟩ .nil
      obtain rfl := Option.some.inj (assigned.symm.trans h)
      simp only [SlotKind.written]
      cases Number.isTrue new <;> rfl
  | fixedBytes length text | bytes text | string text =>
    obtain ⟨content, readable, rfl⟩ := Result.map_eq_ok.1 read
    have readable' := readBytes_substituteText readable model place
    rw [substitute, datum, readable'] at read'
    obtain rfl := Except.ok.inj read'
    rw [slots, textSlots_of_readBytes readable]
    exact hasLeaf_bytes model place 0 content
  | array element elements ih | fixedArray length element elements ih | tuple elements ih =>
    obtain ⟨values, readable, rfl⟩ := Result.map_eq_ok.1 read
    obtain ⟨values', readable', rfl⟩ := Result.map_eq_ok.1 read'
    obtain ⟨types, conform, leaves_eq⟩ := leaves_seq conforms
    rw [leaves_eq]
    exact hasLeaf_elements (fun element member type place value value' => ih element member)
      readable readable' conform

theorem map_place_slotsFrom {elements : List Argument} {types : List ArgType} {values : List Datum}
    (read : data elements = .ok values) (conform : List.Forall₂ Conforms types values)
    (placeOf : Nat → Place) (index : Nat) :
    (slotsFrom placeOf index elements).map Slot.place =
      (leavesFrom types placeOf index values).map Leaf.place := by
  have unchanged : substituteAll .empty placeOf index elements = elements :=
    substituteAll_eq_self fun element _ _ => substitute_eq_self (fun _ => rfl) element
  have aligned := hasLeaf_elements
    (fun _ _ _ _ _ _ read read' conforms => hasLeaf_substitute read read' conforms) read
    (unchanged.symm ▸ read) conform
  rw [← List.forall₂_eq_eq_eq, List.forall₂_map_left_iff, List.forall₂_map_right_iff]
  exact aligned.imp fun _ _ h => h.place.symm

end Argument

end FuzzBridge
