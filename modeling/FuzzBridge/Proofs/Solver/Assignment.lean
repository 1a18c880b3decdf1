import Mathlib.Data.List.Nodup
import FuzzBridge.Proofs.Solver.Scope

/-!
Declaring the leaves of a transaction, overriding their values by a model, and asking a model for
what is below a place.
-/

namespace FuzzBridge

/-- A variable of a transaction: its place, its width and the value that it is declared with. -/
@[ext] structure Leaf where
  place : Place
  bits : Nat
  seed : Nat
  fits : seed < Number.wordCount bits

namespace Leaf

def ofValue (place : Place) (bits value : Nat) : Leaf :=
  ⟨place, bits, Number.mask value bits, Number.mask_lt value bits⟩

@[simp] theorem place_ofValue (place : Place) (bits value : Nat) :
    (ofValue place bits value).place = place := rfl

@[simp] theorem bits_ofValue (place : Place) (bits value : Nat) :
    (ofValue place bits value).bits = bits := rfl

@[simp] theorem seed_ofValue (place : Place) (bits value : Nat) :
    (ofValue place bits value).seed = Number.mask value bits := rfl

def ofInt (place : Place) (bits : Nat) (value : Int) : Leaf :=
  ⟨place, bits, Number.toPattern value bits, Number.toPattern_lt value bits⟩

def ofBool (place : Place) (value : Bool) : Leaf :=
  ⟨place, 1, value.toNat, Bool.toNat_lt value⟩

def ofByte (place : Place) (byte : UInt8) : Leaf :=
  ⟨place, 8, byte.toNat, byte.toNat_lt⟩

@[simp] theorem place_ofInt (place : Place) (bits : Nat) (value : Int) :
    (ofInt place bits value).place = place := rfl

@[simp] theorem place_ofBool (place : Place) (value : Bool) : (ofBool place value).place = place :=
  rfl

@[simp] theorem place_ofByte (place : Place) (byte : UInt8) : (ofByte place byte).place = place :=
  rfl

@[simp] theorem seed_ofInt (place : Place) (bits : Nat) (value : Int) :
    (ofInt place bits value).seed = Number.toPattern value bits := rfl

@[simp] theorem seed_ofBool (place : Place) (value : Bool) :
    (ofBool place value).seed = value.toNat := rfl

@[simp] theorem seed_ofByte (place : Place) (byte : UInt8) :
    (ofByte place byte).seed = byte.toNat := rfl

def name (leaf : Leaf) : String := leaf.place.name

def site (leaf : Leaf) : Place × Nat := (leaf.place, leaf.bits)

theorem site_ofByte (place : Place) (byte : UInt8) : (ofByte place byte).site = (place, 8) := rfl

/-- What a model gives to the leaf, if anything, is a value of its width. -/
def HasRoomFor (leaf : Leaf) (model : Assignment) : Prop :=
  ∀ value, model.valueAt? leaf.place = some value → value < Number.wordCount leaf.bits

/-- The value that a model gives to the place, reduced to the width, is the new seed. -/
def fill (model : Assignment) (leaf : Leaf) : Leaf :=
  match model.valueAt? leaf.place with
  | some value => ofValue leaf.place leaf.bits value
  | none => leaf

@[simp] theorem place_fill (model : Assignment) (leaf : Leaf) :
    (leaf.fill model).place = leaf.place := by
  unfold fill
  split <;> rfl

@[simp] theorem bits_fill (model : Assignment) (leaf : Leaf) :
    (leaf.fill model).bits = leaf.bits := by
  unfold fill
  split <;> rfl

@[simp] theorem name_fill (model : Assignment) (leaf : Leaf) :
    (leaf.fill model).name = leaf.name := by
  simp [name]

theorem fill_of_assigned {model : Assignment} {leaf : Leaf} {place : Place} {value : Nat}
    (assigned : model.valueAt? place = some value) (h : leaf.place = place) :
    leaf.fill model = ofValue place leaf.bits value := by
  rw [fill, h, assigned]

theorem fill_of_unassigned {model : Assignment} {leaf : Leaf} {place : Place}
    (unassigned : model.valueAt? place = none) (h : leaf.place = place) :
    leaf.fill model = leaf := by
  rw [fill, h, unassigned]

theorem ofValue_mask (place : Place) (bits value : Nat) :
    ofValue place bits (Number.mask value bits) = ofValue place bits value :=
  Leaf.ext rfl rfl (Number.mask_mask value bits)

theorem fill_ofValue (model : Assignment) (place : Place) (bits value : Nat) :
    (ofValue place bits value).fill model =
      ofValue place bits ((model.valueAt? place).getD value) := by
  cases assigned : model.valueAt? place with
  | some new => rw [fill_of_assigned assigned rfl, Option.getD_some, bits_ofValue]
  | none => rw [fill_of_unassigned assigned rfl, Option.getD_none]

theorem fill_eq_self {model : Assignment} {leaf : Leaf}
    (h : model.valueAt? leaf.place = some leaf.seed) : leaf.fill model = leaf := by
  obtain ⟨place, bits, seed, fits⟩ := leaf
  simp [fill, h, ofValue, Number.mask_of_lt fits]

theorem nodup_name {leaves : List Leaf} {transaction : String}
    (nodup : (leaves.map Leaf.place).Nodup)
    (same : ∀ leaf ∈ leaves, leaf.place.transaction = transaction) :
    (leaves.map Leaf.name).Nodup := by
  have names : leaves.map Leaf.name = (leaves.map Leaf.place).map Place.name := by
    rw [List.map_map]
    rfl
  rw [names]
  refine List.Nodup.map_on ?_ nodup
  intro left hleft right hright equal
  obtain ⟨leftLeaf, leftMember, rfl⟩ := List.mem_map.1 hleft
  obtain ⟨rightLeaf, rightMember, rfl⟩ := List.mem_map.1 hright
  refine Place.name_injective ?_ equal
  rw [same leftLeaf leftMember, same rightLeaf rightMember]

end Leaf

namespace Assignment

def declare (assignment : Assignment) (leaves : List Leaf) : Assignment :=
  leaves.foldl (fun assignment leaf => assignment.setAt leaf.place leaf.seed leaf.bits) assignment

@[simp] theorem declare_nil (assignment : Assignment) : assignment.declare [] = assignment := rfl

theorem declare_cons (assignment : Assignment) (leaf : Leaf) (leaves : List Leaf) :
    assignment.declare (leaf :: leaves) =
      (assignment.setAt leaf.place leaf.seed leaf.bits).declare leaves := rfl

theorem declare_append (assignment : Assignment) (left right : List Leaf) :
    assignment.declare (left ++ right) = (assignment.declare left).declare right :=
  List.foldl_append

theorem declare_ofValue_cons (assignment : Assignment) (place : Place) (value bits : Nat)
    (leaves : List Leaf) :
    assignment.declare (.ofValue place bits value :: leaves) =
      (assignment.setAt place value bits).declare leaves := by
  simp [declare_cons, setAt, set, Leaf.ofValue]

theorem find?_setAt_self (assignment : Assignment) (leaf : Leaf) :
    (assignment.setAt leaf.place leaf.seed leaf.bits).table.find? leaf.name =
      some ⟨leaf.bits, some leaf.seed⟩ := by
  simp [setAt, set, Leaf.name, Number.mask_of_lt leaf.fits]

theorem find?_declare_of_ne {leaves : List Leaf} {name : String}
    (h : ∀ leaf ∈ leaves, leaf.name ≠ name) (assignment : Assignment) :
    (assignment.declare leaves).table.find? name = assignment.table.find? name := by
  induction leaves generalizing assignment with
  | nil => rfl
  | cons leaf rest ih =>
    have differ : name ≠ leaf.place.name := (h leaf (by simp)).symm
    rw [declare_cons, ih fun leaf member => h leaf (List.mem_cons_of_mem _ member)]
    simp [setAt, set, Table.find?_insert_of_ne _ differ]

theorem find?_declare_of_mem {leaves : List Leaf} (nodup : (leaves.map Leaf.name).Nodup)
    {leaf : Leaf} (member : leaf ∈ leaves) (assignment : Assignment) :
    (assignment.declare leaves).table.find? leaf.name = some ⟨leaf.bits, some leaf.seed⟩ := by
  induction leaves generalizing assignment with
  | nil => simp at member
  | cons first rest ih =>
    rw [List.map_cons, List.nodup_cons] at nodup
    rw [declare_cons]
    rcases List.mem_cons.1 member with rfl | member
    · rw [find?_declare_of_ne, find?_setAt_self]
      intro other hother same
      exact nodup.1 (same ▸ List.mem_map_of_mem hother)
    · exact ih nodup.2 member _

def Holds (assignment : Assignment) (leaves : List Leaf) : Prop :=
  ∀ leaf ∈ leaves, assignment.valueAt? leaf.place = some leaf.seed

theorem holds_cons {assignment : Assignment} {leaf : Leaf} {leaves : List Leaf} :
    assignment.Holds (leaf :: leaves) ↔
      assignment.valueAt? leaf.place = some leaf.seed ∧ assignment.Holds leaves :=
  List.forall_mem_cons

theorem holds_singleton {assignment : Assignment} {leaf : Leaf} :
    assignment.Holds [leaf] ↔ assignment.valueAt? leaf.place = some leaf.seed :=
  List.forall_mem_singleton

theorem holds_append {assignment : Assignment} {left right : List Leaf} :
    assignment.Holds (left ++ right) ↔ assignment.Holds left ∧ assignment.Holds right :=
  List.forall_mem_append

theorem holds_declare {leaves : List Leaf} (nodup : (leaves.map Leaf.name).Nodup)
    (assignment : Assignment) : (assignment.declare leaves).Holds leaves := by
  intro leaf member
  rw [valueAt?, value?, ← Leaf.name, find?_declare_of_mem nodup member, Option.bind_some]

theorem width?_declare_of_mem {leaves : List Leaf} (nodup : (leaves.map Leaf.name).Nodup)
    {leaf : Leaf} (member : leaf ∈ leaves) (assignment : Assignment) :
    (assignment.declare leaves).width? leaf.name = some leaf.bits := by
  rw [width?, find?_declare_of_mem nodup member, Option.map_some]

theorem mem_names_setAt (assignment : Assignment) (place : Place) (value bits : Nat)
    (name : String) :
    name ∈ (assignment.setAt place value bits).names ↔
      name = place.name ∨ name ∈ assignment.names := by
  simp only [names, Table.mem_keys_iff]
  by_cases same : name = place.name
  · simp [setAt, set, same]
  · simp [setAt, set, Table.find?_insert_of_ne _ same, same]

theorem mem_names_declare (assignment : Assignment) (leaves : List Leaf) (name : String) :
    name ∈ (assignment.declare leaves).names ↔
      name ∈ leaves.map Leaf.name ∨ name ∈ assignment.names := by
  induction leaves generalizing assignment with
  | nil => simp
  | cons leaf rest ih =>
    rw [declare_cons, ih, mem_names_setAt, List.map_cons, List.mem_cons, ← Leaf.name,
      or_left_comm, or_assoc]

theorem find?_declare_empty {leaves : List Leaf} (nodup : (leaves.map Leaf.name).Nodup)
    {name : String} {entry : Variable} :
    (empty.declare leaves).table.find? name = some entry ↔
      ∃ leaf ∈ leaves, leaf.name = name ∧ entry = ⟨leaf.bits, some leaf.seed⟩ := by
  constructor
  · intro found
    by_cases declared : ∃ leaf ∈ leaves, leaf.name = name
    · obtain ⟨leaf, member, rfl⟩ := declared
      rw [find?_declare_of_mem nodup member] at found
      exact ⟨leaf, member, rfl, (Option.some.inj found).symm⟩
    · rw [find?_declare_of_ne fun leaf member same => declared ⟨leaf, member, same⟩] at found
      cases found
  · rintro ⟨leaf, member, rfl, rfl⟩
    exact find?_declare_of_mem nodup member _

theorem nodup_names (assignment : Assignment) : assignment.names.Nodup := by
  unfold names Table.keys
  rw [List.Nodup, List.pairwise_map]
  refine assignment.table.sorted.imp ?_
  intro left right less same
  exact String.lt_irrefl _ (same ▸ less)

theorem size_declare {leaves : List Leaf} (nodup : (leaves.map Leaf.name).Nodup) :
    (empty.declare leaves).size = leaves.length := by
  have names : (empty.declare leaves).names.Perm (leaves.map Leaf.name) := by
    refine (List.perm_ext_iff_of_nodup (nodup_names _) nodup).2 fun name => ?_
    rw [mem_names_declare]
    exact or_iff_left List.not_mem_nil
  have length := names.length_eq
  rwa [Assignment.names, Table.keys, List.length_map, List.length_map] at length

/-- The values of `model` where it has any, the seeds elsewhere. -/
def override (seeds model : Assignment) : Assignment :=
  ⟨⟨seeds.table.entries.map fun entry =>
      (entry.1, { entry.2 with value := (model.value? entry.1).or entry.2.value }),
    List.pairwise_map.2 seeds.table.sorted⟩⟩

theorem value?_override (seeds model : Assignment) (name : String) :
    (seeds.override model).value? name =
      (seeds.table.find? name).bind fun entry => (model.value? name).or entry.value := by
  unfold value? override Table.find?
  rw [List.find?_map, Function.comp_def]
  cases found : seeds.table.entries.find? (fun entry => entry.1 == name) with
  | none => simp
  | some entry =>
    have same : entry.1 = name := by simpa using List.find?_some found
    simp [same]
    rfl

theorem valueAt?_override_declare {leaves : List Leaf} (nodup : (leaves.map Leaf.name).Nodup)
    {leaf : Leaf} (member : leaf ∈ leaves) {model : Assignment} (room : leaf.HasRoomFor model)
    (assignment : Assignment) :
    ((assignment.declare leaves).override model).valueAt? leaf.place =
      some (leaf.fill model).seed := by
  rw [valueAt?, value?_override, ← Leaf.name, find?_declare_of_mem nodup member, Option.bind_some]
  rw [Leaf.name, ← valueAt?]
  cases assigned : model.valueAt? leaf.place with
  | some value =>
    rw [Leaf.fill_of_assigned assigned rfl, Option.some_or]
    exact congrArg some (Number.mask_of_lt (room value assigned)).symm
  | none => rw [Leaf.fill_of_unassigned assigned rfl, Option.none_or]

theorem valueAt?_extend_eq_none {model : Assignment} {place : Place}
    (h : model.assignsUnder place = false) (path : List Nat) :
    model.valueAt? (place.extend path) = none := by
  rw [← Option.not_isSome_iff_eq_none]
  intro assigned
  have found := assignsUnder_iff.2 ⟨_, place.covers_extend path, assigned⟩
  rw [h] at found
  cases found

end Assignment

end FuzzBridge
