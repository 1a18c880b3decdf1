import FuzzBridge.Proofs.Argument.Filling
import FuzzBridge.Proofs.Argument.Slots
import FuzzBridge.Proofs.Encoding.Symbols
import FuzzBridge.Proofs.Solver.CallData

/-!
What a model writes to a slot against what the variable of the slot has under the model. The two
agree on values of any size, except that a boolean takes every value but zero for true where its
variable keeps the lowest bit.
-/

namespace FuzzBridge

namespace SlotKind

/-- A slot shows all that a variable of its width has of the value, no more and no less. -/
def Keeps (value : Nat) : SlotKind → Prop
  | .bool => value = 0 ∨ value % 2 = 1
  | _ => True

theorem written_bool (value : Nat) : bool.written value = if value = 0 then 0 else 1 := by
  rw [written, Number.isTrue]
  by_cases zero : value = 0
  · rw [zero]
    rfl
  · rw [if_neg zero, bne_iff_ne.2 zero]
    rfl

theorem mask_bits_bool (value : Nat) : Number.mask value bool.bits = value % 2 := rfl

theorem toPattern_written {kind : SlotKind} {value : Nat} :
    Number.toPattern (kind.written value) kind.bits = Number.mask value kind.bits ↔
      kind.Keeps value := by
  cases kind with
  | uint width | address | byte =>
    refine iff_of_true ?_ trivial
    rw [written, SlotKind.bits, Number.toPattern_natCast, Number.mask_mask]
  | int width => exact iff_of_true (Number.toPattern_toSigned value width.toNat) trivial
  | bool =>
    have pattern :
        Number.toPattern (bool.written value) bool.bits = if value = 0 then 0 else 1 := by
      rw [written_bool]
      split <;> rfl
    rw [pattern, mask_bits_bool, Keeps]
    split <;> omega

theorem keeps_mask (kind : SlotKind) (value : Nat) :
    kind.Keeps (Number.mask value kind.bits) := by
  cases kind with
  | uint width | int width | address | byte => trivial
  | bool =>
    rw [mask_bits_bool, Keeps]
    omega

theorem written_mask {kind : SlotKind} {value : Nat} :
    kind.written (Number.mask value kind.bits) = kind.written value ↔ kind.Keeps value := by
  cases kind with
  | uint width | address | byte =>
    refine iff_of_true ?_ trivial
    rw [written, written, SlotKind.bits, Number.mask_mask]
  | int width =>
    refine iff_of_true ?_ trivial
    rw [written, written, SlotKind.bits, Number.toSigned, Number.toSigned, Number.mask_mask]
  | bool =>
    rw [written_bool, written_bool, mask_bits_bool, Keeps]
    split <;> split <;> omega

end SlotKind

def Slot.site (slot : Slot) : Place × Nat := (slot.place, slot.kind.bits)

/-- `reduced` gives the variables of the terms what `model` gives them, reduced to their widths. -/
def Assignment.IsReduced (model reduced : Assignment) (terms : List Term) : Prop :=
  ∀ bits name, (bits, name) ∈ terms.flatMap Term.symbols →
    reduced.value? name = (model.value? name).map (Number.mask · bits)

theorem Slot.HasLeaf.eval_eq_seed_iff {model : Assignment} {slot : Slot} {leaf : Leaf}
    (hasLeaf : slot.HasLeaf model leaf) (wide : slot.kind.bits = leaf.bits) {new : Nat}
    (assigned : model.valueAt? slot.place = some new) :
    (Term.symbol leaf.bits leaf.name).eval model = .ok leaf.seed ↔ slot.kind.Keeps new := by
  have named : model.value? leaf.name = some new := by
    rw [Leaf.name, hasLeaf.place]
    exact assigned
  rw [Term.eval_symbol named, Except.ok.injEq, hasLeaf.seed new assigned, ← wide, eq_comm,
    SlotKind.toPattern_written]

namespace Argument

open Encoding (leaves leavesFrom byteLeaves)

variable {model : Assignment} {place : Place}

theorem map_site_byteSlots (place : Place) (index : Nat) (bytes : List UInt8) :
    (byteSlots place index bytes).map Slot.site = (byteLeaves place index bytes).map Leaf.site := by
  induction bytes generalizing index with
  | nil => rfl
  | cons byte rest ih =>
    rw [byteSlots, byteLeaves, List.map_cons, List.map_cons, ih]
    rfl

theorem map_site_slotsFrom {elements : List Argument}
    (each : ∀ element ∈ elements, element.IsUniform → ∀ place value, element.datum = .ok value →
      (element.slots place).map Slot.site = (leaves element.type place value).map Leaf.site)
    (uniform : AllUniform elements) {placeOf : Nat → Place} {index : Nat} {values : List Datum}
    (read : data elements = .ok values) :
    (slotsFrom placeOf index elements).map Slot.site =
      (leavesFrom (types elements) placeOf index values).map Leaf.site := by
  induction elements generalizing index values with
  | nil =>
    obtain rfl := Except.ok.inj read
    rfl
  | cons element rest ih =>
    rw [data_eq_ok] at read
    cases read with
    | cons first others =>
      rw [slotsFrom, types, leavesFrom, List.map_append, List.map_append,
        each element List.mem_cons_self uniform.1 _ _ first,
        ih (fun element member => each element (List.mem_cons_of_mem _ member)) uniform.2
          (data_eq_ok.2 others)]

/-- If arrays hold elements of the types that they declare, a variable is as wide as its slot. -/
theorem map_site_slots {argument : Argument} (uniform : argument.IsUniform) {value : Datum}
    (read : argument.datum = .ok value) :
    (argument.slots place).map Slot.site = (leaves argument.type place value).map Leaf.site := by
  induction argument using Argument.induction generalizing place value with
  | uint bits digits | int bits digits =>
    obtain ⟨number, -, rfl⟩ := Result.map_eq_ok.1 read
    rfl
  | address hex =>
    obtain ⟨number, -, denoted⟩ := Result.bind_eq_ok.1 read
    obtain rfl := Result.pure_eq_ok.1 denoted
    rfl
  | bool old =>
    obtain rfl := Except.ok.inj read
    rfl
  | fixedBytes length text | bytes text | string text =>
    obtain ⟨content, readable, rfl⟩ := Result.map_eq_ok.1 read
    rw [slots, textSlots_of_readBytes readable]
    exact map_site_byteSlots place 0 content
  | array element elements ih | fixedArray length element elements ih =>
    obtain ⟨values, readable, rfl⟩ := Result.map_eq_ok.1 read
    rw [type, leaves, leavesFrom_replicate uniform.1 (length_of_data readable)]
    exact map_site_slotsFrom (fun element member uniform place value => ih element member uniform)
      uniform.2 readable
  | tuple elements ih =>
    obtain ⟨values, readable, rfl⟩ := Result.map_eq_ok.1 read
    exact map_site_slotsFrom (fun element member uniform place value => ih element member uniform)
      uniform readable

def HasLeaves (model : Assignment) (place : Place) (argument : Argument) (leaves : List Leaf) :
    Prop :=
  List.Forall₂ (fun slot leaf => slot.HasLeaf model leaf ∧
    (argument.IsUniform → slot.kind.bits = leaf.bits)) (argument.slots place) leaves

theorem hasLeaves_substitute {argument : Argument} {value value' : Datum}
    (read : argument.datum = .ok value)
    (read' : (argument.substitute model place).datum = .ok value')
    (same : SameShape value value') (conforms : Conforms argument.type value') :
    argument.HasLeaves model place (leaves argument.type place value') := by
  have aligned := hasLeaf_substitute read read' conforms
  by_cases uniform : argument.IsUniform
  · have sites := (map_site_slots uniform read).trans
      (Encoding.map_site_leaves same argument.type place)
    rw [← List.forall₂_eq_eq_eq, List.forall₂_map_left_iff, List.forall₂_map_right_iff] at sites
    exact List.Forall₂.mp (fun _ _ hasLeaf site => ⟨hasLeaf, fun _ => congrArg Prod.snd site⟩)
      aligned sites
  · exact aligned.imp fun _ _ hasLeaf => ⟨hasLeaf, fun isUniform => absurd isUniform uniform⟩

/-- A model reduced to the widths of the slots writes the same, unless a boolean shows more of a
value than its lowest bit. -/
theorem substitute_reduced_iff {argument : Argument} {value : Datum}
    (uniform : argument.IsUniform) (read : argument.datum = .ok value)
    (conforms : Conforms argument.type value) {reduced : Assignment}
    (reduces : ∀ slot ∈ argument.slots place, reduced.valueAt? slot.place =
      (model.valueAt? slot.place).map (Number.mask · slot.kind.bits)) :
    argument.substitute reduced place = argument.substitute model place ↔
      ∀ slot ∈ argument.slots place, ∀ new, model.valueAt? slot.place = some new →
        slot.kind.Keeps new := by
  constructor
  · intro same slot member new assigned
    obtain ⟨value', read', shape⟩ := datum_substitute read model place
    have conforms' := conforms.of_sameShape shape
    have aligned := hasLeaves_substitute read read' shape conforms'
    have aligned' := hasLeaf_substitute read (same ▸ read') conforms'
    obtain ⟨leaf, -, ⟨hasLeaf, width⟩, hasLeaf'⟩ := exists_of_mem_left
      (List.Forall₂.mp (fun _ _ h h' => And.intro h h') aligned aligned') member
    have wide := width uniform
    have low : reduced.valueAt? slot.place = some (Number.mask new slot.kind.bits) := by
      rw [reduces slot member, assigned, Option.map_some]
    -- Both seed the leaf, and the reduced model seeds it with what its variable has.
    rw [← SlotKind.toPattern_written, wide, ← hasLeaf.seed new assigned, hasLeaf'.seed _ low,
      ← wide, SlotKind.toPattern_written.2 (slot.kind.keeps_mask new), Number.mask_mask]
  · intro keeps
    refine substitute_congr fun slot member => ?_
    rw [Slot.written?, Slot.written?, reduces slot member, Option.map_map]
    refine Option.map_congr fun new assigned => ?_
    exact SlotKind.written_mask.2 (keeps slot member new assigned)

theorem value?_declare_leaves {type : ArgType} {value : Datum} {leaf : Leaf}
    (member : leaf ∈ leaves type place value) (start : Assignment) :
    (start.declare (leaves type place value)).value? leaf.name = some leaf.seed := by
  have same : ∀ leaf ∈ leaves type place value, leaf.place.transaction = place.transaction := by
    intro leaf member
    obtain ⟨path, found⟩ := Encoding.place_of_mem_leaves member
    rw [found]
    rfl
  have nodup := Leaf.nodup_name (Encoding.nodup_leaves type place value) same
  exact Assignment.holds_declare nodup start leaf member

theorem exists_slot_of_symbol {argument : Argument} {type : ArgType} {value : Datum}
    (aligned : argument.HasLeaves model place (leaves type place value))
    (start : Assignment) {bits : Nat} {name : String}
    (member : (bits, name) ∈ (Encoding.terms type place value).flatMap Term.symbols) :
    ∃ slot ∈ argument.slots place, ∃ seed, slot.place.name = name ∧
      (start.declare (leaves type place value)).value? name = some seed ∧
      (argument.IsUniform → slot.kind.bits = bits) ∧
      ∀ new, model.value? name = some new →
        seed = Number.toPattern (slot.kind.written new) bits ∧
        (slot.kind.bits = bits →
          ((Term.symbol bits name).eval model = .ok seed ↔ slot.kind.Keeps new)) := by
  have symbols := Encoding.symbols_terms_perm type place value
  obtain ⟨leaf, hleaf, named⟩ := List.mem_map.1 (symbols.mem_iff.1 member)
  obtain ⟨rfl, rfl⟩ := Prod.mk.inj named
  obtain ⟨slot, hslot, hasLeaf, width⟩ := exists_of_mem_left aligned.flip hleaf
  refine ⟨slot, hslot, leaf.seed, congrArg Place.name hasLeaf.place.symm,
    value?_declare_leaves hleaf start, width, fun new assigned => ?_⟩
  have here : model.valueAt? slot.place = some new := by
    rw [← hasLeaf.place]
    exact assigned
  exact ⟨hasLeaf.seed new here, fun wide => hasLeaf.eval_eq_seed_iff wide here⟩

theorem valueAt?_of_isReduced {argument : Argument} {type : ArgType} {value : Datum}
    (aligned : argument.HasLeaves model place (leaves type place value))
    (uniform : argument.IsUniform) {reduced : Assignment}
    (reduces : model.IsReduced reduced (Encoding.terms type place value))
    {slot : Slot} (member : slot ∈ argument.slots place) :
    reduced.valueAt? slot.place =
      (model.valueAt? slot.place).map (Number.mask · slot.kind.bits) := by
  have symbols := Encoding.symbols_terms_perm type place value
  obtain ⟨leaf, hleaf, hasLeaf, width⟩ := exists_of_mem_left aligned member
  have declared := reduces leaf.bits leaf.name
    (symbols.mem_iff.2 (List.mem_map_of_mem (f := Leaf.symbol) hleaf))
  rw [Leaf.name, hasLeaf.place, ← width uniform] at declared
  exact declared

/-- What a model of any numbers leaves in an argument against what the variables of the argument
have under the model. The encoder seeds each variable with what its slot shows of the value. If the
two are equally wide, which they are if arrays hold elements of the types that they declare, then
this is what the variable has, except that a boolean shows every value but zero as one. So reducing
a model to the widths of the variables is seen only where a boolean is given an even number but
zero. -/
theorem filled_slots_agree_iff {argument : Argument} {place : Place} {start seeds : Assignment}
    {type : ArgType} {value : Datum} {terms : List Term}
    (typed : argument.typed = .ok (type, value))
    (encoded : Encoding.encode type place start value = .ok (terms, seeds)) (model : Assignment) :
    ∃ filled value' seeds',
      argument.fill model place = .ok filled ∧ filled.typed = .ok (type, value') ∧
      Encoding.encode type place start value' = .ok (terms, seeds') ∧
      (∀ bits name, (bits, name) ∈ terms.flatMap Term.symbols →
        ∃ slot ∈ argument.slots place, ∃ seed, slot.place.name = name ∧
          seeds'.value? name = some seed ∧ (argument.IsUniform → slot.kind.bits = bits) ∧
          ∀ new, model.value? name = some new →
            seed = Number.toPattern (slot.kind.written new) bits ∧
            (slot.kind.bits = bits →
              ((Term.symbol bits name).eval model = .ok seed ↔ slot.kind.Keeps new))) ∧
      (argument.IsUniform → ∀ reduced, model.IsReduced reduced terms →
        (argument.fill reduced place = .ok filled ↔
          ∀ slot ∈ argument.slots place, ∀ new, model.valueAt? slot.place = some new →
            slot.kind.Keeps new)) := by
  obtain ⟨_, read, same⟩ := Result.bind_eq_ok.1 typed
  obtain ⟨rfl, rfl⟩ := Prod.mk.inj (Result.pure_eq_ok.1 same)
  have conforms := Encoding.conforms_of_encode encoded
  rw [Encoding.encode_of_conforms conforms] at encoded
  obtain ⟨rfl, rfl⟩ := Prod.mk.inj (Except.ok.inj encoded)
  obtain ⟨value', read', shape⟩ := datum_substitute read model place
  have conforms' := conforms.of_sameShape shape
  have encoded' := Encoding.encode_of_conforms conforms' place start
  have aligned := hasLeaves_substitute read read' shape conforms'
  rw [Encoding.terms_of_sameShape shape]
  refine ⟨_, value', _, fill_eq_ok.2 ⟨isFillable_of_datum read model place, rfl⟩, ?_, encoded',
    fun _ _ => exists_slot_of_symbol aligned start, fun uniform reduced reduces => ?_⟩
  · rw [Argument.typed, read', type_substitute]
    rfl
  · rw [fill_eq_ok, and_iff_right (isFillable_of_datum read reduced place)]
    exact substitute_reduced_iff uniform read conforms fun _ =>
      valueAt?_of_isReduced aligned uniform reduces

theorem filled_slots_agree_iff_int :
    ∃ seeds,
      (Argument.int 8 "3").fill (Assignment.empty.set "tx0_arg0" 456 256)
          (.ofField "tx0" (.argument 0)) = .ok (.int 8 "-56") ∧
      Encoding.encode (.int 8) (.ofField "tx0" (.argument 0)) .empty (.int (-56)) =
        .ok ([.signExtend 256 (.symbol 8 "tx0_arg0")], seeds) ∧
      ∃ seed, seeds.value? "tx0_arg0" = some seed ∧
        (Term.symbol 8 "tx0_arg0").eval (Assignment.empty.set "tx0_arg0" 456 256) = .ok seed := by
  have typed : (Argument.int 8 "3").typed = .ok (.int 8, .int 3) := rfl
  have encoded : Encoding.encode (.int 8) (.ofField "tx0" (.argument 0)) .empty (.int 3) =
    .ok ([.signExtend 256 (.symbol 8 "tx0_arg0")], Assignment.empty.set "tx0_arg0" 3 8) := rfl
  obtain ⟨filled, value, seeds, done, typed', encoded', agree, -⟩ :=
    filled_slots_agree_iff typed encoded (Assignment.empty.set "tx0_arg0" 456 256)
  obtain rfl : Argument.int 8 "-56" = filled := Except.ok.inj done
  obtain rfl : Datum.int (-56) = value := congrArg Prod.snd (Except.ok.inj typed')
  obtain ⟨slot, member, seed, -, seeded, -, given⟩ := agree 8 "tx0_arg0" (by decide)
  obtain rfl := List.mem_singleton.1 member
  exact ⟨seeds, done, encoded', seed, seeded, ((given 456 rfl).2 rfl).2 trivial⟩

/-- An even number leaves a boolean true whose variable has zero under the model, and so the reduced
model leaves it false. An element that is narrower than its array declares loses bits that its
variable has, and one that is wider shows bits that its variable does not have. -/
theorem boolean_and_mixed_array_disagree :
    (∃ seeds,
      (Argument.bool false).fill (Assignment.empty.set "tx0_arg0" 2 256)
          (.ofField "tx0" (.argument 0)) = .ok (.bool true) ∧
      Encoding.encode .bool (.ofField "tx0" (.argument 0)) .empty (.bool true) =
        .ok ([.zeroExtend 256 (.symbol 1 "tx0_arg0")], seeds) ∧
      seeds.value? "tx0_arg0" = some 1 ∧
      (Term.symbol 1 "tx0_arg0").eval (Assignment.empty.set "tx0_arg0" 2 256) = .ok 0 ∧
      (Argument.bool false).fill (Assignment.empty.set "tx0_arg0" 0 256)
        (.ofField "tx0" (.argument 0)) = .ok (.bool false)) ∧
    (∃ seeds,
      (Argument.array (.uint 16) [.uint 8 "1"]).fill (Assignment.empty.set "tx0_arg0_0" 300 256)
          (.ofField "tx0" (.argument 0)) = .ok (.array (.uint 16) [.uint 8 "44"]) ∧
      Encoding.encode (.array (.uint 16)) (.ofField "tx0" (.argument 0)) .empty (.seq [.int 44]) =
        .ok ([.constant 256 1, .zeroExtend 256 (.symbol 16 "tx0_arg0_0")], seeds) ∧
      seeds.value? "tx0_arg0_0" = some 44 ∧
      (Term.symbol 16 "tx0_arg0_0").eval (Assignment.empty.set "tx0_arg0_0" 300 256) = .ok 300) ∧
    (Argument.array (.uint 8) [.uint 16 "1"]).fill (Assignment.empty.set "tx0_arg0_0" 300 256)
        (.ofField "tx0" (.argument 0)) = .ok (.array (.uint 8) [.uint 16 "300"]) ∧
      (Argument.array (.uint 8) [.uint 16 "1"]).fill (Assignment.empty.set "tx0_arg0_0" 44 256)
        (.ofField "tx0" (.argument 0)) = .ok (.array (.uint 8) [.uint 16 "44"]) :=
  ⟨⟨_, rfl, rfl, rfl, rfl, rfl⟩, ⟨_, rfl, rfl, rfl, rfl⟩, rfl, rfl⟩

end Argument

end FuzzBridge
