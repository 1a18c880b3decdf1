import FuzzBridge.Proofs.Encoding.FunctionCall

/-!
What a function call declares. A call is encoded exactly if its arguments conform to their types,
and then every scalar in them and every byte of their byte strings has a variable of its own, named
after the path of indices that leads to it.
-/

namespace FuzzBridge

mutual

def Datum.leafCount : Datum → Nat
  | .int _ | .bool _ => 1
  | .bytes value => value.length
  | .seq elements => Datum.leafCounts elements
termination_by structural value => value

def Datum.leafCounts : List Datum → Nat
  | [] => 0
  | element :: rest => element.leafCount + Datum.leafCounts rest
termination_by structural elements => elements

end

namespace Encoding

/-- The width and the bits of the scalar or the byte at a path of indices. -/
def patternAt? : ArgType → Datum → List Nat → Option (Nat × Nat)
  | .uint bits, .int value, [] | .int bits, .int value, [] =>
    some (bits.toNat, Number.toPattern value bits.toNat)
  | .address, .int value, [] => some (160, Number.toPattern value 160)
  | .bool, .bool value, [] => some (1, value.toNat)
  | .fixedBytes _, .bytes value, [index] | .bytes, .bytes value, [index]
  | .string, .bytes value, [index] => value[index]?.map fun byte => (8, byte.toNat)
  | .fixedArray _ element, .seq elements, index :: path
  | .array element, .seq elements, index :: path =>
    elements[index]?.bind (patternAt? element · path)
  | .tuple types, .seq elements, index :: path =>
    types[index]?.bind fun type => elements[index]?.bind (patternAt? type · path)
  | _, _, _ => none
termination_by structural _ _ path => path

theorem lt_of_patternAt? {type : ArgType} {value : Datum} {path : List Nat} {bits seed : Nat}
    (pattern : patternAt? type value path = some (bits, seed)) : seed < Number.wordCount bits := by
  fun_induction patternAt? type value path with
  | case1 declared value | case2 declared value =>
    obtain ⟨rfl, rfl⟩ := Prod.mk.inj (Option.some.inj pattern)
    exact Number.toPattern_lt value declared.toNat
  | case3 value =>
    obtain ⟨rfl, rfl⟩ := Prod.mk.inj (Option.some.inj pattern)
    exact Number.toPattern_lt value 160
  | case4 value =>
    obtain ⟨rfl, rfl⟩ := Prod.mk.inj (Option.some.inj pattern)
    exact Bool.toNat_lt value
  | case5 | case6 | case7 =>
    obtain ⟨byte, -, same⟩ := Option.map_eq_some_iff.1 pattern
    obtain ⟨rfl, rfl⟩ := Prod.mk.inj same
    exact byte.toNat_lt
  | case8 length element elements index path ih | case9 element elements index path ih =>
    obtain ⟨value, -, inner⟩ := Option.bind_eq_some_iff.1 pattern
    exact ih value inner
  | case10 types elements index path ih =>
    obtain ⟨type, -, inner⟩ := Option.bind_eq_some_iff.1 pattern
    obtain ⟨value, -, inner⟩ := Option.bind_eq_some_iff.1 inner
    exact ih type value inner
  | case11 => cases pattern

/-- The leaf is what stands at the end of some path. -/
def IsLeafOf (type : ArgType) (value : Datum) (place : Place) (leaf : Leaf) : Prop :=
  ∃ path, leaf.place = place.extend path ∧ patternAt? type value path = some (leaf.bits, leaf.seed)

theorem isLeafOf_congr {left right : ArgType} {value : Datum}
    (same : ∀ path, patternAt? left value path = patternAt? right value path) {place : Place}
    {leaf : Leaf} : IsLeafOf left value place leaf ↔ IsLeafOf right value place leaf := by
  simp only [IsLeafOf, same]

/-! Byte strings of all kinds have the same bytes, and an array is a tuple of one type. -/

theorem patternAt?_fixedBytes (length : UInt64) (value : List UInt8) :
    ∀ path, patternAt? .bytes (.bytes value) path =
      patternAt? (.fixedBytes length) (.bytes value) path
  | [] | [_] | _ :: _ :: _ => rfl

theorem patternAt?_string (value : List UInt8) :
    ∀ path, patternAt? .bytes (.bytes value) path = patternAt? .string (.bytes value) path
  | [] | [_] | _ :: _ :: _ => rfl

theorem patternAt?_array (element : ArgType) (elements : List Datum) (path : List Nat) :
    patternAt? (.tuple (List.replicate elements.length element)) (.seq elements) path =
      patternAt? (.array element) (.seq elements) path := by
  cases path with
  | nil => rfl
  | cons index path =>
    rw [patternAt?, patternAt?, List.getElem?_replicate]
    split
    · rfl
    · next outside =>
      rw [List.getElem?_eq_none (Nat.not_lt.1 outside)]
      rfl

theorem patternAt?_fixedArray (length : UInt64) (element : ArgType) (elements : List Datum)
    (path : List Nat) :
    patternAt? (.tuple (List.replicate elements.length element)) (.seq elements) path =
      patternAt? (.fixedArray length element) (.seq elements) path := by
  rw [patternAt?_array]
  cases path <;> rfl

theorem isLeafOf_tuple {types : List ArgType} {elements : List Datum} {place : Place}
    {leaf : Leaf} :
    IsLeafOf (.tuple types) (.seq elements) place leaf ↔ ∃ (index : Nat) (type : ArgType)
      (value : Datum), types[index]? = some type ∧ elements[index]? = some value ∧
        IsLeafOf type value (place.element index) leaf := by
  constructor
  · rintro ⟨path, found, pattern⟩
    cases path with
    | nil => cases pattern
    | cons index path =>
      obtain ⟨type, typed, inner⟩ := Option.bind_eq_some_iff.1 pattern
      obtain ⟨value, here, inner⟩ := Option.bind_eq_some_iff.1 inner
      exact ⟨index, type, value, typed, here, path, by rw [found, Place.extend_element], inner⟩
  · rintro ⟨index, type, value, typed, here, path, found, pattern⟩
    refine ⟨index :: path, by rw [found, Place.extend_element], ?_⟩
    simp only [patternAt?, typed, here, Option.bind_some, pattern]

theorem mem_leavesFrom_iff {types : List ArgType} {elements : List Datum}
    (each : List.Forall₂ (fun type value => ∀ place leaf,
      leaf ∈ leaves type place value ↔ IsLeafOf type value place leaf) types elements)
    {placeOf : Nat → Place} {start : Nat} {leaf : Leaf} :
    leaf ∈ leavesFrom types placeOf start elements ↔ ∃ (index : Nat) (type : ArgType)
      (value : Datum), types[index]? = some type ∧ elements[index]? = some value ∧
        IsLeafOf type value (placeOf (start + index)) leaf := by
  induction each generalizing start with
  | nil => simp [leavesFrom]
  | cons first _ ih =>
    rw [leavesFrom, List.mem_append, first, ih]
    constructor
    · rintro (isLeaf | ⟨index, type, value, typed, here, isLeaf⟩)
      · exact ⟨0, _, _, rfl, rfl, isLeaf⟩
      · rw [Nat.add_right_comm, Nat.add_assoc] at isLeaf
        exact ⟨index + 1, type, value, typed, here, isLeaf⟩
    · rintro ⟨_ | index, type, value, typed, here, isLeaf⟩
      · obtain rfl := Option.some.inj typed
        obtain rfl := Option.some.inj here
        exact .inl isLeaf
      · rw [← Nat.add_assoc, Nat.add_right_comm] at isLeaf
        exact .inr ⟨index, type, value, typed, here, isLeaf⟩

theorem mem_byteLeaves_iff {place : Place} {start : Nat} {bytes : List UInt8} {leaf : Leaf} :
    leaf ∈ byteLeaves place start bytes ↔ ∃ (index : Nat) (byte : UInt8),
      bytes[index]? = some byte ∧ leaf = .ofByte (place.element (start + index)) byte := by
  induction bytes generalizing start with
  | nil => simp [byteLeaves]
  | cons byte rest ih =>
    rw [byteLeaves, List.mem_cons, ih]
    constructor
    · rintro (rfl | ⟨index, byte', here, rfl⟩)
      · exact ⟨0, byte, rfl, rfl⟩
      · exact ⟨index + 1, byte', here, by rw [Nat.add_right_comm, Nat.add_assoc]⟩
    · rintro ⟨_ | index, byte', here, rfl⟩
      · obtain rfl := Option.some.inj here
        exact .inl rfl
      · exact .inr ⟨index, byte', here, by rw [Nat.add_right_comm, Nat.add_assoc]⟩

theorem mem_singleton_iff_isLeafOf {type : ArgType} {value : Datum} {own : Leaf}
    (here : patternAt? type value [] = some (own.bits, own.seed))
    (below : ∀ index path, patternAt? type value (index :: path) = none) {leaf : Leaf} :
    leaf ∈ [own] ↔ IsLeafOf type value own.place leaf := by
  rw [List.mem_singleton]
  constructor
  · rintro rfl
    exact ⟨[], (Place.extend_nil _).symm, here⟩
  · rintro ⟨_ | ⟨index, path⟩, found, pattern⟩
    · rw [here] at pattern
      obtain ⟨bits, seed⟩ := Prod.mk.inj (Option.some.inj pattern)
      rw [Place.extend_nil] at found
      exact Leaf.ext found bits.symm seed.symm
    · rw [below] at pattern
      cases pattern

theorem mem_byteLeaves_iff_isLeafOf {place : Place} {value : List UInt8} {leaf : Leaf} :
    leaf ∈ byteLeaves place 0 value ↔ IsLeafOf .bytes (.bytes value) place leaf := by
  rw [mem_byteLeaves_iff]
  constructor
  · rintro ⟨index, byte, here, rfl⟩
    refine ⟨[index], by rw [Nat.zero_add]; rfl, ?_⟩
    rw [patternAt?, here]
    rfl
  · rintro ⟨path, found, pattern⟩
    match path, found, pattern with
    | [index], found, pattern =>
      obtain ⟨byte, here, same⟩ := Option.map_eq_some_iff.1 pattern
      obtain ⟨bits, seed⟩ := Prod.mk.inj same
      exact ⟨index, byte, here, Leaf.ext (by rw [found, Nat.zero_add]; rfl) bits.symm seed.symm⟩

theorem mem_leavesFrom_iff_isLeafOf {types : List ArgType} {elements : List Datum}
    (each : List.Forall₂ (fun type value => ∀ place leaf,
      leaf ∈ leaves type place value ↔ IsLeafOf type value place leaf) types elements)
    (place : Place) (leaf : Leaf) :
    leaf ∈ leavesFrom types place.element 0 elements ↔
      IsLeafOf (.tuple types) (.seq elements) place leaf := by
  rw [mem_leavesFrom_iff each, isLeafOf_tuple]
  simp only [Nat.zero_add]

theorem mem_leaves_iff {type : ArgType} {value : Datum} (conforms : Conforms type value)
    (place : Place) (leaf : Leaf) :
    leaf ∈ leaves type place value ↔ IsLeafOf type value place leaf := by
  induction conforms using Conforms.induction generalizing place leaf with
  | uint bits value => exact mem_singleton_iff_isLeafOf rfl fun _ _ => rfl
  | int bits value => exact mem_singleton_iff_isLeafOf rfl fun _ _ => rfl
  | address value => exact mem_singleton_iff_isLeafOf rfl fun _ _ => rfl
  | bool value => exact mem_singleton_iff_isLeafOf rfl fun _ _ => rfl
  | fixedBytes length value count short =>
    exact mem_byteLeaves_iff_isLeafOf.trans (isLeafOf_congr (patternAt?_fixedBytes length value))
  | bytes value => exact mem_byteLeaves_iff_isLeafOf
  | string value =>
    exact mem_byteLeaves_iff_isLeafOf.trans (isLeafOf_congr (patternAt?_string value))
  | fixedArray length element elements count each ih =>
    have inner := mem_leavesFrom_iff_isLeafOf (ih.imp fun _ _ h => h.2) place leaf
    exact inner.trans (isLeafOf_congr (patternAt?_fixedArray length element elements))
  | array element elements each ih =>
    have inner := mem_leavesFrom_iff_isLeafOf (ih.imp fun _ _ h => h.2) place leaf
    exact inner.trans (isLeafOf_congr (patternAt?_array element elements))
  | tuple types elements each ih =>
    exact mem_leavesFrom_iff_isLeafOf (ih.imp fun _ _ h => h.2) place leaf

/-! How many leaves there are. -/

theorem length_byteLeaves (place : Place) (index : Nat) (bytes : List UInt8) :
    (byteLeaves place index bytes).length = bytes.length := by
  induction bytes generalizing index with
  | nil => rfl
  | cons byte rest ih => rw [byteLeaves, List.length_cons, List.length_cons, ih]

theorem length_leavesFrom {types : List ArgType} {elements : List Datum}
    (each : List.Forall₂ (fun type value => ∀ place,
      (leaves type place value).length = value.leafCount) types elements)
    (placeOf : Nat → Place) (index : Nat) :
    (leavesFrom types placeOf index elements).length = Datum.leafCounts elements := by
  induction each generalizing index with
  | nil => rfl
  | cons first _ ih => rw [leavesFrom, List.length_append, first, ih, Datum.leafCounts]

theorem length_leaves {type : ArgType} {value : Datum} (conforms : Conforms type value)
    (place : Place) : (leaves type place value).length = value.leafCount := by
  induction conforms using Conforms.induction generalizing place with
  | uint bits value | int bits value | address value | bool value => rfl
  | fixedBytes length value count short => exact length_byteLeaves place 0 value
  | bytes value | string value => exact length_byteLeaves place 0 value
  | fixedArray length element elements count each ih | array element elements each ih
  | tuple types elements each ih =>
    exact length_leavesFrom (ih.imp fun _ _ h => h.2) place.element 0

/-! The arguments of a call. -/

theorem nodup_name_callLeaves (types : List ArgType) (transaction : String) (values : List Datum) :
    ((callLeaves types transaction values).map Leaf.name).Nodup :=
  Leaf.nodup_name (nodup_callLeaves types transaction values)
    fun _ member => (place_of_mem_callLeaves member).1

theorem mem_callLeaves_iff {arguments : List (ArgType × Datum)}
    (conform : List.Forall₂ Conforms (arguments.map (·.1)) (arguments.map (·.2)))
    {transaction : String} {leaf : Leaf} :
    leaf ∈ callLeaves (arguments.map (·.1)) transaction (arguments.map (·.2)) ↔
      ∃ (index : Nat) (argument : ArgType × Datum), arguments[index]? = some argument ∧
        IsLeafOf argument.1 argument.2 (argumentPlace transaction index) leaf := by
  rw [callLeaves, mem_leavesFrom_iff (conform.imp fun _ _ => mem_leaves_iff)]
  simp only [List.getElem?_map, Option.map_eq_some_iff, Nat.zero_add]
  constructor
  · rintro ⟨index, _, _, ⟨argument, here, rfl⟩, ⟨_, here', rfl⟩, isLeaf⟩
    obtain rfl := Option.some.inj (here.symm.trans here')
    exact ⟨index, argument, here, isLeaf⟩
  · rintro ⟨index, argument, here, isLeaf⟩
    exact ⟨index, argument.1, argument.2, ⟨argument, here, rfl⟩, ⟨argument, here, rfl⟩, isLeaf⟩

theorem functionCall_ok_iff {function : String} {arguments : List (ArgType × Datum)}
    {transaction : String} {assignment : Assignment} :
    (∃ result, functionCall function arguments transaction assignment = .ok result) ↔
      ∀ argument ∈ arguments, Conforms argument.1 argument.2 := by
  have each : List.Forall₂ Conforms (arguments.map (·.1)) (arguments.map (·.2)) ↔
      ∀ argument ∈ arguments, Conforms argument.1 argument.2 := by
    rw [List.forall₂_map_left_iff, List.forall₂_map_right_iff, List.forall₂_same]
  rw [← each]
  constructor
  · rintro ⟨result, encoded⟩
    exact conform_of_functionCall encoded
  · intro conform
    exact ⟨_, functionCall_of_conform conform function transaction assignment⟩

theorem find?_declare_callLeaves {arguments : List (ArgType × Datum)}
    (conform : List.Forall₂ Conforms (arguments.map (·.1)) (arguments.map (·.2)))
    {transaction name : String} {entry : Variable} :
    (Assignment.empty.declare (callLeaves (arguments.map (·.1)) transaction
        (arguments.map (·.2)))).table.find? name = some entry ↔
      ∃ (index : Nat) (argument : ArgType × Datum) (path : List Nat) (bits seed : Nat),
        arguments[index]? = some argument ∧
        patternAt? argument.1 argument.2 path = some (bits, seed) ∧
        name = ((argumentPlace transaction index).extend path).name ∧
        entry = ⟨bits, some seed⟩ := by
  rw [Assignment.find?_declare_empty (nodup_name_callLeaves _ transaction _)]
  constructor
  · rintro ⟨leaf, member, rfl, rfl⟩
    obtain ⟨index, argument, here, path, found, pattern⟩ := (mem_callLeaves_iff conform).1 member
    exact ⟨index, argument, path, leaf.bits, leaf.seed, here, pattern,
      congrArg Place.name found, rfl⟩
  · rintro ⟨index, argument, path, bits, seed, here, pattern, rfl, rfl⟩
    have isLeaf : IsLeafOf argument.1 argument.2 (argumentPlace transaction index)
        ⟨_, bits, seed, lt_of_patternAt? pattern⟩ := ⟨path, rfl, pattern⟩
    exact ⟨_, (mem_callLeaves_iff conform).2 ⟨index, argument, here, isLeaf⟩, rfl, rfl⟩

/-- A call is encoded exactly if every argument conforms to its type. Encoded from nothing, it
declares a variable for every scalar and every byte in the arguments, with the width and the bits of
what stands there, and no other. -/
theorem functionCall_declares_leaves (function : String) (arguments : List (ArgType × Datum))
    (transaction : String) (assignment : Assignment) :
    ((∃ result, functionCall function arguments transaction assignment = .ok result) ↔
      ∀ argument ∈ arguments, Conforms argument.1 argument.2) ∧
    ∀ data seeds, functionCall function arguments transaction .empty = .ok (data, seeds) →
      seeds.size = Datum.leafCounts (arguments.map (·.2)) ∧
      ∀ name entry, seeds.table.find? name = some entry ↔
        ∃ (index : Nat) (argument : ArgType × Datum) (path : List Nat) (bits seed : Nat),
          arguments[index]? = some argument ∧
          patternAt? argument.1 argument.2 path = some (bits, seed) ∧
          name = ((argumentPlace transaction index).extend path).name ∧
          entry = ⟨bits, some seed⟩ := by
  refine ⟨functionCall_ok_iff, fun data seeds encoded => ?_⟩
  have conform := conform_of_functionCall encoded
  rw [functionCall_of_conform conform] at encoded
  obtain ⟨-, rfl⟩ := Prod.mk.inj (Except.ok.inj encoded)
  constructor
  · rw [Assignment.size_declare (nodup_name_callLeaves _ transaction _)]
    exact length_leavesFrom (conform.imp fun _ _ => length_leaves) _ 0
  · intro name entry
    exact find?_declare_callLeaves conform

theorem functionCall_declares_leaves_tuple : ∃ data seeds,
    functionCall "set" [(.tuple [.int 8, .bytes], .seq [.int (-1), .bytes [7, 9]])] "tx0" .empty =
      .ok (data, seeds) ∧
    seeds.size = 3 ∧ seeds.table.find? "tx0_arg0_0" = some ⟨8, some 255⟩ ∧
    seeds.table.find? "tx0_arg0_1_1" = some ⟨8, some 9⟩ := by
  obtain ⟨accepts, declares⟩ := functionCall_declares_leaves "set"
    [(.tuple [.int 8, .bytes], .seq [.int (-1), .bytes [7, 9]])] "tx0" .empty
  have conforms : Conforms (.tuple [.int 8, .bytes]) (.seq [.int (-1), .bytes [7, 9]]) :=
    .tuple (.cons (.int 8 (-1)) (.cons (.bytes [7, 9]) .nil))
  obtain ⟨⟨data, seeds⟩, encoded⟩ := accepts.2 (by simpa using conforms)
  obtain ⟨size, entries⟩ := declares data seeds encoded
  refine ⟨data, seeds, encoded, size, ?_, ?_⟩
  · exact (entries _ _).2 ⟨0, _, [0], 8, 255, rfl, rfl, rfl, rfl⟩
  · exact (entries _ _).2 ⟨0, _, [1, 1], 8, 9, rfl, rfl, rfl, rfl⟩

end Encoding

end FuzzBridge
