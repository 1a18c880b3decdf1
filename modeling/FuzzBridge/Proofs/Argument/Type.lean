import FuzzBridge.Argument.Type
import FuzzBridge.Proofs.Json.Tagged

/-!
The JSON form of a type reads back as the type, if the levels of the reader are enough for it; and
they are enough for every type that such a reader has read.
-/

namespace FuzzBridge

open Json (Draft Items)

namespace Json.Draft

theorem asWidth_nat (bits : UInt16) : asWidth (nat bits.toNat).draft = .ok bits := by
  have small : bits.toNat < Nat.pow 2 16 := bits.toNat_lt
  simp only [asWidth, nat, draft, asNat, if_pos small]
  exact congrArg Except.ok UInt16.ofNat_toNat

theorem asLength_nat (length : UInt64) : asLength (nat length.toNat).draft = .ok length := by
  have small : length.toNat < Nat.pow 2 64 := length.toNat_lt
  simp only [asLength, nat, draft, asNat, if_pos small]
  exact congrArg Except.ok UInt64.ofNat_toNat

end Json.Draft

theorem Json.isPlain_width (bits : UInt16) : (Json.nat bits.toNat).IsPlain :=
  Nat.lt_trans bits.toNat_lt (by decide : 2 ^ 16 < Nat.pow 2 64)

theorem Json.isPlain_length (length : UInt64) : (Json.nat length.toNat).IsPlain := length.toNat_lt

namespace ArgType

theorem induction {motive : ArgType → Prop} (uint : ∀ bits, motive (.uint bits))
    (int : ∀ bits, motive (.int bits)) (address : motive .address) (bool : motive .bool)
    (fixedBytes : ∀ length, motive (.fixedBytes length)) (bytes : motive .bytes)
    (string : motive .string) (array : ∀ element, motive element → motive (.array element))
    (fixedArray : ∀ length element, motive element → motive (.fixedArray length element))
    (tuple : ∀ elements, (∀ element ∈ elements, motive element) → motive (.tuple elements))
    (type : ArgType) : motive type :=
  ArgType.rec (motive_2 := fun elements => ∀ element ∈ elements, motive element)
    uint int address bool fixedBytes bytes string array fixedArray tuple
    (fun _ member => absurd member List.not_mem_nil)
    (fun _ _ first rest => List.forall_mem_cons.2 ⟨first, rest⟩) type

theorem listToJson_eq_map (types : List ArgType) : listToJson types = types.map toJson := by
  induction types with
  | nil => rfl
  | cons type rest ih => rw [listToJson, ih, List.map_cons]

theorem isPlain_toJson (type : ArgType) : type.toJson.IsPlain := by
  induction type using ArgType.induction with
  | uint bits => exact Json.isPlain_tagged.2 (Json.isPlain_width bits)
  | int bits => exact Json.isPlain_tagged.2 (Json.isPlain_width bits)
  | fixedBytes length => exact Json.isPlain_tagged.2 (Json.isPlain_length length)
  | address | bool | bytes | string => exact Json.isPlain_bareTag _
  | array element ih => exact Json.isPlain_tagged.2 ih
  | fixedArray length element ih =>
    exact Json.isPlain_tagged.2 ⟨Json.isPlain_length length, ih, trivial⟩
  | tuple elements ih =>
    rw [toJson, Json.isPlain_tagged, Json.IsPlain, Json.allPlain_iff, listToJson_eq_map]
    exact List.forall_mem_map.2 ih

theorem depth_list (types : List ArgType) {levels : Nat} :
    (Json.array (listToJson types)).depth ≤ levels + 1 ↔
      ∀ type ∈ types, type.toJson.depth ≤ levels := by
  rw [Json.depth, Nat.add_le_add_iff_right, Json.itemsDepth_le, listToJson_eq_map,
    List.forall_mem_map]

theorem depth_fixedArray (length : UInt64) (element : ArgType) :
    (ArgType.fixedArray length element).toJson.depth = element.toJson.depth + 2 := by
  simp [toJson, Json.depth, Json.itemsDepth]

theorem depth_pos (type : ArgType) : 0 < type.toJson.depth := by
  cases type <;> simp [toJson]

theorem exists_level {type : ArgType} {levels : Nat} (deep : type.toJson.depth ≤ levels) :
    ∃ inner, levels = inner + 1 :=
  Nat.exists_eq_add_one.2 (Nat.lt_of_lt_of_le (depth_pos type) deep)

theorem ofDraft_toJson {type : ArgType} {levels : Nat} (deep : type.toJson.depth ≤ levels)
    (isHeld : Bool) : ofDraft isHeld levels type.toJson.draft = .ok type := by
  induction type using ArgType.induction generalizing levels with
  | uint bits | int bits =>
    obtain ⟨levels, rfl⟩ := exists_level deep
    rw [ofDraft, toJson, Json.Tagging.read_tagged (by rfl) (by rfl)]
    simp only [Draft.asWidth_nat]
    rfl
  | fixedBytes length =>
    obtain ⟨levels, rfl⟩ := exists_level deep
    rw [ofDraft, toJson, Json.Tagging.read_tagged (by rfl) (by rfl)]
    simp only [Draft.asLength_nat]
    rfl
  | address | bool | bytes | string =>
    obtain ⟨levels, rfl⟩ := exists_level deep
    rw [ofDraft, toJson]
    exact Json.Tagging.read_bareTag (by rfl) (by rfl)
  | array element ih =>
    obtain ⟨levels, rfl⟩ := exists_level deep
    rw [toJson, Json.depth_tagged, Nat.add_le_add_iff_right] at deep
    rw [ofDraft, toJson, Json.Tagging.read_tagged (by rfl) (by rfl)]
    simp only [ih deep]
    rfl
  | fixedArray length element ih =>
    rw [depth_fixedArray] at deep
    obtain ⟨levels, rfl⟩ := Nat.exists_eq_add_of_le' (Nat.le_trans (Nat.le_add_left 2 _) deep)
    have read := Items.pair_of_ok (Draft.asLength_nat length) (ih (Nat.le_of_add_le_add_right deep))
    rw [ofDraft, toJson, Json.Tagging.read_tagged (by rfl) (by rfl)]
    simp only [Json.draft, Json.itemsDraft, read]
    rfl
  | tuple elements ih =>
    obtain ⟨levels, rfl⟩ := exists_level deep
    rw [toJson, Json.depth_tagged, Nat.add_le_add_iff_right] at deep
    obtain ⟨levels, rfl⟩ : ∃ inner, levels = inner + 1 := by
      rw [Json.depth] at deep
      exact Nat.exists_eq_add_one.2 (by omega)
    rw [depth_list] at deep
    have read := Items.list_itemsDraft fun element member => ih element member (deep element member)
    rw [ofDraft, toJson, Json.Tagging.read_tagged (by rfl) (by rfl), listToJson_eq_map]
    simp only [Json.draft, read]
    rfl

theorem depth_of_ofDraft {levels : Nat} {isHeld : Bool} {draft : Draft} {type : ArgType}
    (h : ofDraft isHeld levels draft = .ok type) : type.toJson.depth ≤ levels := by
  -- The element type of a dynamic array is one level further down, other element types two.
  induction levels using Nat.strongRecOn generalizing isHeld draft type with
  | ind levels ih =>
    cases levels with
    | zero =>
      rw [ofDraft] at h
      exact absurd h Draft.tooDeep_ne_ok
    | succ levels =>
      rw [ofDraft] at h
      obtain ⟨kind, bare⟩ | ⟨isHeld, kind, contents, h⟩ := Json.Tagging.offers_of_read h
      · cases kind <;> simp only [bare?, Option.some.injEq, reduceCtorEq] at bare <;>
          simp [← bare, toJson]
      · cases kind <;> simp only [reduceCtorEq] at h
        case uint | int | fixedBytes =>
          obtain ⟨number, -, h⟩ := Result.bind_eq_ok.1 h
          obtain rfl := Result.pure_eq_ok.1 h
          simp [toJson]
        case array =>
          obtain ⟨element, read, h⟩ := Result.bind_eq_ok.1 h
          obtain rfl := Result.pure_eq_ok.1 h
          rw [toJson, Json.depth_tagged]
          exact Nat.add_le_add_right (ih levels (Nat.lt_add_one levels) read) 1
        case fixedArray =>
          split at h
          · obtain ⟨found, read, h⟩ := Result.bind_eq_ok.1 h
            obtain rfl := Result.pure_eq_ok.1 h
            obtain ⟨_, _, -, read⟩ := Items.ok_of_pair read
            rw [depth_fixedArray]
            exact Nat.add_le_add_right (ih _ (by omega) read) 2
          · exact absurd h Draft.noItems_ne_ok
        case tuple =>
          split at h
          · obtain ⟨elements, read, h⟩ := Result.bind_eq_ok.1 h
            obtain rfl := Result.pure_eq_ok.1 h
            rw [toJson, Json.depth_tagged, Nat.add_le_add_iff_right, depth_list]
            intro element member
            obtain ⟨_, read⟩ := Items.ok_of_list read element member
            exact ih _ (by omega) read
          · exact absurd h Draft.noItems_ne_ok

end ArgType

end FuzzBridge
