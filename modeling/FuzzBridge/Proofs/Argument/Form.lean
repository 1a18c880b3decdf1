import FuzzBridge.Argument.Form
import FuzzBridge.Proofs.Argument.Substitution
import FuzzBridge.Proofs.Argument.Type

/-!
The JSON form of an argument reads back as the argument, if the levels of the reader are enough for
it. They are enough for every argument that such a reader has read, and filling one in does not make
it deeper.
-/

namespace FuzzBridge

open Json (Draft Items)

namespace Argument

theorem listToJson_eq_map (arguments : List Argument) :
    listToJson arguments = arguments.map toJson := by
  induction arguments with
  | nil => rfl
  | cons argument rest ih => rw [listToJson, ih, List.map_cons]

theorem allPlain_listToJson {arguments : List Argument}
    (each : ∀ argument ∈ arguments, argument.toJson.IsPlain) :
    Json.AllPlain (listToJson arguments) := by
  rw [Json.allPlain_iff, listToJson_eq_map]
  exact List.forall_mem_map.2 each

theorem isPlain_toJson (argument : Argument) : argument.toJson.IsPlain := by
  induction argument using Argument.induction with
  | uint bits digits => exact Json.isPlain_tagged.2 ⟨Json.isPlain_width bits, trivial, trivial⟩
  | int bits digits => exact Json.isPlain_tagged.2 ⟨Json.isPlain_width bits, trivial, trivial⟩
  | fixedBytes length text =>
    exact Json.isPlain_tagged.2 ⟨Json.isPlain_length length, trivial, trivial⟩
  | address text | bool value | bytes text | string text => exact Json.isPlain_tagged.2 trivial
  | array element elements ih =>
    exact Json.isPlain_tagged.2 ⟨element.isPlain_toJson, allPlain_listToJson ih, trivial⟩
  | fixedArray length element elements ih =>
    exact Json.isPlain_tagged.2
      ⟨Json.isPlain_length length, element.isPlain_toJson, allPlain_listToJson ih, trivial⟩
  | tuple elements ih => exact Json.isPlain_tagged.2 (allPlain_listToJson ih)

/-! How deep the form of an argument is. -/

theorem depth_list_le {arguments : List Argument} {levels : Nat} :
    (Json.array (listToJson arguments)).depth ≤ levels + 1 ↔
      ∀ argument ∈ arguments, argument.toJson.depth ≤ levels := by
  rw [Json.depth, Nat.add_le_add_iff_right, Json.itemsDepth_le, listToJson_eq_map,
    List.forall_mem_map]

theorem exists_level_list {arguments : List Argument} {levels : Nat}
    (deep : (Json.array (listToJson arguments)).depth ≤ levels) : ∃ inner, levels = inner + 1 := by
  rw [Json.depth] at deep
  exact Nat.exists_eq_add_one.2 (by omega)

theorem depth_array (element : ArgType) (elements : List Argument) :
    (Argument.array element elements).toJson.depth =
      max element.toJson.depth (Json.array (listToJson elements)).depth + 2 := by
  simp [toJson, Json.depth, Json.itemsDepth]

theorem depth_fixedArray (length : UInt64) (element : ArgType) (elements : List Argument) :
    (Argument.fixedArray length element elements).toJson.depth =
      max element.toJson.depth (Json.array (listToJson elements)).depth + 2 := by
  simp [toJson, Json.depth, Json.itemsDepth]

theorem depth_tuple (elements : List Argument) :
    (Argument.tuple elements).toJson.depth = (Json.array (listToJson elements)).depth + 1 := by
  rw [toJson, Json.depth_tagged]

theorem depth_pos (argument : Argument) : 0 < argument.toJson.depth := by
  cases argument <;> simp [toJson]

theorem exists_level {argument : Argument} {levels : Nat}
    (deep : argument.toJson.depth ≤ levels) : ∃ inner, levels = inner + 1 :=
  Nat.exists_eq_add_one.2 (Nat.lt_of_lt_of_le (depth_pos argument) deep)

theorem depth_pair (number : Nat) (text : String) :
    (Json.array [.nat number, .text text]).depth = 1 := rfl

theorem numbered_pair {α : Type} {number : Draft → Json.Read α} {value : α} {first : Json}
    (read : number first.draft = .ok value) (levels : Nat) (text : String) :
    numbered (levels + 1) number (Json.array [first, .text text]).draft = .ok (value, text) :=
  Items.pair_of_ok read rfl

theorem list_ofDraft {arguments : List Argument} {isHeld : Bool}
    (each : ∀ argument ∈ arguments, ∀ {levels}, argument.toJson.depth ≤ levels →
      ofDraft isHeld levels argument.toJson.draft = .ok argument)
    {levels : Nat} (deep : (Json.array (listToJson arguments)).depth ≤ levels + 1) :
    (Json.itemsDraft (listToJson arguments)).list (ofDraft isHeld levels) = .ok arguments := by
  rw [listToJson_eq_map]
  exact Items.list_itemsDraft fun argument member =>
    each argument member (depth_list_le.1 deep argument member)

theorem ofDraft_toJson {argument : Argument} {levels : Nat}
    (deep : argument.toJson.depth ≤ levels) (isHeld : Bool) :
    ofDraft isHeld levels argument.toJson.draft = .ok argument := by
  induction argument using Argument.induction generalizing levels with
  | uint bits digits | int bits digits =>
    rw [toJson, Json.depth_tagged, depth_pair] at deep
    obtain ⟨levels, rfl⟩ := Nat.exists_eq_add_of_le' deep
    rw [ofDraft, toJson, Json.Tagging.read_tagged (by rfl) (by rfl)]
    simp only [numbered_pair (Draft.asWidth_nat bits)]
    rfl
  | fixedBytes length text =>
    rw [toJson, Json.depth_tagged, depth_pair] at deep
    obtain ⟨levels, rfl⟩ := Nat.exists_eq_add_of_le' deep
    rw [ofDraft, toJson, Json.Tagging.read_tagged (by rfl) (by rfl)]
    simp only [numbered_pair (Draft.asLength_nat length)]
    rfl
  | address text | bool value | bytes text | string text =>
    obtain ⟨levels, rfl⟩ := exists_level deep
    rw [ofDraft, toJson, Json.Tagging.read_tagged (by rfl) (by rfl)]
    rfl
  | array element elements ih =>
    rw [depth_array] at deep
    obtain ⟨levels, rfl⟩ := Nat.exists_eq_add_of_le' (Nat.le_trans (Nat.le_add_left 2 _) deep)
    obtain ⟨type, list⟩ := Nat.max_le.1 (Nat.le_of_add_le_add_right deep)
    obtain ⟨levels, rfl⟩ := exists_level_list list
    have read := list_ofDraft ih list
    rw [ofDraft, toJson, Json.Tagging.read_tagged (by rfl) (by rfl)]
    simp only [Json.draft, Json.itemsDraft]
    rw [Items.pair_of_ok (ArgType.ofDraft_toJson type isHeld) (by exact read)]
    rfl
  | fixedArray length element elements ih =>
    rw [depth_fixedArray] at deep
    obtain ⟨levels, rfl⟩ := Nat.exists_eq_add_of_le' (Nat.le_trans (Nat.le_add_left 2 _) deep)
    obtain ⟨type, list⟩ := Nat.max_le.1 (Nat.le_of_add_le_add_right deep)
    obtain ⟨levels, rfl⟩ := exists_level_list list
    have read := list_ofDraft ih list
    rw [ofDraft, toJson, Json.Tagging.read_tagged (by rfl) (by rfl)]
    simp only [Json.draft, Json.itemsDraft, Items.next, Draft.asLength_nat length, bind,
      Except.bind]
    rw [Items.pair_of_ok (ArgType.ofDraft_toJson type isHeld) (by exact read)]
    rfl
  | tuple elements ih =>
    rw [depth_tuple] at deep
    obtain ⟨levels, rfl⟩ := Nat.exists_eq_add_of_le' (Nat.le_trans (Nat.le_add_left 1 _) deep)
    have list := Nat.le_of_add_le_add_right deep
    obtain ⟨levels, rfl⟩ := exists_level_list list
    have read := list_ofDraft ih list
    rw [ofDraft, toJson, Json.Tagging.read_tagged (by rfl) (by rfl)]
    simp only [Json.draft, read]
    rfl

theorem depth_of_list {levels : Nat} {isHeld : Bool}
    (each : ∀ {draft argument}, ofDraft isHeld levels draft = .ok argument →
      argument.toJson.depth ≤ levels)
    {items : Items} {arguments : List Argument}
    (h : items.list (ofDraft isHeld levels) = .ok arguments) :
    (Json.array (listToJson arguments)).depth ≤ levels + 1 := by
  rw [depth_list_le]
  intro argument member
  obtain ⟨_, read⟩ := Items.ok_of_list h argument member
  exact each read

theorem depth_of_ofDraft {levels : Nat} {isHeld : Bool} {draft : Draft} {argument : Argument}
    (h : ofDraft isHeld levels draft = .ok argument) : argument.toJson.depth ≤ levels := by
  -- The elements of an array are three levels further down, those of a tuple two.
  induction levels using Nat.strongRecOn generalizing isHeld draft argument with
  | ind levels ih =>
    cases levels with
    | zero =>
      rw [ofDraft] at h
      exact absurd h Draft.tooDeep_ne_ok
    | succ levels =>
      rw [ofDraft] at h
      obtain ⟨kind, bare⟩ | ⟨isHeld, kind, contents, h⟩ := Json.Tagging.offers_of_read h
      · cases bare
      · cases kind <;> simp only at h
        case uint | int | fixedBytes =>
          obtain ⟨found, read, h⟩ := Result.bind_eq_ok.1 h
          obtain rfl := Result.pure_eq_ok.1 h
          obtain ⟨inner, _, rfl, -⟩ := Draft.ok_of_items read
          rw [toJson, Json.depth_tagged, depth_pair]
          omega
        case address | bool | bytes | string =>
          obtain ⟨found, -, rfl⟩ := Result.map_eq_ok.1 h
          simp [toJson]
        case array =>
          split at h
          · obtain ⟨found, read, h⟩ := Result.bind_eq_ok.1 h
            obtain rfl := Result.pure_eq_ok.1 h
            obtain ⟨_, _, type, list⟩ := Items.ok_of_pair read
            split at list
            · rw [depth_array, Nat.add_le_add_iff_right, Nat.max_le]
              exact ⟨ArgType.depth_of_ofDraft type, depth_of_list (ih _ (by omega)) list⟩
            · exact absurd list Draft.noItems_ne_ok
          · exact absurd h Draft.noItems_ne_ok
        case fixedArray =>
          split at h
          · obtain ⟨_, -, h⟩ := Result.bind_eq_ok.1 h
            obtain ⟨length, -, h⟩ := Result.bind_eq_ok.1 h
            obtain ⟨found, read, h⟩ := Result.bind_eq_ok.1 h
            obtain rfl := Result.pure_eq_ok.1 h
            obtain ⟨_, _, type, list⟩ := Items.ok_of_pair read
            split at list
            · rw [depth_fixedArray, Nat.add_le_add_iff_right, Nat.max_le]
              exact ⟨ArgType.depth_of_ofDraft type, depth_of_list (ih _ (by omega)) list⟩
            · exact absurd list Draft.noItems_ne_ok
          · exact absurd h Draft.noItems_ne_ok
        case tuple =>
          split at h
          · obtain ⟨elements, list, h⟩ := Result.bind_eq_ok.1 h
            obtain rfl := Result.pure_eq_ok.1 h
            rw [depth_tuple, Nat.add_le_add_iff_right]
            exact depth_of_list (ih _ (by omega)) list
          · exact absurd h Draft.noItems_ne_ok

/-! Filling keeps the depth. -/

theorem depth_list_congr {left right : List Argument}
    (each : List.Forall₂ (fun left right => left.toJson.depth = right.toJson.depth) left right) :
    (Json.array (listToJson left)).depth = (Json.array (listToJson right)).depth := by
  have items : Json.itemsDepth (listToJson left) = Json.itemsDepth (listToJson right) := by
    induction each with
    | nil => rfl
    | cons first _ ih =>
      rw [listToJson, listToJson, Json.itemsDepth, Json.itemsDepth, first, ih]
  rw [Json.depth, Json.depth, items]

theorem depth_fillElements {elements filled : List Argument} {model : Assignment} {place : Place}
    (each : ∀ element ∈ elements, ∀ {filled place}, element.fill model place = .ok filled →
      element.toJson.depth = filled.toJson.depth) {index : Nat}
    (h : fillElements model place index elements = .ok filled) :
    List.Forall₂ (fun left right => left.toJson.depth = right.toJson.depth) elements filled := by
  induction elements generalizing index filled with
  | nil =>
    obtain rfl := Except.ok.inj h
    exact .nil
  | cons element rest ih =>
    obtain ⟨first, hfirst, h⟩ := Result.bind_eq_ok.1 h
    obtain ⟨others, hothers, h⟩ := Result.bind_eq_ok.1 h
    obtain rfl := Result.pure_eq_ok.1 h
    exact .cons (each element (by simp) hfirst)
      (ih (fun element member => each element (List.mem_cons_of_mem _ member)) hothers)

theorem depth_fill {argument filled : Argument} {model : Assignment} {place : Place}
    (h : argument.fill model place = .ok filled) :
    argument.toJson.depth = filled.toJson.depth := by
  induction argument using Argument.induction generalizing place filled with
  | uint bits digits | int bits digits | address hex | bool old =>
    obtain rfl := Except.ok.inj h
    split <;> rfl
  | fixedBytes length text | bytes text | string text =>
    rw [fill] at h
    split at h
    · obtain ⟨content, -, rfl⟩ := Result.map_eq_ok.1 h
      rfl
    · obtain rfl := Except.ok.inj h
      rfl
  | array element elements ih =>
    rw [fill] at h
    split at h
    · obtain ⟨others, list, rfl⟩ := Result.map_eq_ok.1 h
      rw [depth_array, depth_array, depth_list_congr (depth_fillElements ih list)]
    · obtain rfl := Except.ok.inj h
      rfl
  | fixedArray length element elements ih =>
    rw [fill] at h
    split at h
    · obtain ⟨others, list, rfl⟩ := Result.map_eq_ok.1 h
      rw [depth_fixedArray, depth_fixedArray, depth_list_congr (depth_fillElements ih list)]
    · obtain rfl := Except.ok.inj h
      rfl
  | tuple elements ih =>
    rw [fill] at h
    split at h
    · obtain ⟨others, list, rfl⟩ := Result.map_eq_ok.1 h
      rw [depth_tuple, depth_tuple, depth_list_congr (depth_fillElements ih list)]
    · obtain rfl := Except.ok.inj h
      rfl

end Argument

end FuzzBridge
