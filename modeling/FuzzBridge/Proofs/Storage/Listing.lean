import FuzzBridge.Proofs.Storage.Folder
import FuzzBridge.Proofs.Table

/-!
The listing of a folder. It has what stands directly behind the key of the folder, in the order of
the names, and a new file comes between what is listed.
-/

namespace FuzzBridge.Storage

variable {storage : Storage} {folder key name : String}

/-- What starts the keys of what is in a folder. -/
def keyStart (folder : String) : List Char := if folder = "" then [] else folder.toList ++ ['/']

theorem toList_childKey (folder name : String) :
    (childKey folder name).toList = keyStart folder ++ name.toList := by
  rw [childKey, keyStart]
  split <;> simp

theorem childKey_injective {other : String} (h : childKey folder name = childKey folder other) :
    name = other := by
  have spelled := congrArg String.toList h
  rw [toList_childKey, toList_childKey] at spelled
  exact String.toList_injective (List.append_cancel_left spelled)

theorem lt_of_childKey_lt {other : String} (h : childKey folder name < childKey folder other) :
    name < other := by
  have spelled : keyStart folder ++ name.toList < keyStart folder ++ other.toList := by
    rw [← toList_childKey, ← toList_childKey]
    exact h
  by_contra notLess
  rcases List.le_iff_lt_or_eq.1 (List.not_lt.1 notLess) with less | same
  · exact List.lt_asymm spelled (List.append_left_lt less)
  · rw [same] at spelled
    exact List.lt_irrefl _ spelled

theorem childKey_ne_empty (named : name ≠ "") : childKey folder name ≠ "" := by
  intro empty
  have spelled := congrArg String.toList empty
  rw [toList_childKey, String.toList_empty, List.append_eq_nil_iff] at spelled
  exact named (String.toList_eq_nil_iff.1 spelled.2)

theorem nameIn?_eq_some :
    nameIn? folder key = some name ↔ '/' ∉ name.toList ∧ childKey folder name = key := by
  have start : nameIn? folder key =
      if (keyStart folder).isPrefixOf key.toList &&
          !(key.toList.drop (keyStart folder).length).contains '/'
      then some (String.ofList (key.toList.drop (keyStart folder).length)) else none := rfl
  rw [start]
  constructor
  · intro found
    split at found
    · next within =>
      rw [Bool.and_eq_true, List.isPrefixOf_iff_prefix, Bool.not_eq_true', List.contains_eq_mem,
        decide_eq_false_iff_not] at within
      obtain ⟨⟨rest, split⟩, plain⟩ := within
      rw [← split, List.drop_left] at plain found
      obtain rfl := Option.some.inj found
      rw [String.toList_ofList]
      refine ⟨plain, String.toList_injective ?_⟩
      rw [toList_childKey, String.toList_ofList, split]
    · cases found
  · rintro ⟨plain, rfl⟩
    rw [toList_childKey, List.drop_left, if_pos (by simpa using plain), String.ofList_toList]

/-! What a folder holds. -/

def children (storage : Storage) (key : String) : List (String × StoredNode) :=
  storage.nodes.entries.filterMap fun entry => (nameIn? key entry.1).map fun name => (name, entry.2)

theorem child_eq_some {entry : String × StoredNode} {child : String × StoredNode} :
    (nameIn? key entry.1).map (fun name => (name, entry.2)) = some child ↔
      '/' ∉ child.1.toList ∧ entry = (childKey key child.1, child.2) := by
  rw [Option.map_eq_some_iff]
  constructor
  · rintro ⟨name, inside, rfl⟩
    obtain ⟨plain, same⟩ := nameIn?_eq_some.1 inside
    exact ⟨plain, by rw [same]⟩
  · rintro ⟨plain, rfl⟩
    exact ⟨child.1, nameIn?_eq_some.2 ⟨plain, rfl⟩, rfl⟩

theorem mem_children {node : StoredNode} :
    (name, node) ∈ storage.children key ↔
      '/' ∉ name.toList ∧ storage.nodes.find? (childKey key name) = some node := by
  simp only [children, List.mem_filterMap, child_eq_some]
  constructor
  · rintro ⟨_, member, plain, rfl⟩
    exact ⟨plain, Table.find?_of_mem member⟩
  · rintro ⟨plain, found⟩
    exact ⟨_, Table.mem_of_find? found, plain, rfl⟩

theorem children_sorted (storage : Storage) (key : String) :
    (storage.children key).Pairwise fun left right => left.1 < right.1 := by
  rw [children, List.pairwise_filterMap]
  refine storage.nodes.sorted.imp fun less child isChild other isOther => ?_
  obtain ⟨-, rfl⟩ := child_eq_some.1 isChild
  obtain ⟨-, rfl⟩ := child_eq_some.1 isOther
  exact lt_of_childKey_lt less

theorem children_put {content : Bytes} (plain : '/' ∉ name.toList)
    (fresh : storage.nodes.find? (childKey key name) = none) :
    ∃ before after, storage.children key = before ++ after ∧
      (storage.put (childKey key name) content).children key =
        before ++ (name, .file content) :: after := by
  obtain ⟨before, after, split, inserted⟩ := Table.exists_insert fresh (.file content)
  refine ⟨_, _, by rw [children, split, List.filterMap_append], ?_⟩
  have child : (nameIn? key (childKey key name)).map (fun name => (name, StoredNode.file content)) =
      some (name, .file content) := by
    rw [nameIn?_eq_some.2 ⟨plain, rfl⟩, Option.map_some]
  rw [children, put, inserted, List.filterMap_append, List.filterMap_cons]
  simp only [child]

theorem list_eq_ok {found : List (String × StoredNode)} :
    storage.list folder = .ok found ↔
      (∃ key, storage.IsFolderAt folder key ∧ storage.children key = found) ∨
        (∃ asksFolder, storage.locate folder = .ok ⟨none, asksFolder⟩) ∧ found = [] := by
  unfold list
  constructor
  · intro listed
    obtain ⟨node, there, listed⟩ := Result.bind_eq_ok.1 listed
    obtain ⟨⟨key?, asksFolder⟩, located, isNode, -⟩ := find_eq_ok.1 there
    cases node with
    | file content => cases listed
    | folder =>
      simp only [located, bind, Except.bind] at listed
      cases key? with
      | none => exact .inr ⟨⟨asksFolder, located⟩, (Except.ok.inj listed).symm⟩
      | some key => exact .inl ⟨key, ⟨⟨asksFolder, located⟩, isNode⟩, Except.ok.inj listed⟩
  · rintro (⟨key, within, rfl⟩ | ⟨⟨asksFolder, located⟩, rfl⟩)
    · obtain ⟨asksFolder, located⟩ := within.located
      have there : storage.find folder = .ok .folder :=
        find_eq_ok.2 ⟨_, located, within.isFolder, .inl rfl⟩
      rw [there, located]
      rfl
    · have there : storage.find folder = .ok .folder :=
        find_eq_ok.2 ⟨_, located, rfl, .inl rfl⟩
      rw [there, located]
      rfl

end FuzzBridge.Storage
