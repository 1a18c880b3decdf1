import FuzzBridge.Corpus.Entry
import FuzzBridge.Proofs.Storage.Growth

/-!
The entries of a folder: which names are listed, and in which order.
-/

namespace FuzzBridge.Corpus

open Storage (childKey)

variable {storage : Storage} {folder key name : String}

theorem access_eq_ok {α : Type} {attempt : Storage.Attempt α} {value : α} :
    access attempt = .ok value ↔ attempt = .ok value := by
  cases attempt <;> simp [access]

def entryBytes (records : List Record) : Bytes := Text.encode (Record.listToText records)

theorem isEntryName_iff :
    isEntryName name ↔
      entryEnding.toList <:+ name.toList ∧ ¬ "covered.".toList <+: name.toList := by
  have ends : name.endsWith entryEnding ↔ entryEnding.toList <:+ name.toList := by
    have sliced : name.toSlice.endsWith entryEnding ↔ _ := String.Slice.endsWith_string_iff
    rwa [String.copy_toSlice] at sliced
  rw [isEntryName, Bool.and_eq_true, Bool.not_eq_true', ends, String.startsWith_string_eq_false_iff]

theorem isName_of_isEntryName (plain : '/' ∉ name.toList) (isEntry : isEntryName name) :
    Path.IsName name := by
  have dotted := (isEntryName_iff.1 isEntry).1
  refine ⟨plain, ?_, ?_, ?_⟩
  all_goals
    rintro rfl
    exact absurd dotted (by decide)

/-- The numbered names of a stem are names of entries, unless the stem is that of a listing. -/
theorem isEntryName_numbered {stem : String} (differs : ¬ "covered.".toList <+: stem.toList)
    (long : 8 ≤ stem.toList.length) (number : Nat) :
    isEntryName (Storage.numbered stem entryEnding number) := by
  rw [isEntryName_iff, Storage.toList_numbered]
  refine ⟨⟨stem.toList ++ '_' :: Nat.toDigits 10 number, by simp⟩, fun covered => differs ?_⟩
  exact List.prefix_of_prefix_length_le covered (List.prefix_append _ _) long

def entryName? : String × StoredNode → Option String
  | (name, .file _) => if isEntryName name then some name else none
  | (_, .folder) => none

theorem entryName?_eq_some {child : String × StoredNode} :
    entryName? child = some name ↔
      isEntryName name ∧ ∃ content, child = (name, .file content) := by
  obtain ⟨other, content | _⟩ := child
  · rw [entryName?, Option.ite_none_right_eq_some, Option.some_inj]
    constructor
    · rintro ⟨isEntry, rfl⟩
      exact ⟨isEntry, content, rfl⟩
    · rintro ⟨isEntry, _, same⟩
      obtain rfl := congrArg Prod.fst same
      exact ⟨isEntry, rfl⟩
  · simp [entryName?]

def namesAt (storage : Storage) (key : String) : List String :=
  (storage.children key).filterMap entryName?

theorem entryNames_eq_ok {names : List String} :
    entryNames storage folder = .ok names ↔
      (∃ key, storage.IsFolderAt folder key ∧ namesAt storage key = names) ∨
        (∃ asksFolder, storage.locate folder = .ok ⟨none, asksFolder⟩) ∧ names = [] := by
  have listed : entryNames storage folder = .ok names ↔
      ∃ found, storage.list folder = .ok found ∧ found.filterMap entryName? = names := by
    rw [entryNames, Result.bind_eq_ok]
    simp only [access_eq_ok, Result.pure_eq_ok]
    rfl
  rw [listed]
  constructor
  · rintro ⟨found, isList, rfl⟩
    rcases Storage.list_eq_ok.1 isList with ⟨key, within, rfl⟩ | ⟨outside, rfl⟩
    · exact .inl ⟨key, within, rfl⟩
    · exact .inr ⟨outside, rfl⟩
  · rintro (⟨key, within, rfl⟩ | ⟨outside, rfl⟩)
    · exact ⟨_, Storage.list_eq_ok.2 (.inl ⟨key, within, rfl⟩), rfl⟩
    · exact ⟨[], Storage.list_eq_ok.2 (.inr ⟨outside, rfl⟩), rfl⟩

theorem entryNames_of_isFolderAt (within : storage.IsFolderAt folder key) :
    entryNames storage folder = .ok (namesAt storage key) :=
  entryNames_eq_ok.2 (.inl ⟨key, within, rfl⟩)

theorem mem_namesAt :
    name ∈ namesAt storage key ↔
      ('/' ∉ name.toList ∧ isEntryName name) ∧
        ∃ content, storage.node? (childKey key name) = some (.file content) := by
  simp only [namesAt, List.mem_filterMap, entryName?_eq_some]
  constructor
  · rintro ⟨_, member, isEntry, content, rfl⟩
    obtain ⟨plain, found⟩ := Storage.mem_children.1 member
    have named := (isName_of_isEntryName plain isEntry).nonempty
    refine ⟨⟨plain, isEntry⟩, content, ?_⟩
    rw [Storage.node?, if_neg (Storage.childKey_ne_empty named), found]
  · rintro ⟨⟨plain, isEntry⟩, content, there⟩
    have named := (isName_of_isEntryName plain isEntry).nonempty
    rw [Storage.node?, if_neg (Storage.childKey_ne_empty named)] at there
    exact ⟨_, Storage.mem_children.2 ⟨plain, there⟩, isEntry, content, rfl⟩

theorem filter_namesAt (storage : Storage) (key : String) (keep : String → Bool) :
    (namesAt storage key).filter keep =
      ((storage.children key).filter fun child => keep child.1).filterMap entryName? := by
  rw [namesAt, List.filter_filterMap, List.filterMap_filter]
  refine List.filterMap_congr fun child _ => ?_
  cases named : entryName? child with
  | none => simp
  | some name =>
    obtain ⟨-, _, rfl⟩ := entryName?_eq_some.1 named
    rfl

theorem namesAt_sorted (storage : Storage) (key : String) :
    (namesAt storage key).Pairwise (· < ·) := by
  rw [namesAt, List.pairwise_filterMap]
  refine (Storage.children_sorted storage key).imp fun less name isEntry other isOther => ?_
  obtain ⟨-, _, rfl⟩ := entryName?_eq_some.1 isEntry
  obtain ⟨-, _, rfl⟩ := entryName?_eq_some.1 isOther
  exact less

theorem entryNames_sorted {names : List String} (listed : entryNames storage folder = .ok names) :
    names.Pairwise (· < ·) := by
  rcases entryNames_eq_ok.1 listed with ⟨key, -, rfl⟩ | ⟨-, rfl⟩
  · exact namesAt_sorted storage key
  · exact .nil

theorem namesAt_put (content : Bytes) (plain : '/' ∉ name.toList) (isEntry : isEntryName name)
    (fresh : storage.node? (childKey key name) = none) :
    ∃ before after, namesAt storage key = before ++ after ∧
      namesAt (storage.put (childKey key name) content) key = before ++ name :: after := by
  have named := (isName_of_isEntryName plain isEntry).nonempty
  rw [Storage.node?, if_neg (Storage.childKey_ne_empty named)] at fresh
  obtain ⟨before, after, split, placed⟩ := Storage.children_put plain fresh
  refine ⟨before.filterMap entryName?, after.filterMap entryName?, ?_, ?_⟩
  · rw [namesAt, split, List.filterMap_append]
  · rw [namesAt, placed, List.filterMap_append,
      List.filterMap_cons_some (entryName?_eq_some.2 ⟨isEntry, content, rfl⟩)]

theorem readEntry_eq_ok {path : String} {records : List Record} :
    readEntry storage path = .ok records ↔
      ∃ content, storage.read path = .ok content ∧
        Record.listOfText (Text.decode content) = .ok records := by
  simp only [readEntry, Result.bind_eq_ok, access_eq_ok]

theorem readEntry_congr {after : Storage} {path : String}
    (same : ∀ node, after.find path = .ok node ↔ storage.find path = .ok node)
    {records : List Record} :
    readEntry after path = .ok records ↔ readEntry storage path = .ok records := by
  simp only [readEntry_eq_ok, Storage.read_eq_find, same]

end FuzzBridge.Corpus
