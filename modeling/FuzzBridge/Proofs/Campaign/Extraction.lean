import FuzzBridge.Campaign.Extraction
import FuzzBridge.Proofs.Corpus.Entry
import FuzzBridge.Proofs.Json.Tagged
import FuzzBridge.Proofs.Text.Utf8

/-!
Which bytecode is extracted. A target means the contracts of its name or, where no name is given,
the only contract. The first contract that is meant, in the order of the paths, is the one whose
bytecode is written; that a name means several contracts goes unnoticed.
-/

namespace FuzzBridge

open Corpus (access access_eq_ok)

namespace Compilation

variable {compilation : Compilation} {target : Option String} {entry : String × String}

/-! Names of contracts. -/

/-- The path ends in the name, and a colon or nothing at all comes before it. -/
def IsNamed (path name : String) : Prop :=
  ':' ∉ name.toList ∧ (path = name ∨ ∃ front, path = front ++ ":" ++ name)

theorem takeWhile_eq_iff {text part : List Char} :
    text.takeWhile (· ≠ ':') = part ↔
      ':' ∉ part ∧ (text = part ∨ ∃ rest, text = part ++ ':' :: rest) := by
  induction text generalizing part with
  | nil => cases part <;> simp
  | cons c text ih =>
    by_cases colon : c = ':'
    · subst colon
      cases part <;> simp
      grind
    · rw [List.takeWhile_cons_of_pos (by simpa using colon)]
      cases part with
      | nil => simp [colon]
      | cons d part =>
        simp only [List.cons.injEq, ih, List.mem_cons, not_or, List.cons_append]
        grind

theorem contractName_eq_iff {path name : String} :
    contractName path = name ↔ IsNamed path name := by
  have reversed : contractName path = name ↔
      path.toList.reverse.takeWhile (· ≠ ':') = name.toList.reverse := by
    rw [contractName, ← String.toList_inj, String.toList_ofList, List.reverse_eq_iff]
  rw [reversed, takeWhile_eq_iff, List.mem_reverse, IsNamed, List.reverse_inj, String.toList_inj]
  refine and_congr_right fun _ => or_congr_right ⟨?_, ?_⟩
  · rintro ⟨rest, split⟩
    refine ⟨String.ofList rest.reverse, String.toList_inj.1 ?_⟩
    rw [← List.reverse_inj, split]
    simp
  · rintro ⟨front, rfl⟩
    exact ⟨front.toList.reverse, by simp⟩

/-! Contracts that are meant. -/

/-- The contracts of a name, or the only contract where no name is given. -/
def IsMeant (compilation : Compilation) : Option String → String × String → Prop
  | some name, entry => entry ∈ compilation.entries ∧ IsNamed entry.1 name
  | none, entry => compilation.entries = [entry]

/-- The contract that is meant, the first one in the order of the paths if there are several. -/
def IsFirstMeant (compilation : Compilation) (target : Option String)
    (entry : String × String) : Prop :=
  compilation.IsMeant target entry ∧
    ∀ other, compilation.IsMeant target other → ¬ other.1 < entry.1

/-- The target means more than one contract. -/
def IsAmbiguous (compilation : Compilation) (target : Option String) : Prop :=
  ∃ left right, compilation.IsMeant target left ∧ compilation.IsMeant target right ∧ left ≠ right

theorem not_isAmbiguous_none (compilation : Compilation) : ¬ compilation.IsAmbiguous none := by
  rintro ⟨left, right, alone, also, differ⟩
  exact differ (by simpa using alone.symm.trans also)

theorem existsUnique_iff (meant : compilation.IsMeant target entry) :
    (∃! entry, compilation.IsMeant target entry) ↔ ¬ compilation.IsAmbiguous target := by
  constructor
  · rintro ⟨only, -, unique⟩ ⟨left, right, hleft, hright, differ⟩
    exact differ ((unique left hleft).trans (unique right hright).symm)
  · intro single
    refine ⟨entry, meant, fun other also => ?_⟩
    by_contra differ
    exact single ⟨other, entry, also, meant, differ⟩

theorem eq_of_not_lt {left right : String × String} (hleft : left ∈ compilation.entries)
    (hright : right ∈ compilation.entries) (notLess : ¬ left.1 < right.1)
    (notMore : ¬ right.1 < left.1) : left = right := by
  have same : left.1 = right.1 :=
    String.le_antisymm (String.not_lt.1 notMore) (String.not_lt.1 notLess)
  have found := Table.find?_of_mem hleft
  rw [same, Table.find?_of_mem hright] at found
  exact Prod.ext same (Option.some.inj found).symm

theorem find?_eq_some_iff {name : String} :
    compilation.entries.find? (fun entry => contractName entry.1 = name) = some entry ↔
      compilation.IsFirstMeant (some name) entry := by
  have first {found : String × String}
      (h : compilation.entries.find? (fun entry => contractName entry.1 = name) = some found) :
      compilation.IsFirstMeant (some name) found := by
    obtain ⟨named, before, after, split, others⟩ := List.find?_eq_some_iff_append.1 h
    refine ⟨⟨List.mem_of_find?_eq_some h, contractName_eq_iff.1 (of_decide_eq_true named)⟩, ?_⟩
    intro other meant less
    have sorted := compilation.sorted
    rw [split, List.pairwise_append, List.pairwise_cons] at sorted
    have listed := meant.1
    rw [split] at listed
    rcases List.mem_append.1 listed with listed | listed
    · have unnamed := others other listed
      simp [contractName_eq_iff.2 meant.2] at unnamed
    · rcases List.mem_cons.1 listed with rfl | listed
      · exact String.lt_irrefl _ less
      · exact String.lt_asymm less (sorted.2.1.1 other listed)
  refine ⟨first, fun isFirst => ?_⟩
  cases h : compilation.entries.find? (fun entry => contractName entry.1 = name) with
  | none =>
    have unnamed := List.find?_eq_none.1 h entry isFirst.1.1
    exact absurd (decide_eq_true (contractName_eq_iff.2 isFirst.1.2)) unnamed
  | some found =>
    have isFound := first h
    exact congrArg some (eq_of_not_lt isFound.1.1 isFirst.1.1 (isFirst.2 found isFound.1)
      (isFound.2 entry isFirst.1))

theorem isFirstMeant_none :
    compilation.IsFirstMeant none entry ↔ compilation.IsMeant none entry := by
  refine and_iff_left_of_imp fun alone other also => ?_
  obtain rfl : other = entry := by simpa using also.symm.trans alone
  exact String.lt_irrefl _

theorem bytecode?_eq_some {bytecode : String} :
    compilation.bytecode? target = some bytecode ↔
      ∃ entry, compilation.IsFirstMeant target entry ∧ entry.2 = bytecode := by
  cases target with
  | some name =>
    simp only [← find?_eq_some_iff, bytecode?, Option.bind_eq_bind, Option.bind_some,
      Option.bind_eq_some_iff, Option.pure_def, Option.some.injEq]
  | none =>
    simp only [isFirstMeant_none, IsMeant, bytecode?]
    rcases compilation.entries with _ | ⟨entry, _ | ⟨other, rest⟩⟩ <;> simp

theorem exists_isFirstMeant (meant : compilation.IsMeant target entry) :
    ∃ first, compilation.IsFirstMeant target first := by
  cases target with
  | none => exact ⟨entry, isFirstMeant_none.2 meant⟩
  | some name =>
    cases h : compilation.entries.find? (fun entry => contractName entry.1 = name) with
    | none =>
      have unnamed := List.find?_eq_none.1 h entry meant.1
      exact absurd (decide_eq_true (contractName_eq_iff.2 meant.2)) unnamed
    | some first => exact ⟨first, find?_eq_some_iff.1 h⟩

theorem bytecode?_eq_none :
    compilation.bytecode? target = none ↔ ∀ entry, ¬ compilation.IsMeant target entry := by
  rw [Option.eq_none_iff_forall_ne_some]
  constructor
  · intro missing entry meant
    obtain ⟨first, isFirst⟩ := exists_isFirstMeant meant
    exact missing first.2 (bytecode?_eq_some.2 ⟨first, isFirst, rfl⟩)
  · intro nothing bytecode found
    obtain ⟨entry, isFirst, -⟩ := bytecode?_eq_some.1 found
    exact nothing entry isFirst.1

/-! The file of a compilation. -/

open Json (Members)

def contractJson (bytecode : String) : Json := .object [("bin", .text bytecode)]

def toJson (compilation : Compilation) : Json :=
  .object [("contracts",
    .object (compilation.entries.map fun entry => (entry.1, contractJson entry.2)))]

theorem readField_object {α : Type} {name : String} {read : Nat → Json.Draft → Json.Read α}
    {levels : Nat} {json : Json} {value : α} (h : read levels json.draft = .ok value) :
    readField name read (levels + 1) (Json.object [(name, json)]).draft = .ok value := by
  simp [readField, Json.draft, Json.membersDraft, Json.Draft.fields, Members.walk, h, bind,
    Except.bind, pure, Except.pure, Functor.map, Except.map]

theorem walk_contracts (levels : Nat) (entries : List (String × String)) (table : Table String) :
    (Json.membersDraft (entries.map fun entry => (entry.1, contractJson entry.2))).walk
        (fun table key => .read fun value => do
          return table.insert key (← readContract (levels + 1) value)) table =
      .ok (entries.foldl (fun table entry => table.insert entry.1 entry.2) table) := by
  induction entries generalizing table with
  | nil => rfl
  | cons entry rest ih =>
    have first : readContract (levels + 1) (contractJson entry.2).draft = .ok entry.2 :=
      readField_object rfl
    rw [List.map_cons, Json.membersDraft, Members.walk]
    simp only [first, bind, Except.bind, pure, Except.pure]
    exact ih _

theorem ofText_toJson (compilation : Compilation) :
    ofText (Text.ofChars compilation.toJson.render.toList) = .ok compilation := by
  have plain : compilation.toJson.IsPlain := by
    refine ⟨Json.membersPlain_iff.2 ?_, trivial⟩
    intro member inside
    obtain ⟨entry, -, rfl⟩ := List.mem_map.1 inside
    exact ⟨trivial, trivial⟩
  have contracts : (Json.object (compilation.entries.map fun entry =>
      (entry.1, contractJson entry.2))).draft.table 126 readContract = .ok compilation :=
    (walk_contracts 124 compilation.entries Table.empty).trans
      (congrArg Except.ok (Table.ofList_entries compilation))
  have whole : readField "contracts" (fun levels draft => draft.table levels readContract)
      Json.depthLimit compilation.toJson.draft = .ok compilation := readField_object contracts
  rw [ofText, Json.Document.ofText_render plain, Json.Document.read]
  simp [whole, bind, Except.bind, pure, Except.pure]

end Compilation

/-! Extracting. -/

variable {storage : Storage} {build scratch mark key : String} {content : Bytes}
  {compilation : Compilation} {target : Option String}

theorem extractBytecode_of_missing
    (stored : storage.read (Path.join build "combined_solc.json") = .ok content)
    (wellFormed : Compilation.ofText (Text.decode content) = .ok compilation)
    (missing : compilation.bytecode? target = none) :
    extractBytecode build target scratch mark storage = .ok (none, storage) := by
  unfold extractBytecode
  rw [access_eq_ok.2 stored]
  simp only [wellFormed, missing, bind, Except.bind, pure, Except.pure]

theorem extractBytecode_of_found
    (stored : storage.read (Path.join build "combined_solc.json") = .ok content)
    (wellFormed : Compilation.ofText (Text.decode content) = .ok compilation) {bytecode : String}
    (found : compilation.bytecode? target = some bytecode)
    (place : storage.locate (Path.join scratch (bytecodeName mark)) = .ok ⟨some key, false⟩)
    (fresh : storage.node? key = none) :
    extractBytecode build target scratch mark storage =
      .ok (some (Path.join scratch (bytecodeName mark)),
        storage.put key (Text.encode bytecode)) := by
  have notFolder : storage.node? key ≠ some .folder := by simp [fresh]
  have written : storage.write (Path.join scratch (bytecodeName mark)) (Text.encode bytecode) =
      .ok (storage.put key (Text.encode bytecode)) :=
    Storage.write_eq_ok.2 ⟨key, place, notFolder, rfl⟩
  unfold extractBytecode
  rw [access_eq_ok.2 stored]
  simp only [wellFormed, found, access_eq_ok.2 written, bind, Except.bind, pure, Except.pure]

/-- A file is written exactly if the target means some contract, and it then holds the bytecode of
the first one; otherwise nothing is written. So a file stands for exactly one contract unless the
target is ambiguous, and a target without a name never is. -/
theorem extractBytecode_takes_first
    (stored : storage.read (Path.join build "combined_solc.json") = .ok content)
    (wellFormed : Compilation.ofText (Text.decode content) = .ok compilation)
    (place : storage.locate (Path.join scratch (bytecodeName mark)) = .ok ⟨some key, false⟩)
    (fresh : storage.node? key = none) (target : Option String) :
    let path := Path.join scratch (bytecodeName mark)
    let extracted := extractBytecode build target scratch mark storage
    let isWritten := ∃ path after, extracted = .ok (some path, after)
    (isWritten ↔ ∃ entry, compilation.IsMeant target entry) ∧
      (∀ entry, compilation.IsFirstMeant target entry →
        extracted = .ok (some path, storage.put key (Text.encode entry.2)) ∧
          (storage.put key (Text.encode entry.2)).read path = .ok (Text.encode entry.2)) ∧
      ((∀ entry, ¬ compilation.IsMeant target entry) → extracted = .ok (none, storage)) ∧
      ((isWritten ↔ ∃! entry, compilation.IsMeant target entry) ↔
        ¬ compilation.IsAmbiguous target) ∧
      ¬ compilation.IsAmbiguous none := by
  intro path extracted isWritten
  have first (entry : String × String) (isFirst : compilation.IsFirstMeant target entry) :
      extracted = .ok (some path, storage.put key (Text.encode entry.2)) :=
    extractBytecode_of_found stored wellFormed
      (Compilation.bytecode?_eq_some.2 ⟨entry, isFirst, rfl⟩) place fresh
  have nothing (missing : ∀ entry, ¬ compilation.IsMeant target entry) :
      extracted = .ok (none, storage) :=
    extractBytecode_of_missing stored wellFormed (Compilation.bytecode?_eq_none.2 missing)
  have isWritten_iff : isWritten ↔ ∃ entry, compilation.IsMeant target entry := by
    constructor
    · rintro ⟨path, after, written⟩
      by_contra missing
      rw [nothing (not_exists.1 missing)] at written
      cases written
    · rintro ⟨entry, meant⟩
      obtain ⟨entry, isFirst⟩ := Compilation.exists_isFirstMeant meant
      exact ⟨_, _, first entry isFirst⟩
  refine ⟨isWritten_iff, fun entry isFirst => ⟨first entry isFirst, ?_⟩, nothing, ?_,
    compilation.not_isAmbiguous_none⟩
  · have notFolder : storage.node? key ≠ some .folder := by simp [fresh]
    exact Storage.read_write (Storage.write_eq_ok.2 ⟨key, place, notFolder, rfl⟩)
  · rw [isWritten_iff]
    by_cases meant : ∃ entry, compilation.IsMeant target entry
    · obtain ⟨entry, meant⟩ := meant
      exact (iff_true_left ⟨entry, meant⟩).trans (Compilation.existsUnique_iff meant)
    · refine iff_of_true (iff_of_false meant fun ⟨entry, only, _⟩ => meant ⟨entry, only⟩) ?_
      rintro ⟨left, -, hleft, -⟩
      exact meant ⟨left, hleft⟩

def twofold : Compilation := Table.ofList [("a.sol:T", "11"), ("z.sol:T", "22")]

def twofoldBuild : Storage :=
  ⟨"/campaign", Table.ofList
    [("combined_solc.json", .file (Text.encode twofold.toJson.render))]⟩

theorem ofText_twofold :
    Compilation.ofText (Text.decode (Text.encode twofold.toJson.render)) = .ok twofold := by
  rw [Text.decode_encode, Compilation.ofText_toJson]

theorem twofoldBuild_read :
    twofoldBuild.read (Path.join "" "combined_solc.json") =
      .ok (Text.encode twofold.toJson.render) := rfl

theorem twofoldBuild_locate :
    twofoldBuild.locate (Path.join "" (bytecodeName "1")) =
      .ok ⟨some "hybridfuzz_contract_1.bin", false⟩ := rfl

theorem twofoldBuild_node? : twofoldBuild.node? "hybridfuzz_contract_1.bin" = none := rfl

theorem isAmbiguous_twofold : twofold.IsAmbiguous (some "T") :=
  ⟨("a.sol:T", "11"), ("z.sol:T", "22"), ⟨by decide, by decide, .inr ⟨"a.sol", rfl⟩⟩,
    ⟨by decide, by decide, .inr ⟨"z.sol", rfl⟩⟩, by decide⟩

theorem extractBytecode_takes_first_twofold :
    twofoldBuild.read "combined_solc.json" = .ok (Text.encode twofold.toJson.render) ∧
      Compilation.ofText (Text.decode (Text.encode twofold.toJson.render)) = .ok twofold ∧
      twofoldBuild.locate "hybridfuzz_contract_1.bin" =
        .ok ⟨some "hybridfuzz_contract_1.bin", false⟩ ∧
      twofoldBuild.node? "hybridfuzz_contract_1.bin" = none ∧
      extractBytecode "" (some "T") "" "1" twofoldBuild =
        .ok (some "hybridfuzz_contract_1.bin",
          twofoldBuild.put "hybridfuzz_contract_1.bin" (Text.encode "11")) ∧
      extractBytecode "" none "" "1" twofoldBuild = .ok (none, twofoldBuild) := by
  have isFirst : twofold.IsFirstMeant (some "T") ("a.sol:T", "11") :=
    Compilation.find?_eq_some_iff.1 (by decide)
  have unnamed : ∀ entry, ¬ twofold.IsMeant none entry := fun entry alone => by cases alone
  obtain ⟨-, written, -⟩ := extractBytecode_takes_first twofoldBuild_read ofText_twofold
    twofoldBuild_locate twofoldBuild_node? (some "T")
  obtain ⟨-, -, missing, -⟩ := extractBytecode_takes_first twofoldBuild_read ofText_twofold
    twofoldBuild_locate twofoldBuild_node? none
  exact ⟨twofoldBuild_read, ofText_twofold, twofoldBuild_locate, twofoldBuild_node?,
    (written _ isFirst).1, missing unnamed⟩

theorem ambiguous_target_is_extracted :
    Compilation.ofText (Text.decode (Text.encode twofold.toJson.render)) = .ok twofold ∧
      twofold.IsAmbiguous (some "T") ∧
      ∃ after, extractBytecode "" (some "T") "" "1" twofoldBuild =
          .ok (some "hybridfuzz_contract_1.bin", after) ∧
        after.read "hybridfuzz_contract_1.bin" = .ok (Text.encode "11") := by
  have found : twofold.bytecode? (some "T") = some "11" := by decide
  refine ⟨ofText_twofold, isAmbiguous_twofold, _, extractBytecode_of_found twofoldBuild_read
    ofText_twofold found twofoldBuild_locate twofoldBuild_node?, ?_⟩
  exact Storage.read_write
    (Storage.write_eq_ok.2 ⟨_, twofoldBuild_locate, by simp [twofoldBuild_node?], rfl⟩)

end FuzzBridge
