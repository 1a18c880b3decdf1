import FuzzBridge.Proofs.Corpus.Seeds

/-!
Dumping does not disturb the templates. A new file holds only templates, so wherever it is listed,
the first record with a signature is the same as before.
-/

namespace FuzzBridge

namespace Templates

theorem addAll_append (templates : Templates) (left right : List Record) :
    templates.addAll (left ++ right) = (templates.addAll left).addAll right :=
  List.foldl_append

theorem foldl_addAll {α : Type} (recordsOf : α → List Record) (list : List α)
    (templates : Templates) :
    list.foldl (fun templates item => templates.addAll (recordsOf item)) templates =
      templates.addAll (list.flatMap recordsOf) := by
  induction list generalizing templates with
  | nil => rfl
  | cons item rest ih => rw [List.foldl_cons, ih, List.flatMap_cons, addAll_append]

/-- The template that a table has for the function that a record calls is the record. -/
def IsOwn (templates : Templates) (record : Record) : Prop :=
  ∃ signature, record.signature? = some signature ∧ templates.find? signature = some record

/-- Templates that are added again change nothing, wherever they come. -/
theorem addAll_insert {before between after : List Record}
    (own : ∀ record ∈ between, IsOwn (empty.addAll (before ++ after)) record) :
    empty.addAll (before ++ (between ++ after)) = empty.addAll (before ++ after) := by
  refine Table.ext_find? fun key => ?_
  rw [find?_empty_addAll, find?_empty_addAll, List.find?_append, List.find?_append,
    List.find?_append]
  cases first : before.find? (calls key) with
  | some record => rfl
  | none =>
    rw [Option.none_or, Option.none_or]
    cases again : between.find? (calls key) with
    | none => rw [Option.none_or]
    | some record =>
      obtain ⟨signature, named, known⟩ := own record (List.mem_of_find?_eq_some again)
      have same : record.signature? = some key := by simpa [calls] using List.find?_some again
      obtain rfl : signature = key := Option.some.inj (named.symm.trans same)
      rw [find?_empty_addAll, List.find?_append, first, Option.none_or] at known
      rw [Option.some_or, known]

theorem isOwn_of_find? {records : List Record} {signature : String} {record : Record}
    (known : (empty.addAll records).find? signature = some record) :
    IsOwn (empty.addAll records) record ∧ record ∈ records := by
  have found := known
  rw [find?_empty_addAll] at found
  have named : record.signature? = some signature := by simpa [calls] using List.find?_some found
  exact ⟨⟨signature, named, known⟩, List.mem_of_find?_eq_some found⟩

end Templates

namespace Corpus

open Storage (childKey)
open Templates (IsOwn)

variable {storage after : Storage} {folder key : String} {templates : Templates}

def harvest (storage : Storage) (folder : String) (names : List String) : List Record :=
  names.flatMap fun name => readableRecords storage (Path.join folder name)

theorem templatesOf_eq_ok :
    templatesOf storage folder = .ok templates ↔
      ∃ names, entryNames storage folder = .ok names ∧
        Templates.empty.addAll (harvest storage folder names) = templates := by
  have folded (names : List String) :
      (names.map (Path.join folder)).foldl
        (fun templates path => templates.addAll (readableRecords storage path)) Templates.empty =
      Templates.empty.addAll (harvest storage folder names) := by
    rw [Templates.foldl_addAll, harvest, List.flatMap_map]
  simp only [templatesOf, entries, Result.bind_eq_ok, Result.pure_eq_ok]
  constructor
  · rintro ⟨_, ⟨names, listed, rfl⟩, rfl⟩
    exact ⟨names, listed, (folded names).symm⟩
  · rintro ⟨names, listed, rfl⟩
    exact ⟨_, ⟨names, listed, rfl⟩, folded names⟩

theorem mem_readableRecords {path : String} {record : Record} :
    record ∈ readableRecords storage path ↔
      ∃ records, readEntry storage path = .ok records ∧ record ∈ records := by
  unfold readableRecords
  split <;> simp [*]

theorem readableRecords_of_read {path : String} {records : List Record}
    (read : readEntry storage path = .ok records) : readableRecords storage path = records := by
  rw [readableRecords, read]

theorem readableRecords_congr {path : String}
    (same : ∀ node, after.find path = .ok node ↔ storage.find path = .ok node) :
    readableRecords after path = readableRecords storage path := by
  cases read : readEntry storage path with
  | ok records =>
    rw [readableRecords_of_read read, readableRecords_of_read ((readEntry_congr same).2 read)]
  | error fault =>
    cases again : readEntry after path with
    | ok records =>
      rw [(readEntry_congr same).1 again] at read
      cases read
    | error fault' => rw [readableRecords, readableRecords, read, again]

theorem depth_of_own {records : List Record} (found : templatesOf storage folder = .ok templates)
    (own : ∀ record ∈ records, IsOwn templates record) :
    (Record.listToJson records).depth ≤ Json.depthLimit := by
  obtain ⟨names, -, rfl⟩ := templatesOf_eq_ok.1 found
  refine Record.depth_listToJson.2 fun record member => ?_
  obtain ⟨signature, -, known⟩ := own record member
  obtain ⟨name, -, inside⟩ := List.mem_flatMap.1 (Templates.isOwn_of_find? known).2
  obtain ⟨others, read, inside⟩ := mem_readableRecords.1 inside
  obtain ⟨content, -, parsed⟩ := readEntry_eq_ok.1 read
  exact Record.depth_listToJson.1 (Record.depth_of_listOfText parsed) record inside

theorem harvest_put (content : Bytes) (rooted : storage.IsRooted)
    (within : storage.IsFolderAt folder key) {name : String}
    (fresh : storage.node? (childKey key name) = none) {names : List String}
    (listed : ∀ other ∈ names, other ∈ namesAt storage key) :
    harvest (storage.put (childKey key name) content) folder names =
      harvest storage folder names := by
  refine List.flatMap_congr fun other member => readableRecords_congr fun node => ?_
  obtain ⟨⟨plain, isEntry⟩, there⟩ := mem_namesAt.1 (listed other member)
  refine within.find_put rooted (isName_of_isEntryName plain isEntry) ?_ fresh
  rintro rfl
  rw [fresh] at there
  obtain ⟨_, there⟩ := there
  cases there

theorem mem_of_readableRecords_put (rooted : storage.IsRooted)
    (within : storage.IsFolderAt folder key) {name : String} (isName : Path.IsName name)
    (fresh : storage.node? (childKey key name) = none) {records : List Record}
    (deep : (Record.listToJson records).depth ≤ Json.depthLimit) {record : Record}
    (member : record ∈ readableRecords (storage.put (childKey key name) (entryBytes records))
      (Path.join folder name)) : record ∈ records := by
  have keeps : storage.Keeps (storage.put (childKey key name) (entryBytes records)) := .put fresh
  obtain ⟨others, read, inside⟩ := mem_readableRecords.1 member
  obtain ⟨content, stored, parsed⟩ := readEntry_eq_ok.1 read
  obtain ⟨other, located, there⟩ := Storage.read_eq_ok.1 stored
  obtain ⟨-, same⟩ :=
    ((keeps.isFolderAt within).locate_join (keeps.isRooted rooted) isName).1 located
  obtain rfl : childKey key name = other := by simpa using congrArg Storage.Spot.key? same
  rw [Storage.node?_put_self (Storage.childKey_ne_empty isName.nonempty)] at there
  obtain rfl : entryBytes records = content := by simpa using there
  rwa [Except.ok.inj (parsed.symm.trans (Record.readsBack_of_depth deep))] at inside

/-- A new entry of templates changes no template, wherever it is listed. -/
theorem templatesOf_put (rooted : storage.IsRooted) (within : storage.IsFolderAt folder key)
    {name : String} (plain : '/' ∉ name.toList) (isEntry : isEntryName name)
    (fresh : storage.node? (childKey key name) = none) {records : List Record}
    (found : templatesOf storage folder = .ok templates)
    (own : ∀ record ∈ records, IsOwn templates record) :
    templatesOf (storage.put (childKey key name) (entryBytes records)) folder = .ok templates := by
  have isName := isName_of_isEntryName plain isEntry
  have deep := depth_of_own found own
  have keeps : storage.Keeps (storage.put (childKey key name) (entryBytes records)) := .put fresh
  obtain ⟨before, after, names, placed⟩ :=
    namesAt_put (entryBytes records) plain isEntry fresh
  have front := harvest_put (entryBytes records) rooted within fresh
    fun other (member : other ∈ before) => by simp [names, member]
  have back := harvest_put (entryBytes records) rooted within fresh
    fun other (member : other ∈ after) => by simp [names, member]
  obtain ⟨_, listed, rfl⟩ := templatesOf_eq_ok.1 found
  obtain rfl := Except.ok.inj ((entryNames_of_isFolderAt within).symm.trans listed)
  refine templatesOf_eq_ok.2 ⟨_, entryNames_of_isFolderAt (keeps.isFolderAt within), ?_⟩
  rw [harvest] at front back
  rw [placed, names, harvest, harvest, List.flatMap_append, List.flatMap_append, List.flatMap_cons,
    front, back]
  refine Templates.addAll_insert fun record member => ?_
  have known := own record (mem_of_readableRecords_put rooted within isName fresh deep member)
  rwa [names, harvest, List.flatMap_append] at known

theorem own_of_mem_seedRecords {frontier : Frontier} {records : List Record}
    (found : templatesOf storage folder = .ok templates)
    (member : records ∈ seedRecords templates frontier) :
    ∀ record ∈ records, IsOwn templates record := by
  obtain ⟨names, -, rfl⟩ := templatesOf_eq_ok.1 found
  obtain ⟨sequence, -, known⟩ := List.mem_filterMap.1 member
  intro record inside
  obtain ⟨index, bound, rfl⟩ := List.getElem_of_mem inside
  have each := Templates.records?_eq_some.1 known
  exact (Templates.isOwn_of_find? (each.get (each.length_eq ▸ bound) bound)).1

/-- Dumping leaves the templates of a folder as they are, even where the new files are listed before
those that the templates come from. All new files can be read, and dumping again, for which there
only has to be room, makes files with the same contents. -/
theorem dumpSeeds_keeps_templates {frontier : Frontier} {paths : List String}
    (rooted : storage.IsRooted) (found : templatesOf storage folder = .ok templates)
    (dumped : dumpSeeds templates frontier folder storage = .ok (paths, after)) :
    templatesOf after folder = .ok templates ∧
      paths.map after.read = ((seedRecords templates frontier).map entryBytes).map .ok ∧
      (∀ again last, dumpSeeds templates frontier folder after = .ok (again, last) →
        again.map last.read = paths.map after.read) ∧
      ∀ key, after.IsFolderAt folder key →
        after.HasRoom folder seedStem entryEnding paths.length →
        ∃ again last, dumpSeeds templates frontier folder after = .ok (again, last) := by
  obtain ⟨created, creates, contents, rfl⟩ := writeSeeds_eq_ok.1 dumped
  have reads {again : List String} {before last : Storage}
      (dumped : dumpSeeds templates frontier folder before = .ok (again, last)) :
      again.map last.read = ((seedRecords templates frontier).map entryBytes).map .ok := by
    obtain ⟨files, creates, contents, rfl⟩ := writeSeeds_eq_ok.1 dumped
    rw [← contents, ← creates.map_read, List.map_map]
    rfl
  refine ⟨?_, reads dumped, fun again last repeated => ?_, fun key within room => ?_⟩
  · obtain ⟨names, listed, -⟩ := templatesOf_eq_ok.1 found
    rcases entryNames_eq_ok.1 listed with ⟨key, within, -⟩ | ⟨⟨_, outside⟩, -⟩
    · refine creates.relates isStem_seedStem rooted within (motive := fun before after =>
        templatesOf before folder = .ok templates → templatesOf after folder = .ok templates)
        (fun _ => id) (fun _ _ _ left right => right ∘ left) ?_ found
      intro middle rooted within _ file member fresh found
      have inside : file.2 ∈ (seedRecords templates frontier).map entryBytes := by
        rw [← contents]
        exact List.mem_map_of_mem member
      obtain ⟨records, seed, bytes⟩ := List.mem_map.1 inside
      rw [← bytes]
      exact templatesOf_put rooted within (isStem_seedStem.isName file.1).slash
        (isEntryName_numbered (by decide) (by decide) file.1) fresh found
        (own_of_mem_seedRecords found seed)
    · obtain ⟨-, rfl⟩ := creates.eq_of_outside isStem_seedStem rooted outside
      exact found
  · rw [reads repeated, reads dumped]
  · rw [List.length_map, ← List.length_map (·.2), contents] at room
    obtain ⟨files, last, contents', creates'⟩ :=
      Storage.exists_creates isStem_seedStem _ room (creates.keeps.isRooted rooted) within
    exact ⟨_, last, writeSeeds_eq_ok.2 ⟨files, creates', contents', rfl⟩⟩

/-- A folder whose only entry is listed behind every seed. -/
def harvested : Storage := unused.put "z.txt" (entryBytes [Record.deposit])

theorem harvested_isFolderAt : harvested.IsFolderAt "." "" := ⟨⟨false, rfl⟩, rfl⟩

theorem templatesOf_harvested :
    templatesOf harvested "." = .ok (Templates.empty.addAll [Record.deposit]) := by
  have isEntry : isEntryName "z.txt" := isEntryName_iff.2 ⟨by decide, by decide⟩
  have names : namesAt harvested "" = ["z.txt"] := by
    have children : harvested.children "" = [("z.txt", .file (entryBytes [Record.deposit]))] := rfl
    rw [namesAt, children, List.filterMap_cons_some (entryName?_eq_some.2 ⟨isEntry, _, rfl⟩)]
    rfl
  have listed : entryNames harvested "." = .ok ["z.txt"] := by
    rw [entryNames_of_isFolderAt harvested_isFolderAt, names]
  have stored : harvested.read "./z.txt" = .ok (entryBytes [Record.deposit]) := by rfl
  have read := readEntry_of_read stored (Record.readsBack_of_depth (by decide))
  refine templatesOf_eq_ok.2 ⟨_, listed, ?_⟩
  rw [harvest, List.flatMap_cons, List.flatMap_nil, List.append_nil]
  exact congrArg Templates.empty.addAll (readableRecords_of_read read)

theorem dumpSeeds_keeps_templates_vault :
    ∃ (paths : List String) (after : Storage), paths.length = 2 ∧
      dumpSeeds (Templates.empty.addAll [Record.deposit]) vault "." harvested =
        .ok (paths, after) ∧
      templatesOf after "." = .ok (Templates.empty.addAll [Record.deposit]) ∧
      paths.map after.read = [.ok (entryBytes [Record.deposit]),
        .ok (entryBytes [Record.deposit, Record.deposit])] := by
  have rooted : harvested.IsRooted := ⟨by decide, by decide⟩
  have room : harvested.HasRoom "." seedStem entryEnding 2 :=
    .of_short isStem_seedStem (by decide) ⟨[0, 1], by decide, by decide, by decide⟩
  obtain ⟨created, after, contents, creates⟩ := Storage.exists_creates isStem_seedStem
    ((seedRecords (Templates.empty.addAll [Record.deposit]) vault).map entryBytes)
    room rooted harvested_isFolderAt
  have dumped := writeSeeds_eq_ok.2 ⟨created, creates, contents, rfl⟩
  obtain ⟨kept, reads, -⟩ := dumpSeeds_keeps_templates rooted templatesOf_harvested dumped
  refine ⟨_, after, ?_, dumped, kept, reads.trans ?_⟩
  · rw [List.length_map, ← List.length_map (·.2), contents]
    rfl
  · rfl

end Corpus

end FuzzBridge
