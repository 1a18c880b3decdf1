import FuzzBridge.Proofs.Storage.Path
import FuzzBridge.Proofs.Storage.Write

/-!
Names in a folder. The path of a name in a folder leads to the key of the folder with the name
behind it, whichever way the folder's path leads there.
-/

namespace FuzzBridge.Storage

variable {storage : Storage} {folder key name : String}

/-! Keys. -/

def childKey (folder name : String) : String := if folder = "" then name else folder ++ "/" ++ name

theorem keyOf_ne_empty {names : List String} (nonempty : names ≠ []) (named : "" ∉ names) :
    keyOf names ≠ "" := by
  obtain ⟨first, rest, rfl⟩ := List.exists_cons_of_ne_nil nonempty
  rw [List.mem_cons, not_or] at named
  cases rest with
  | nil =>
    rw [keyOf, String.intercalate_singleton]
    exact Ne.symm named.1
  | cons second rest =>
    rw [keyOf, String.intercalate_cons_cons]
    intro empty
    simpa using congrArg String.toList empty

theorem keyOf_cons {names : List String} (named : "" ∉ names) (name : String) :
    keyOf (name :: names).reverse = childKey (keyOf names.reverse) name := by
  rw [List.reverse_cons, childKey]
  by_cases empty : names = []
  · rw [empty]
    rfl
  · have some : names.reverse ≠ [] := List.reverse_ne_nil_iff.2 empty
    have named : "" ∉ names.reverse := fun member => named (List.mem_reverse.1 member)
    rw [if_neg (keyOf_ne_empty some named), keyOf, keyOf,
      String.intercalate_append_of_ne_nil some (List.cons_ne_nil _ _), String.intercalate_singleton]

/-! The way to a folder. -/

theorem follow_append_eq_ok {start finish : Option (List String)} {front back : List String} :
    storage.follow start (front ++ back) = .ok finish ↔
      ∃ middle, storage.follow start front = .ok middle ∧
        storage.follow middle back = .ok finish := by
  induction front generalizing start with
  | nil => cases start <;> simp [follow]
  | cons piece front ih =>
    simp only [List.cons_append, follow_cons_eq_ok, ih]
    grind

theorem advance_named {start : Option (List String)} {piece : String} {names : List String}
    (named : ∀ names ∈ start, "" ∉ names)
    (advanced : storage.advance start piece = .ok (some names)) :
    "" ∉ names := by
  cases start with
  | none =>
    rw [advance] at advanced
    split at advanced
    · cases advanced
    · obtain ⟨_, -, advanced⟩ := Result.bind_eq_ok.1 advanced
      cases advanced
  | some before =>
    have named := named before rfl
    rw [advance] at advanced
    split at advanced
    · cases advanced
      exact named
    rename_i given
    obtain ⟨_, -, advanced⟩ := Result.bind_eq_ok.1 advanced
    split at advanced
    · cases advanced
      exact named
    split at advanced
    · split at advanced
      · cases advanced
      · cases advanced
        exact fun member => named (List.mem_of_mem_tail member)
    · obtain ⟨_, -, advanced⟩ := Result.bind_eq_ok.1 advanced
      cases advanced
      rw [List.mem_cons, not_or]
      exact ⟨Ne.symm given, named⟩

theorem follow_named {start : Option (List String)} {pieces names : List String}
    (named : ∀ names ∈ start, "" ∉ names)
    (followed : storage.follow start pieces = .ok (some names)) :
    "" ∉ names := by
  induction pieces generalizing start with
  | nil => cases start <;> cases followed; exact named _ rfl
  | cons piece rest ih =>
    obtain ⟨next, advanced, followed⟩ := follow_cons_eq_ok.1 followed
    refine ih (fun names leads => ?_) followed
    cases leads
    exact advance_named named advanced

theorem advance_of_isIdle {start finish : Option (List String)} {piece : String}
    (idle : Path.isIdle piece) (advanced : storage.advance start piece = .ok finish) :
    finish = start := by
  cases start with
  | none =>
    rw [advance, idle] at advanced
    exact (Except.ok.inj advanced).symm
  | some names =>
    rw [advance] at advanced
    split at advanced
    · exact (Except.ok.inj advanced).symm
    · next named =>
      obtain ⟨_, -, advanced⟩ := Result.bind_eq_ok.1 advanced
      have dot : piece = "." := by simpa [Path.isIdle, named] using idle
      rw [if_pos dot] at advanced
      exact (Except.ok.inj advanced).symm

theorem follow_of_isIdle {start finish : Option (List String)} {pieces : List String}
    (idle : ∀ piece ∈ pieces, Path.isIdle piece)
    (followed : storage.follow start pieces = .ok finish) : finish = start := by
  induction pieces generalizing start with
  | nil => cases start <;> exact (Except.ok.inj followed).symm
  | cons piece rest ih =>
    rw [List.forall_mem_cons] at idle
    obtain ⟨next, advanced, followed⟩ := follow_cons_eq_ok.1 followed
    rw [ih idle.2 followed, advance_of_isIdle idle.1 advanced]

theorem follow_idle {names pieces : List String}
    (isFolder : storage.node? (keyOf names.reverse) = some .folder)
    (idle : ∀ piece ∈ pieces, Path.isIdle piece) :
    storage.follow (some names) pieces = .ok (some names) := by
  induction pieces with
  | nil => rfl
  | cons piece rest ih =>
    rw [List.forall_mem_cons] at idle
    refine follow_cons_eq_ok.2 ⟨some names, ?_, ih idle.2⟩
    rw [advance]
    split
    · rfl
    · next named =>
      have dot : piece = "." := by simpa [Path.isIdle, named] using idle.1
      exact Result.bind_eq_ok.2 ⟨(), enter_eq_ok.2 isFolder, if_pos dot⟩

theorem checkName_eq_ok : checkName name = .ok () ↔ name.utf8ByteSize ≤ nameBytes := by
  unfold checkName
  split <;> simp <;> omega

theorem follow_name {names : List String} {finish : Option (List String)}
    (isFolder : storage.node? (keyOf names.reverse) = some .folder) (isName : Path.IsName name) :
    storage.follow (some names) [name] = .ok finish ↔
      name.utf8ByteSize ≤ nameBytes ∧ finish = some (name :: names) := by
  have entered : storage.enter names = .ok () := enter_eq_ok.2 isFolder
  rw [follow_cons, advance, if_neg isName.nonempty, entered]
  simp only [bind, Except.bind]
  rw [if_neg isName.dot, if_neg isName.dots, ← checkName_eq_ok]
  cases checkName name with
  | ok _ => simp [follow, eq_comm]
  | error fault => simp

theorem follow_none_name (isName : Path.IsName name) {finish : Option (List String)} :
    storage.follow none [name] ≠ .ok finish := by
  intro followed
  rw [follow, if_neg (by simp [isName.not_isIdle, isName.dots])] at followed
  obtain ⟨_, -, followed⟩ := Result.bind_eq_ok.1 followed
  cases followed

/-! Where a path starts. -/

/-- Whether the path of the home folder is one that a working directory has: absolute, and without
anything idle at its end. -/
structure IsRooted (storage : Storage) : Prop where
  isAbsolute : Path.isAbsolute storage.home
  last : ∀ piece ∈ (Path.pieces storage.home).getLast?, Path.isIdle piece = false

theorem relative?_of_relative (rooted : storage.IsRooted) {path : String} (nonempty : path ≠ "")
    (relative : Path.isAbsolute path = false) :
    storage.relative? path = some (Path.pieces path) := by
  have outside : ¬ Path.pieces storage.home <+: Path.pieces path := by
    rintro ⟨rest, split⟩
    have home : storage.home ≠ "" := by
      intro empty
      have isAbsolute := rooted.isAbsolute
      rw [empty] at isAbsolute
      exact absurd isAbsolute (by decide)
    have first := (Path.head?_pieces home).2 rooted.isAbsolute
    have same : (Path.pieces path).head? = some "" := by
      rw [← split, List.head?_append, first]
      rfl
    rw [Path.head?_pieces nonempty, relative] at same
    cases same
  rw [← List.isPrefixOf_iff_prefix] at outside
  rw [relative?, if_neg outside, if_neg (by simp [relative])]

theorem relative?_of_isAbsolute {path : String} {inner : List String}
    (isAbsolute : Path.isAbsolute path) :
    storage.relative? path = some inner ↔
      Path.pieces path = Path.pieces storage.home ++ inner := by
  rw [relative?, isAbsolute]
  by_cases within : Path.pieces storage.home <+: Path.pieces path
  · rw [if_pos (List.isPrefixOf_iff_prefix.2 within)]
    obtain ⟨rest, split⟩ := within
    rw [← split, List.drop_left, Option.some_inj, List.append_right_inj]
  · rw [if_neg (mt List.isPrefixOf_iff_prefix.1 within), if_pos rfl]
    constructor
    · intro inside
      cases inside
    · exact fun split => absurd ⟨inner, split.symm⟩ within

theorem relative?_append (rooted : storage.IsRooted) {path other : String}
    {kept idles more inner : List String} (nonempty : path ≠ "") (named : other ≠ "")
    (some : kept ≠ []) (idle : ∀ piece ∈ idles, Path.isIdle piece)
    (split : Path.pieces path = kept ++ idles) (parts : Path.pieces other = kept ++ more)
    (home : storage.relative? path = .some inner) :
    ∃ front, inner = front ++ idles ∧ storage.relative? other = .some (front ++ more) := by
  have same := Path.isAbsolute_congr nonempty named some split parts
  cases isAbsolute : Path.isAbsolute path with
  | false =>
    rw [relative?_of_relative rooted nonempty isAbsolute, Option.some_inj] at home
    rw [isAbsolute] at same
    exact ⟨kept, by rw [← home, split], by rw [relative?_of_relative rooted named same.symm, parts]⟩
  | true =>
    rw [relative?_of_isAbsolute isAbsolute, split] at home
    rw [isAbsolute] at same
    simp only [relative?_of_isAbsolute same.symm, parts]
    rcases List.append_eq_append_iff.1 home with ⟨front, whole, ends⟩ | ⟨front, rfl, ends⟩
    · rcases List.eq_nil_or_concat front with rfl | ⟨front, last, rfl⟩
      · exact ⟨[], ends.symm, by rw [whole, List.append_nil, List.nil_append]⟩
      · have named := rooted.last last (by rw [whole, List.concat_eq_append]; simp)
        have idle := idle last (by rw [ends, List.concat_eq_append]; simp)
        rw [named] at idle
        cases idle
    · exact ⟨front, ends, by rw [List.append_assoc]⟩

/-- A path that begins with that of the home folder where the path of the folder it is in does not
is the path of the home folder. -/
theorem relative?_of_outside (rooted : storage.IsRooted) {path other last : String}
    {kept idles inner : List String} (nonempty : path ≠ "") (named : other ≠ "") (some : kept ≠ [])
    (split : Path.pieces path = kept ++ idles) (parts : Path.pieces other = kept ++ [last])
    (outside : storage.relative? path = none) (inside : storage.relative? other = .some inner) :
    inner = [] := by
  cases isAbsolute : Path.isAbsolute path with
  | false =>
    rw [relative?_of_relative rooted nonempty isAbsolute] at outside
    cases outside
  | true =>
    have apart (inner : List String) : Path.pieces path ≠ Path.pieces storage.home ++ inner := by
      intro begins
      rw [(relative?_of_isAbsolute isAbsolute).2 begins] at outside
      cases outside
    have same := Path.isAbsolute_congr nonempty named some split parts
    rw [isAbsolute] at same
    have begins := (relative?_of_isAbsolute same.symm).1 inside
    rw [parts, List.append_eq_append_iff] at begins
    rw [split] at apart
    rcases begins with ⟨_ | ⟨first, more⟩, whole, ends⟩ | ⟨front, whole, -⟩
    · rw [List.append_nil] at whole
      exact absurd (by rw [whole]) (apart idles)
    · rw [List.cons_append, List.cons.injEq] at ends
      exact (List.append_eq_nil_iff.1 ends.2.symm).2
    · exact absurd (by rw [whole, List.append_assoc]) (apart (front ++ idles))

/-! Where a path leads. -/

structure IsSound (path : String) : Prop where
  plain : Char.ofNat 0 ∉ path.toList
  short : path.utf8ByteSize ≤ pathBytes
  nonempty : path ≠ ""

/-- The names on the way that a path leads, last first. -/
def way (storage : Storage) (path : String) : Attempt (Option (List String)) :=
  match storage.relative? path with
  | some pieces => storage.follow (some []) pieces
  | none => storage.follow none (Path.pieces path)

theorem locate_eq_ok {path : String} {spot : Spot} :
    storage.locate path = .ok spot ↔
      IsSound path ∧ ∃ names, storage.way path = .ok names ∧
        ⟨names.map fun names => keyOf names.reverse, path.toList.getLast? = some '/'⟩ = spot := by
  have walked : storage.locate path =
      if path.toList.contains (Char.ofNat 0) then .error .invalidName
      else if pathBytes < path.utf8ByteSize then .error .nameTooLong
      else if path = "" then .error .notFound
      else (fun names => ⟨names.map fun names => keyOf names.reverse,
        path.toList.getLast? = some '/'⟩) <$> storage.way path := by
    rw [locate, way]
    cases storage.relative? path <;> rfl
  rw [walked, ← Result.map_eq_ok]
  constructor
  · intro located
    split at located
    · cases located
    split at located
    · cases located
    split at located
    · cases located
    · next plain short nonempty =>
      exact ⟨⟨by simpa using plain, Nat.le_of_not_lt short, nonempty⟩, located⟩
  · rintro ⟨⟨plain, short, nonempty⟩, located⟩
    rw [if_neg (by simpa using plain), if_neg (Nat.not_lt.2 short), if_neg nonempty, located]

/-- Outside the home folder no way leads back. -/
theorem follow_none {pieces : List String} {finish : Option (List String)}
    (followed : storage.follow none pieces = .ok finish) : finish = none := by
  induction pieces with
  | nil => exact (Except.ok.inj followed).symm
  | cons piece rest ih =>
    obtain ⟨next, advanced, followed⟩ := follow_cons_eq_ok.1 followed
    rw [advance] at advanced
    split at advanced
    · obtain rfl := Except.ok.inj advanced
      exact ih followed
    · obtain ⟨_, -, advanced⟩ := Result.bind_eq_ok.1 advanced
      cases advanced

/-- Whether a path leads to the folder with a key, in the home folder. -/
structure IsFolderAt (storage : Storage) (folder key : String) : Prop where
  located : ∃ asksFolder, storage.locate folder = .ok ⟨some key, asksFolder⟩
  isFolder : storage.node? key = some .folder

namespace IsFolderAt

theorem isSound (within : storage.IsFolderAt folder key) : IsSound folder := by
  obtain ⟨_, located⟩ := within.located
  exact (locate_eq_ok.1 located).1

/-- A path that goes on from where a folder's path has only idle pieces left goes on from the
folder. -/
theorem way_eq_ok (rooted : storage.IsRooted) (within : storage.IsFolderAt folder key)
    {other : String} {kept idles more : List String} (named : other ≠ "") (nonempty : kept ≠ [])
    (idle : ∀ piece ∈ idles, Path.isIdle piece) (split : Path.pieces folder = kept ++ idles)
    (parts : Path.pieces other = kept ++ more) :
    ∃ names, key = keyOf names.reverse ∧ "" ∉ names ∧
      ∀ finish, storage.way other = .ok finish ↔ storage.follow (some names) more = .ok finish := by
  obtain ⟨_, located⟩ := within.located
  obtain ⟨sound, leads, walked, found⟩ := locate_eq_ok.1 located
  obtain ⟨names, rfl, same⟩ := Option.map_eq_some_iff.1 (congrArg Spot.key? found)
  have home : ∃ inner, storage.relative? folder = some inner := by
    rw [way] at walked
    split at walked
    · next inner inside => exact ⟨inner, inside⟩
    · exact absurd (follow_none walked) nofun
  obtain ⟨inner, home⟩ := home
  obtain ⟨front, rfl, start⟩ :=
    relative?_append rooted sound.nonempty named nonempty idle split parts home
  simp only [way, home] at walked
  obtain ⟨middle, before, rest⟩ := follow_append_eq_ok.1 walked
  obtain rfl := follow_of_isIdle idle rest
  refine ⟨names, same.symm, follow_named (by simp) before, fun finish => ?_⟩
  simp only [way, start, follow_append_eq_ok, before]
  simp

theorem locate_join (rooted : storage.IsRooted) (within : storage.IsFolderAt folder key)
    (isName : Path.IsName name) {spot : Spot} :
    storage.locate (Path.join folder name) = .ok spot ↔
      (IsSound (Path.join folder name) ∧ name.utf8ByteSize ≤ nameBytes) ∧
        ⟨some (childKey key name), false⟩ = spot := by
  obtain ⟨front, idles, some, idle, split, joined⟩ :=
    Path.pieces_folder within.isSound.nonempty isName
  obtain ⟨names, rfl, named, leads⟩ := way_eq_ok rooted within
    (Path.join_ne_empty within.isSound.nonempty isName.isAbsolute) some idle split joined
  have file : (Path.join folder name).toList.getLast? ≠ .some '/' := by
    obtain ⟨base, spelled, -⟩ := Path.join_eq within.isSound.nonempty isName.isAbsolute
    intro slash
    have last : name.toList.getLast? = .some '/' := by
      rw [spelled, String.toList_append, List.getLast?_append_of_ne_nil] at slash
      · exact slash
      · exact fun empty => isName.nonempty (String.toList_eq_nil_iff.1 empty)
    exact isName.slash (List.mem_of_getLast? last)
  rw [locate_eq_ok, and_assoc]
  refine and_congr_right fun _ => ?_
  simp only [leads, follow_name within.isFolder isName, and_assoc, file, decide_false]
  constructor
  · rintro ⟨_, short, rfl, found⟩
    rw [Option.map_some, keyOf_cons named] at found
    exact ⟨short, found⟩
  · rintro ⟨short, found⟩
    refine ⟨_, short, rfl, ?_⟩
    rw [Option.map_some, keyOf_cons named]
    exact found

theorem trimmed (rooted : storage.IsRooted) (within : storage.IsFolderAt folder key) :
    storage.IsFolderAt (Path.trimmed folder) key := by
  obtain ⟨kept, idles, more, some, idle, idle', split, parts⟩ := Path.pieces_trimmed folder
  obtain ⟨names, rfl, -, leads⟩ :=
    way_eq_ok rooted within (Path.trimmed_ne_empty folder) some idle split parts
  obtain ⟨rest, spelled⟩ := Path.trimmed_isPrefix within.isSound.nonempty
  have sound : IsSound (Path.trimmed folder) := by
    have whole := within.isSound
    rw [spelled] at whole
    refine ⟨fun zero => whole.plain ?_, Nat.le_trans ?_ whole.short, Path.trimmed_ne_empty folder⟩
    · rw [String.toList_append]
      exact List.mem_append_left _ zero
    · rw [String.utf8ByteSize_append]
      exact Nat.le_add_right _ _
  have walked := (leads _).2 (follow_idle within.isFolder idle')
  exact ⟨⟨_, locate_eq_ok.2 ⟨sound, _, walked, rfl⟩⟩, within.isFolder⟩

end IsFolderAt

/-- Outside the home folder, the only name that can be looked up is that of a folder on the way to
it. -/
theorem locate_join_outside (rooted : storage.IsRooted) {asksFolder : Bool}
    (outside : storage.locate folder = .ok ⟨none, asksFolder⟩) (isName : Path.IsName name)
    {spot : Spot} (located : storage.locate (Path.join folder name) = .ok spot) :
    spot.key? = some "" := by
  obtain ⟨sound, start, walked, found⟩ := locate_eq_ok.1 outside
  obtain rfl : start = none := by simpa using congrArg Spot.key? found
  obtain ⟨-, finish, continued, rfl⟩ := locate_eq_ok.1 located
  obtain ⟨front, idles, nonempty, idle, split, joined⟩ := Path.pieces_folder sound.nonempty isName
  have named := Path.join_ne_empty sound.nonempty isName.isAbsolute
  cases home : storage.relative? folder with
  | some inner =>
    obtain ⟨before, rfl, goesOn⟩ :=
      relative?_append rooted sound.nonempty named nonempty idle split joined home
    simp only [way, home] at walked
    simp only [way, goesOn] at continued
    obtain ⟨middle, inside, rest⟩ := follow_append_eq_ok.1 walked
    obtain rfl := follow_of_isIdle idle rest
    obtain ⟨_, again, last⟩ := follow_append_eq_ok.1 continued
    obtain rfl := Except.ok.inj (inside.symm.trans again)
    exact absurd last (follow_none_name isName)
  | none =>
    cases again : storage.relative? (Path.join folder name) with
    | none =>
      simp only [way, again, joined] at continued
      obtain ⟨middle, before, last⟩ := follow_append_eq_ok.1 continued
      obtain rfl := follow_none before
      exact absurd last (follow_none_name isName)
    | some rest =>
      obtain rfl :=
        relative?_of_outside rooted sound.nonempty named nonempty split joined home again
      simp only [way, again] at continued
      obtain rfl := Except.ok.inj continued
      rfl

end FuzzBridge.Storage
