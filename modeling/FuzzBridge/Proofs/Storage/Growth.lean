import FuzzBridge.Proofs.Storage.FreeName
import FuzzBridge.Proofs.Storage.Listing

/-!
Storages that grow by new files. A new file stands where nothing stood, so what stood before is left
as it was, and other names in the folder are read and listed as before.
-/

namespace FuzzBridge.Storage

variable {storage before middle after : Storage} {folder key name stem ending : String}
  {content : Bytes} {created : List (Nat × Bytes)}

theorem read_eq_find {path : String} :
    storage.read path = .ok content ↔ storage.find path = .ok (.file content) := by
  rw [read, Result.bind_eq_ok]
  constructor
  · rintro ⟨_ | _, found, same⟩
    · rw [found, Except.ok.inj same]
    · cases same
  · exact fun found => ⟨_, found, rfl⟩

theorem occupied_iff {path : String} :
    storage.occupied path ↔ ∃ node, storage.find path = .ok node := by
  rw [occupied]
  cases storage.find path <;> simp [Except.isOk, Except.toBool]

/-! What is kept. -/

/-- Whatever stood in one storage stands in the other, and no other folder does. -/
structure Keeps (before after : Storage) : Prop where
  folders : SameFolders before after
  node? : ∀ key node, before.node? key = some node → after.node? key = some node

namespace Keeps

theorem refl (storage : Storage) : Keeps storage storage := ⟨⟨rfl, fun _ => .rfl⟩, fun _ _ => id⟩

theorem trans (left : Keeps before middle) (right : Keeps middle after) : Keeps before after where
  folders := ⟨left.folders.home.trans right.folders.home, fun key =>
    (left.folders.node? key).trans (right.folders.node? key)⟩
  node? key node known := right.node? key node (left.node? key node known)

theorem put (fresh : storage.node? key = none) : Keeps storage (storage.put key content) where
  folders := sameFolders_put (by rw [fresh]; nofun)
  node? other node known := by
    have differ : other ≠ key := by
      rintro rfl
      rw [fresh] at known
      cases known
    rw [node?_put_of_ne differ, known]

theorem isRooted (keeps : Keeps before after) (rooted : before.IsRooted) : after.IsRooted := by
  obtain ⟨isAbsolute, last⟩ := rooted
  rw [keeps.folders.home] at isAbsolute last
  exact ⟨isAbsolute, last⟩

theorem isFolderAt (keeps : Keeps before after) (within : before.IsFolderAt folder key) :
    after.IsFolderAt folder key := by
  obtain ⟨asksFolder, located⟩ := within.located
  exact ⟨⟨asksFolder, keeps.folders.locate_eq_ok.1 located⟩, keeps.node? _ _ within.isFolder⟩

theorem find (keeps : Keeps before after) {path : String} {node : StoredNode}
    (found : before.find path = .ok node) : after.find path = .ok node := by
  obtain ⟨⟨key?, asksFolder⟩, located, there, suits⟩ := find_eq_ok.1 found
  refine find_eq_ok.2 ⟨_, keeps.folders.locate_eq_ok.1 located, ?_, suits⟩
  cases key? with
  | none => exact there
  | some key => exact keeps.node? key node there

theorem read (keeps : Keeps before after) {path : String} (known : before.read path = .ok content) :
    after.read path = .ok content :=
  read_eq_find.2 (keeps.find (read_eq_find.1 known))

theorem occupied (keeps : Keeps before after) {path : String} (taken : before.occupied path) :
    after.occupied path := by
  obtain ⟨node, found⟩ := occupied_iff.1 taken
  exact occupied_iff.2 ⟨node, keeps.find found⟩

end Keeps

/-! One new file. -/

theorem node?_of_free {path : String} (free : storage.occupied path = false)
    (located : storage.locate path = .ok ⟨some key, false⟩) : storage.node? key = none := by
  cases there : storage.node? key with
  | none => rfl
  | some node =>
    have taken : storage.occupied path :=
      occupied_iff.2 ⟨node, find_eq_ok.2 ⟨_, located, there, .inr rfl⟩⟩
    rw [free] at taken
    cases taken

theorem put_of_write {path : String} {written : Storage} (free : storage.occupied path = false)
    (h : storage.write path content = .ok written) :
    ∃ key, storage.locate path = .ok ⟨some key, false⟩ ∧ storage.node? key = none ∧
      storage.put key content = written := by
  obtain ⟨key, located, -, put⟩ := write_eq_ok.1 h
  exact ⟨key, located, node?_of_free free located, put⟩

theorem find_put {path : String} {node : StoredNode} (fresh : storage.node? key = none)
    (elsewhere : ∀ spot, storage.locate path = .ok spot → spot.key? ≠ some key) :
    (storage.put key content).find path = .ok node ↔ storage.find path = .ok node := by
  refine ⟨fun found => ?_, (Keeps.put fresh).find⟩
  obtain ⟨⟨key?, asksFolder⟩, located, there, suits⟩ := find_eq_ok.1 found
  have located := (Keeps.put fresh).folders.locate_eq_ok.2 located
  refine find_eq_ok.2 ⟨_, located, ?_, suits⟩
  cases key? with
  | none => exact there
  | some other =>
    have differ : other ≠ key := fun same => elsewhere _ located (congrArg some same)
    exact (node?_put_of_ne differ).symm.trans there

namespace IsFolderAt

theorem put_of_write (rooted : storage.IsRooted) (within : storage.IsFolderAt folder key)
    (isName : Path.IsName name) {written : Storage}
    (free : storage.occupied (Path.join folder name) = false)
    (h : storage.write (Path.join folder name) content = .ok written) :
    storage.node? (childKey key name) = none ∧
      storage.put (childKey key name) content = written := by
  obtain ⟨new, located, fresh, put⟩ := Storage.put_of_write free h
  obtain ⟨-, same⟩ := (within.locate_join rooted isName).1 located
  obtain rfl : childKey key name = new := by simpa using congrArg Spot.key? same
  exact ⟨fresh, put⟩

/-- The first of the free numbered names becomes the name of a new file. -/
theorem put_of_first (rooted : storage.IsRooted) (within : storage.IsFolderAt folder key)
    (isStem : IsStem stem ending) {written : Storage} {number : Nat}
    (first : storage.IsFirstFree (Path.join folder stem) ending number)
    (write : storage.write (numbered (Path.join folder stem) ending number) content = .ok written) :
    storage.node? (childKey key (numbered stem ending number)) = none ∧
      storage.put (childKey key (numbered stem ending number)) content = written := by
  have free := first.free
  rw [isStem.numbered_join] at free write
  exact within.put_of_write rooted (isStem.isName number) free write

theorem find_put (rooted : storage.IsRooted) (within : storage.IsFolderAt folder key)
    (isName : Path.IsName name) {other : String} (differ : other ≠ name)
    (fresh : storage.node? (childKey key other) = none) {node : StoredNode} :
    (storage.put (childKey key other) content).find (Path.join folder name) = .ok node ↔
      storage.find (Path.join folder name) = .ok node := by
  refine Storage.find_put fresh fun spot located same => ?_
  obtain ⟨-, rfl⟩ := (within.locate_join rooted isName).1 located
  exact differ (childKey_injective (Option.some.inj same)).symm

end IsFolderAt

/-! New files one after the other. -/

/-- New files under numbered names, each with the smallest number that was free before it. -/
inductive Creates (stem ending : String) : Storage → List (Nat × Bytes) → Storage → Prop
  | done (storage : Storage) : Creates stem ending storage [] storage
  | next {storage written after : Storage} {number : Nat} {content : Bytes}
      {rest : List (Nat × Bytes)} (first : storage.IsFirstFree stem ending number)
      (write : storage.write (numbered stem ending number) content = .ok written)
      (more : Creates stem ending written rest after) :
      Creates stem ending storage ((number, content) :: rest) after

namespace Creates

theorem append {files : List (Nat × Bytes)} (left : Creates stem ending before created middle)
    (right : Creates stem ending middle files after) :
    Creates stem ending before (created ++ files) after := by
  induction left with
  | done => exact right
  | next first write _ ih => exact .next first write (ih right)

theorem keeps (creates : Creates stem ending before created after) : Keeps before after := by
  induction creates with
  | done => exact .refl _
  | next first write _ ih =>
    obtain ⟨key, -, fresh, rfl⟩ := put_of_write first.free write
    exact (Keeps.put fresh).trans ih

theorem read_new (creates : Creates stem ending before created after) :
    ∀ file ∈ created, after.read (numbered stem ending file.1) = .ok file.2 := by
  induction creates with
  | done => exact nofun
  | next first write more ih =>
    exact List.forall_mem_cons.2 ⟨more.keeps.read (read_write write), ih⟩

theorem map_read (creates : Creates stem ending before created after) :
    (created.map fun file => after.read (numbered stem ending file.1)) =
      (created.map (·.2)).map Except.ok := by
  rw [List.map_map]
  exact List.map_congr_left creates.read_new

theorem le_of_occupied (creates : Creates stem ending before created after) {bound : Nat}
    (taken : ∀ number < bound, before.occupied (numbered stem ending number)) :
    ∀ file ∈ created, bound ≤ file.1 := by
  induction creates with
  | done => exact nofun
  | next first write more ih =>
    have keeps := (Creates.next first write (.done _)).keeps
    refine List.forall_mem_cons.2 ⟨Nat.le_of_not_lt fun less => ?_, ih fun number less => ?_⟩
    · have free := first.free
      rw [taken _ less] at free
      cases free
    · exact keeps.occupied (taken number less)

theorem sorted (creates : Creates stem ending before created after) :
    (created.map (·.1)).Pairwise (· < ·) := by
  induction creates with
  | done => exact .nil
  | next first write more ih =>
    have keeps := (Creates.next first write (.done _)).keeps
    have written := occupied_iff.2 ⟨_, read_eq_find.1 (read_write write)⟩
    have taken := Nat.forall_lt_succ_right.2
      ⟨fun number less => keeps.occupied (first.least number less), written⟩
    exact List.pairwise_cons.2 ⟨List.forall_mem_map.2 (more.le_of_occupied taken), ih⟩

/-- Outside the home folder no file can be made. -/
theorem eq_of_outside (isStem : IsStem stem ending)
    (creates : Creates (Path.join folder stem) ending before created after)
    (rooted : before.IsRooted) {asksFolder : Bool}
    (outside : before.locate folder = .ok ⟨none, asksFolder⟩) : created = [] ∧ after = before := by
  cases creates with
  | done => exact ⟨rfl, rfl⟩
  | @next _ _ _ number _ _ first write _ =>
    obtain ⟨key, located, fresh, -⟩ := put_of_write first.free write
    rw [isStem.numbered_join] at located
    have home := locate_join_outside rooted outside (isStem.isName number) located
    obtain rfl : key = "" := Option.some.inj home
    cases fresh

/-- A relation that holds across each new file in a folder holds across all of them. -/
theorem relates {motive : Storage → Storage → Prop} (isStem : IsStem stem ending)
    (creates : Creates (Path.join folder stem) ending before created after)
    (rooted : before.IsRooted) (within : before.IsFolderAt folder key)
    (refl : ∀ storage, motive storage storage)
    (trans : ∀ before middle after, motive before middle → motive middle after →
      motive before after)
    (step : ∀ storage : Storage, storage.IsRooted → storage.IsFolderAt folder key →
      Keeps before storage → ∀ file ∈ created,
        storage.node? (childKey key (numbered stem ending file.1)) = none →
        motive storage (storage.put (childKey key (numbered stem ending file.1)) file.2)) :
    motive before after := by
  generalize stemmed : Path.join folder stem = path at creates
  induction creates with
  | done => exact refl _
  | @next storage written after number content rest first write more ih =>
    subst stemmed
    obtain ⟨fresh, rfl⟩ := within.put_of_first rooted isStem first write
    simp only [List.forall_mem_cons] at step
    have keeps : Keeps storage (storage.put _ content) := .put fresh
    refine trans _ _ _ ((step storage rooted within (.refl _)).1 fresh)
      (ih (keeps.isRooted rooted) (keeps.isFolderAt within) ?_)
    exact fun later rooted within kept => (step later rooted within (keeps.trans kept)).2

theorem find_join (isStem : IsStem stem ending)
    (creates : Creates (Path.join folder stem) ending before created after)
    (rooted : before.IsRooted) (within : before.IsFolderAt folder key)
    {outer : String} (leads : before.IsFolderAt outer key) (isName : Path.IsName name)
    (differ : ∀ number, numbered stem ending number ≠ name) {node : StoredNode} :
    after.find (Path.join outer name) = .ok node ↔
      before.find (Path.join outer name) = .ok node := by
  refine creates.relates isStem rooted within
    (motive := fun before after => after.find (Path.join outer name) = .ok node ↔
      before.find (Path.join outer name) = .ok node)
    (fun _ => .rfl) (fun _ _ _ left right => right.trans left) ?_
  intro storage rooted _ keeps file _ fresh
  exact (keeps.isFolderAt leads).find_put rooted isName (differ file.1) fresh

/-- Apart from numbered names a folder lists the same as before. -/
theorem children_filter (isStem : IsStem stem ending)
    (creates : Creates (Path.join folder stem) ending before created after)
    (rooted : before.IsRooted) (within : before.IsFolderAt folder key)
    (keep : String → Bool) (leftOut : ∀ number, keep (numbered stem ending number) = false) :
    (after.children key).filter (fun child => keep child.1) =
      (before.children key).filter fun child => keep child.1 := by
  refine creates.relates isStem rooted within
    (motive := fun before after => (after.children key).filter (fun child => keep child.1) =
      (before.children key).filter fun child => keep child.1)
    (fun _ => rfl) (fun _ _ _ left right => right.trans left) ?_
  intro storage _ _ _ file _ fresh
  have named := (isStem.isName file.1).nonempty
  rw [Storage.node?, if_neg (childKey_ne_empty named)] at fresh
  obtain ⟨front, back, split, placed⟩ := children_put (isStem.isName file.1).slash fresh
  rw [split, placed, List.filter_append, List.filter_append,
    List.filter_cons_of_neg (by simp [leftOut])]

end Creates

/-! Room for new files. -/

/-- Whether so many numbered names in a folder are free, and every one can be looked up. -/
structure HasRoom (storage : Storage) (folder stem ending : String) (count : Nat) : Prop where
  short : ∀ number < nameLimit,
    (numbered (Path.join folder stem) ending number).utf8ByteSize ≤ pathBytes
  free : ∃ numbers : List Nat, numbers.Nodup ∧ count ≤ numbers.length ∧
    ∀ number ∈ numbers, number < nameLimit ∧
      storage.occupied (numbered (Path.join folder stem) ending number) = false

namespace HasRoom

theorem of_short (isStem : IsStem stem ending) (short : folder.utf8ByteSize ≤ 3000) {count : Nat}
    (free : ∃ numbers : List Nat, numbers.Nodup ∧ count ≤ numbers.length ∧
      ∀ number ∈ numbers, number < nameLimit ∧
        storage.occupied (numbered (Path.join folder stem) ending number) = false) :
    storage.HasRoom folder stem ending count := by
  refine ⟨fun number limit => ?_, free⟩
  have size := isStem.size_numbered limit
  have slash : "/".utf8ByteSize = 1 := rfl
  rw [nameBytes] at size
  rw [isStem.numbered_join, Path.join, pathBytes]
  split
  · omega
  split <;> simp only [String.utf8ByteSize_append] <;> omega

theorem locate_numbered (isStem : IsStem stem ending) {count : Nat}
    (room : storage.HasRoom folder stem ending count) (rooted : storage.IsRooted)
    (within : storage.IsFolderAt folder key) {number : Nat} (limit : number < nameLimit) :
    storage.locate (numbered (Path.join folder stem) ending number) =
      .ok ⟨some (childKey key (numbered stem ending number)), false⟩ := by
  have short := room.short number limit
  have isName := isStem.isName number
  rw [isStem.numbered_join] at short ⊢
  refine (within.locate_join rooted isName).2 ⟨⟨⟨?_, short, ?_⟩, isStem.size_numbered limit⟩, rfl⟩
  · obtain ⟨base, joined, ends⟩ := Path.join_eq within.isSound.nonempty isName.isAbsolute
    have plain : Char.ofNat 0 ∉ base.toList := by
      have whole := within.isSound.plain
      rcases ends with rfl | rfl
      · exact whole
      · exact fun member => whole (by simp [member])
    have named := notMem_numbered isStem.plain (by decide) (by decide) number
    simp [joined, plain, named]
  · exact Path.join_ne_empty within.isSound.nonempty isName.isAbsolute

theorem put (isStem : IsStem stem ending) {count : Nat}
    (room : storage.HasRoom folder stem ending (count + 1)) (rooted : storage.IsRooted)
    (within : storage.IsFolderAt folder key) {number : Nat}
    (fresh : storage.node? (childKey key (numbered stem ending number)) = none) :
    (storage.put (childKey key (numbered stem ending number)) content).HasRoom folder stem ending
      count := by
  obtain ⟨short, numbers, distinct, enough, each⟩ := room
  refine ⟨short, numbers.erase number, distinct.erase number, ?_, fun other member => ?_⟩
  · rw [List.length_erase]
    split <;> omega
  · obtain ⟨differ, member⟩ := distinct.mem_erase_iff.1 member
    obtain ⟨limit, free⟩ := each other member
    refine ⟨limit, Bool.eq_false_iff.2 fun taken => ?_⟩
    obtain ⟨node, found⟩ := occupied_iff.1 taken
    rw [isStem.numbered_join, within.find_put rooted (isStem.isName other)
      (fun same => differ (numbered_injective same).symm) fresh] at found
    rw [isStem.numbered_join, occupied_iff.2 ⟨node, found⟩] at free
    cases free

end HasRoom

theorem HasRoom.mono {count less : Nat} (room : storage.HasRoom folder stem ending count)
    (le : less ≤ count) : storage.HasRoom folder stem ending less := by
  obtain ⟨short, numbers, distinct, enough, each⟩ := room
  exact ⟨short, numbers, distinct, Nat.le_trans le enough, each⟩

theorem Creates.hasRoom (isStem : IsStem stem ending)
    (creates : Creates (Path.join folder stem) ending before created after)
    (rooted : before.IsRooted) (within : before.IsFolderAt folder key) {count : Nat}
    (room : before.HasRoom folder stem ending (created.length + count)) :
    after.HasRoom folder stem ending count := by
  generalize stemmed : Path.join folder stem = path at creates
  induction creates with
  | done => exact room.mono (Nat.le_add_left _ _)
  | @next storage written after number content rest first write more ih =>
    subst stemmed
    obtain ⟨fresh, rfl⟩ := within.put_of_first rooted isStem first write
    have keeps : Keeps storage (storage.put _ content) := .put fresh
    rw [List.length_cons, Nat.add_right_comm] at room
    exact ih (keeps.isRooted rooted) (keeps.isFolderAt within)
      (room.put isStem rooted within fresh)

theorem exists_creates (isStem : IsStem stem ending) (contents : List Bytes)
    (room : storage.HasRoom folder stem ending contents.length) (rooted : storage.IsRooted)
    (within : storage.IsFolderAt folder key) :
    ∃ created after, created.map (·.2) = contents ∧
      Creates (Path.join folder stem) ending storage created after := by
  induction contents generalizing storage with
  | nil => exact ⟨[], storage, rfl, .done _⟩
  | cons content rest ih =>
    have exists_first : ∃ number, storage.IsFirstFree (Path.join folder stem) ending number := by
      obtain ⟨numbers, -, enough, each⟩ := room.free
      obtain ⟨number, member⟩ := List.exists_mem_of_length_pos (Nat.lt_of_lt_of_le (by simp) enough)
      exact exists_isFirstFree (each number member).1 (each number member).2
    obtain ⟨number, first⟩ := exists_first
    have located := room.locate_numbered isStem rooted within first.limit
    have fresh := node?_of_free first.free located
    have write : storage.write (numbered (Path.join folder stem) ending number) content =
        .ok (storage.put (childKey key (numbered stem ending number)) content) :=
      write_eq_ok.2 ⟨_, located, by rw [fresh]; nofun, rfl⟩
    have keeps : Keeps storage (storage.put _ content) := .put fresh
    obtain ⟨created, after, same, creates⟩ := ih (room.put isStem rooted within fresh)
      (keeps.isRooted rooted) (keeps.isFolderAt within)
    exact ⟨(number, content) :: created, after, by rw [List.map_cons, same],
      .next first write creates⟩

end FuzzBridge.Storage
