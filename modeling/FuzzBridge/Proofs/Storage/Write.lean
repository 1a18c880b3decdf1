import FuzzBridge.Proofs.Result
import FuzzBridge.Storage.Basic

/-!
What is written to a file is read from it, and other files stay as they are. A path leads through
folders only, and writing leaves every folder a folder and makes none, so a path leads to the same
place after the writing as before.
-/

namespace FuzzBridge.Storage

variable {storage : Storage} {key : String} {content : Bytes}

def put (storage : Storage) (key : String) (content : Bytes) : Storage :=
  { storage with nodes := storage.nodes.insert key (.file content) }

theorem node?_put_self (nonempty : key ≠ "") :
    (storage.put key content).node? key = some (.file content) := by
  simp [node?, put, nonempty]

theorem node?_put_of_ne {other : String} (h : other ≠ key) :
    (storage.put key content).node? other = storage.node? other := by
  simp [node?, put, Table.find?_insert_of_ne _ h]

theorem ne_empty_of_node? (notFolder : storage.node? key ≠ some .folder) : key ≠ "" := by
  rintro rfl
  exact notFolder rfl

/-! Paths. -/

structure SameFolders (left right : Storage) : Prop where
  home : left.home = right.home
  node? : ∀ key, left.node? key = some .folder ↔ right.node? key = some .folder

theorem SameFolders.symm {left right : Storage} (same : SameFolders left right) :
    SameFolders right left :=
  ⟨same.home.symm, fun key => (same.node? key).symm⟩

theorem sameFolders_put (notFolder : storage.node? key ≠ some .folder) :
    SameFolders storage (storage.put key content) where
  home := rfl
  node? other := by
    by_cases same : other = key
    · subst same
      simp [notFolder, node?_put_self (ne_empty_of_node? notFolder)]
    · rw [node?_put_of_ne same]

theorem enter_eq_ok {names : List String} :
    storage.enter names = .ok () ↔ storage.node? (keyOf names.reverse) = some .folder := by
  unfold enter
  split <;> simp [*]

def advance (storage : Storage) :
    Option (List String) → String → Attempt (Option (List String))
  | none, piece =>
    if Path.isIdle piece || piece = ".." then .ok none
    else do
      checkName piece
      .error .notFound
  | some names, piece =>
    if piece = "" then .ok (some names)
    else do
      storage.enter names
      if piece = "." then .ok (some names)
      else if piece = ".." then .ok (if names.isEmpty then none else some names.tail)
      else do
        checkName piece
        .ok (some (piece :: names))

theorem follow_cons (storage : Storage) (start : Option (List String)) (piece : String)
    (rest : List String) :
    storage.follow start (piece :: rest) =
      storage.advance start piece >>= fun next => storage.follow next rest := by
  cases start with
  | none =>
    rw [follow, advance]
    split
    · rfl
    · cases checkName piece <;> rfl
  | some names =>
    rw [follow, advance]
    split
    · rfl
    · cases storage.enter names with
      | error fault => rfl
      | ok _ =>
        simp only [bind, Except.bind]
        split
        · rfl
        split
        · rfl
        · cases checkName piece <;> rfl

theorem follow_cons_eq_ok {start finish : Option (List String)} {piece : String}
    {rest : List String} :
    storage.follow start (piece :: rest) = .ok finish ↔
      ∃ next, storage.advance start piece = .ok next ∧ storage.follow next rest = .ok finish := by
  rw [follow_cons, Result.bind_eq_ok]

theorem advance_of_sameFolders {left right : Storage} (same : SameFolders left right)
    {start next : Option (List String)} {piece : String}
    (advanced : left.advance start piece = .ok next) : right.advance start piece = .ok next := by
  cases start with
  | none => exact advanced
  | some names =>
    rw [advance] at advanced ⊢
    split at advanced
    · next empty => rw [if_pos empty, advanced]
    · next named =>
      obtain ⟨_, entered, advanced⟩ := Result.bind_eq_ok.1 advanced
      have entered : right.enter names = .ok () :=
        enter_eq_ok.2 ((same.node? _).1 (enter_eq_ok.1 entered))
      rw [if_neg named]
      exact Result.bind_eq_ok.2 ⟨(), entered, advanced⟩

theorem follow_of_sameFolders {left right : Storage} (same : SameFolders left right)
    {pieces : List String} {start finish : Option (List String)}
    (followed : left.follow start pieces = .ok finish) :
    right.follow start pieces = .ok finish := by
  induction pieces generalizing start with
  | nil => cases start <;> exact followed
  | cons piece rest ih =>
    obtain ⟨next, advanced, followed⟩ := follow_cons_eq_ok.1 followed
    exact follow_cons_eq_ok.2 ⟨next, advance_of_sameFolders same advanced, ih followed⟩

theorem locate_of_sameFolders {left right : Storage} (same : SameFolders left right)
    {path : String} {spot : Spot} (located : left.locate path = .ok spot) :
    right.locate path = .ok spot := by
  have way : right.relative? path = left.relative? path := by rw [relative?, relative?, same.home]
  unfold locate at located ⊢
  split at located
  · cases located
  split at located
  · cases located
  split at located
  · cases located
  · next sound short nonempty =>
    rw [if_neg sound, if_neg short, if_neg nonempty, way]
    dsimp only at located ⊢
    split at located
    all_goals
      obtain ⟨names, followed, found⟩ := Result.bind_eq_ok.1 located
      exact Result.bind_eq_ok.2 ⟨names, follow_of_sameFolders same followed, found⟩

theorem SameFolders.locate_eq_ok {left right : Storage} (same : SameFolders left right)
    {path : String} {spot : Spot} : left.locate path = .ok spot ↔ right.locate path = .ok spot :=
  ⟨locate_of_sameFolders same, locate_of_sameFolders same.symm⟩

/-! Reading and writing. -/

theorem find_eq_ok {path : String} {node : StoredNode} :
    storage.find path = .ok node ↔
      ∃ spot, storage.locate path = .ok spot ∧ storage.nodeAt? spot = some node ∧
        (node = .folder ∨ spot.asksFolder = false) := by
  unfold find
  rw [Result.bind_eq_ok]
  refine exists_congr fun spot => and_congr_right fun _ => ?_
  rcases storage.nodeAt? spot with _ | ⟨old | _⟩
  · simp
  · cases spot.asksFolder <;> grind
  · grind

/-- A file is what stands at the key that a path leads to, unless the path asks for a folder. -/
theorem read_eq_ok {path : String} :
    storage.read path = .ok content ↔
      ∃ key, storage.locate path = .ok ⟨some key, false⟩ ∧
        storage.node? key = some (.file content) := by
  constructor
  · intro h
    obtain ⟨node, found, isFile⟩ := Result.bind_eq_ok.1 h
    cases node with
    | folder => cases isFile
    | file old =>
      obtain rfl := Except.ok.inj isFile
      obtain ⟨⟨_ | key, asksFolder⟩, located, there, file⟩ := find_eq_ok.1 found
      · cases there
      · obtain rfl : asksFolder = false := file.resolve_left nofun
        exact ⟨key, located, there⟩
  · rintro ⟨key, located, there⟩
    have found : storage.find path = .ok (.file content) :=
      find_eq_ok.2 ⟨_, located, there, .inr rfl⟩
    exact Result.bind_eq_ok.2 ⟨_, found, rfl⟩

/-- Writing puts a file at a key where there is no folder. -/
theorem write_eq_ok {path : String} {written : Storage} :
    storage.write path content = .ok written ↔
      ∃ key, storage.locate path = .ok ⟨some key, false⟩ ∧ storage.node? key ≠ some .folder ∧
        storage.put key content = written := by
  unfold write
  rw [Result.bind_eq_ok]
  constructor
  · rintro ⟨⟨_ | key, asksFolder⟩, located, done⟩
    · cases done
    · simp only [nodeAt?] at done
      split at done
      · cases done
      · cases done
      · next known leads notFolder =>
        obtain rfl := Option.some.inj leads
        cases asksFolder with
        | false => exact ⟨key, located, notFolder, Except.ok.inj done⟩
        | true => cases done
  · rintro ⟨key, located, notFolder, rfl⟩
    refine ⟨_, located, ?_⟩
    simp only [nodeAt?]
    exact if_neg Bool.false_ne_true

theorem read_write {storage written : Storage} {path : String} {content : Bytes}
    (h : storage.write path content = .ok written) : written.read path = .ok content := by
  obtain ⟨key, located, notFolder, rfl⟩ := write_eq_ok.1 h
  have same : SameFolders storage (storage.put key content) := sameFolders_put notFolder
  exact read_eq_ok.2
    ⟨key, same.locate_eq_ok.1 located, node?_put_self (ne_empty_of_node? notFolder)⟩

end FuzzBridge.Storage
