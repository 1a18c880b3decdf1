import FuzzBridge.Fault
import FuzzBridge.Storage.Path
import FuzzBridge.Table

/-!
The files that a campaign works on: a folder, which is where paths start, and what is in it. A node
has one key, the names on the way to it; a path may lead to it in many ways.
-/

namespace FuzzBridge

abbrev Bytes := List UInt8

inductive StoredNode where
  | file (content : Bytes)
  | folder
  deriving DecidableEq

/-- `home` is the absolute path of the folder. The folder itself has the empty key. -/
structure Storage where
  home : String
  nodes : Table StoredNode
  deriving DecidableEq

namespace Storage

abbrev Attempt (α : Type) := Except StorageFault α

def keyOf (names : List String) : String := "/".intercalate names

def node? (storage : Storage) (key : String) : Option StoredNode :=
  if key = "" then some .folder else storage.nodes.find? key

/-- Where a path leads: a key, or a folder outside the home folder. Only the last piece may name
what does not exist; a path that ends in a slash asks for a folder. -/
structure Spot where
  key? : Option String
  asksFolder : Bool
  deriving DecidableEq

def nodeAt? (storage : Storage) (spot : Spot) : Option StoredNode :=
  match spot.key? with
  | some key => storage.node? key
  | none => some .folder

def enter (storage : Storage) (names : List String) : Attempt Unit :=
  match storage.node? (keyOf names.reverse) with
  | some .folder => .ok ()
  | some (.file _) => .error .notADirectory
  | none => .error .notFound

def nameBytes : Nat := 255

def checkName (name : String) : Attempt Unit :=
  if nameBytes < name.utf8ByteSize then .error .nameTooLong else .ok ()

/-- Follows the pieces of a path from a folder, given by the names that lead to it, last first.
Outside the home folder there are folders upwards, and nothing else. -/
def follow (storage : Storage) : Option (List String) → List String → Attempt (Option (List String))
  | names, [] => .ok names
  | none, piece :: rest =>
    if Path.isIdle piece || piece = ".." then storage.follow none rest
    else do
      checkName piece
      .error .notFound
  | some names, piece :: rest =>
    if piece = "" then storage.follow (some names) rest
    else do
      storage.enter names
      if piece = "." then storage.follow (some names) rest
      else if piece = ".." then
        storage.follow (if names.isEmpty then none else some names.tail) rest
      else do
        checkName piece
        storage.follow (some (piece :: names)) rest

/-- The pieces of a path from the home folder on: those of a relative path, or of an absolute path
that leads through the home folder. -/
def relative? (storage : Storage) (path : String) : Option (List String) :=
  let home := Path.pieces storage.home
  let pieces := Path.pieces path
  if home.isPrefixOf pieces then some (pieces.drop home.length)
  else if Path.isAbsolute path then none
  else some pieces

def pathBytes : Nat := 4095

def locate (storage : Storage) (path : String) : Attempt Spot :=
  if path.toList.contains (Char.ofNat 0) then .error .invalidName
  else if pathBytes < path.utf8ByteSize then .error .nameTooLong
  else if path = "" then .error .notFound
  else do
    let names ← match storage.relative? path with
      | some pieces => storage.follow (some []) pieces
      | none => storage.follow none (Path.pieces path)
    return ⟨names.map fun names => keyOf names.reverse, path.toList.getLast? = some '/'⟩

def find (storage : Storage) (path : String) : Attempt StoredNode := do
  let spot ← storage.locate path
  match storage.nodeAt? spot with
  | none => .error .notFound
  | some .folder => .ok .folder
  | some (.file content) => if spot.asksFolder then .error .notADirectory else .ok (.file content)

def occupied (storage : Storage) (path : String) : Bool := (storage.find path).isOk

def isFolder (storage : Storage) (path : String) : Bool :=
  match storage.find path with
  | .ok .folder => true
  | _ => false

def read (storage : Storage) (path : String) : Attempt Bytes := do
  match ← storage.find path with
  | .folder => .error .isADirectory
  | .file content => .ok content

def readText (storage : Storage) (path : String) : Attempt String := do
  match Text.ofBytes? (← storage.read path) with
  | some text => return text
  | none => .error .notText

def nameIn? (folder key : String) : Option String :=
  let start := if folder = "" then [] else folder.toList ++ ['/']
  let rest := key.toList.drop start.length
  if start.isPrefixOf key.toList && !rest.contains '/' then some (String.ofList rest) else none

def list (storage : Storage) (path : String) : Attempt (List (String × StoredNode)) := do
  match ← storage.find path with
  | .file _ => .error .notADirectory
  | .folder =>
    let some key := (← storage.locate path).key? | return []
    return storage.nodes.entries.filterMap fun entry =>
      (nameIn? key entry.1).map fun name => (name, entry.2)

/-- Writing replaces a file, or makes one in a folder that exists. What has a slash after its name
is taken for a folder at once. -/
def write (storage : Storage) (path : String) (content : Bytes) : Attempt Storage := do
  let spot ← storage.locate path
  match spot.key?, storage.nodeAt? spot with
  | none, _ | _, some .folder => .error .isADirectory
  | some key, _ =>
    if spot.asksFolder then .error .isADirectory
    else .ok { storage with nodes := storage.nodes.insert key (.file content) }

def createFolder (storage : Storage) (path : String) : Attempt Storage := do
  let spot ← storage.locate path
  match spot.key?, storage.nodeAt? spot with
  | none, _ | _, some _ => .error .alreadyExists
  | some key, none => .ok { storage with nodes := storage.nodes.insert key .folder }

def ensureFolder (storage : Storage) (path : String) : Attempt Storage :=
  if storage.isFolder path then .ok storage else storage.createFolder path

/-- Makes a folder where there may be some missing on the way, from the innermost that is there. -/
def createFoldersTo (storage : Storage) : Nat → String → Attempt Storage
  | 0, _ => .error .notFound
  | _ + 1, "" => .ok storage
  | rounds + 1, path => match storage.ensureFolder path, Path.parent? path with
    | .error .notFound, some outer => do
      (← storage.createFoldersTo rounds outer).ensureFolder path
    | result, _ => result

def createFolders (storage : Storage) (path : String) : Attempt Storage :=
  storage.createFoldersTo ((Path.pieces path).length + 1) path

def remove (storage : Storage) (path : String) : Attempt Storage := do
  let spot ← storage.locate path
  match spot.key?, ← storage.find path with
  | none, _ | _, .folder => .error .isADirectory
  | some key, .file _ => .ok { storage with nodes := storage.nodes.erase key }

def files (storage : Storage) : List (String × Bytes) :=
  storage.nodes.entries.filterMap fun
    | (key, .file content) => some (key, content)
    | (_, .folder) => none

def changedSince (storage before : Storage) : List (String × Bytes) :=
  storage.files.filter fun file => before.nodes.find? file.1 ≠ some (.file file.2)

def removedSince (storage before : Storage) : List String :=
  (before.files.map (·.1)).filter fun key => match storage.nodes.find? key with
    | some (.file _) => false
    | _ => true

end Storage

end FuzzBridge
