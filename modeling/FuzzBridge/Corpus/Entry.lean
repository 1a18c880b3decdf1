import FuzzBridge.Record.Fill
import FuzzBridge.Record.Lift
import FuzzBridge.Storage.FreeName

/-!
Entries of a fuzzer's corpus: files of one call sequence each. A corpus that the fuzzer has worked
on holds its entries in a folder of its own.
-/

namespace FuzzBridge.Corpus

def access {α : Type} : Storage.Attempt α → Result α
  | .ok value => .ok value
  | .error cause => .error (.storage cause)

def entryEnding : String := ".txt"

/-- Coverage listings stand beside the entries and are none. -/
def isEntryName (name : String) : Bool :=
  name.endsWith entryEnding && !name.startsWith "covered."

def entryNames (storage : Storage) (folder : String) : Result (List String) := do
  let found ← access (storage.list folder)
  return found.filterMap fun
    | (name, .file _) => if isEntryName name then some name else none
    | (_, .folder) => none

def entries (storage : Storage) (folder : String) : Result (List String) := do
  return (← entryNames storage folder).map (Path.join folder)

def entryFolder (storage : Storage) (corpus : String) : String :=
  let inner := Path.join corpus "coverage"
  if storage.isFolder inner then inner else corpus

def readEntry (storage : Storage) (path : String) : Result (List Record) := do
  Record.listOfText (Text.decode (← access (storage.read path)))

def writeEntry (storage : Storage) (path : String) (records : List Record) : Result Storage :=
  access (storage.write path (Text.encode (Record.listToText records)))

def loadEntry (storage : Storage) (path : String) : Result (List Step) := do
  Record.liftAll (← readEntry storage path)

def solvedStem : String := "solved_input"

/-- Writes an entry with a model filled in to a new file beside it. The entry is left alone. -/
def storeSolved (storage : Storage) (path : String) (model : Assignment) :
    Result (String × Storage) := do
  let filled ← Record.fillAll (← readEntry storage path) model
  let stem := Path.join ((Path.parent? path).getD "") solvedStem
  let target ← storage.freeName stem entryEnding
  return (target, ← writeEntry storage target filled)

end FuzzBridge.Corpus
