import FuzzBridge.Corpus.Entry
import FuzzBridge.Corpus.Templates

/-!
Seeds: entries made of templates, one for each call sequence of a frontier whose calls all have a
template.
-/

namespace FuzzBridge.Corpus

def seedStem : String := "dataflow_seed"

/-- The records of an entry, or none of an entry that cannot be read. -/
def readableRecords (storage : Storage) (path : String) : List Record :=
  match readEntry storage path with
  | .ok records => records
  | .error _ => []

/-- The templates that the entries of a folder give, in the order of their names. -/
def templatesOf (storage : Storage) (folder : String) : Result Templates := do
  return (← entries storage folder).foldl
    (fun templates path => templates.addAll (readableRecords storage path)) Templates.empty

def writeSeeds (folder : String) :
    List (List Record) → Storage → Result (List String × Storage)
  | [], storage => .ok ([], storage)
  | records :: rest, storage => do
    let path ← storage.freeName (Path.join folder seedStem) entryEnding
    let storage ← writeEntry storage path records
    let (paths, storage) ← writeSeeds folder rest storage
    return (path :: paths, storage)

/-- Sequences with a call that has no template are left out. -/
def seedRecords (templates : Templates) (frontier : Frontier) : List (List Record) :=
  frontier.sequences.filterMap (templates.records? frontier.graph)

def dumpSeeds (templates : Templates) (frontier : Frontier) (folder : String) (storage : Storage) :
    Result (List String × Storage) :=
  writeSeeds folder (seedRecords templates frontier) storage

end FuzzBridge.Corpus
