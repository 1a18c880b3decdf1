import FuzzBridge.Command.Run

/-!
The program. The files that it works on are named on its input, one a line, with a slash at the end
of a folder's name; a file that is an argument is found without that. Files that the run changes
are written back, and those that it removes are removed.
-/

namespace FuzzBridge.Command

partial def readLines (input : IO.FS.Stream) (lines : List String) : IO (List String) := do
  let line ← input.getLine
  if line.isEmpty then return lines.reverse
  readLines input (String.ofList (line.toList.filter fun c => c ≠ '\n' && c ≠ '\r') :: lines)

def readFile? (path : String) : IO (Option Bytes) := do
  try
    return some (← IO.FS.readBinFile path).toList
  catch _ => return none

def load (storage : Storage) (path : String) : IO Storage := do
  let added : Storage.Attempt Storage ← if path.endsWith "/" then pure (storage.createFolders path)
    else match ← readFile? path with
      | none => pure (.ok storage)
      | some content => pure do
        let storage ← storage.createFolders ((Path.parent? path).getD "")
        storage.write path content
  match added with
  | .ok storage => return storage
  | .error _ => return storage

def store (before after : Storage) : IO Unit := do
  for (key, node) in after.nodes.entries do
    if node = .folder ∧ before.nodes.find? key ≠ some .folder then IO.FS.createDirAll key
  for (key, content) in after.changedSince before do
    IO.FS.writeBinFile key (ByteArray.mk content.toArray)
  for key in after.removedSince before do
    IO.FS.removeFile key

def environmentNames : List String := ["HYBRIDFUZZ_SOLVER", "ECHIDNA_BIN"]

def readEnvironment : IO Environment := do
  let entries ← environmentNames.filterMapM fun name => do
    return (← IO.getEnv name).map fun value => (name, value)
  return Table.ofList entries

end FuzzBridge.Command

open FuzzBridge FuzzBridge.Command in
def main (arguments : List String) : IO UInt32 := do
  let home := (← IO.getEnv "PWD").getD "/"
  let scratch := (← IO.getEnv "TMPDIR").getD home
  let paths ← readLines (← IO.getStdin) []
  let before ← (paths ++ arguments).foldlM load ⟨home, Table.empty⟩
  let mark := toString (← IO.rand 100000 999999)
  let exit := execute (← readEnvironment) scratch mark before arguments
  store before exit.storage
  IO.print exit.output
  if exit.status = 1 then IO.eprintln ("Error: " ++ exit.complaint.getD "malformed JSON")
  return UInt32.ofNat exit.status
