import FuzzBridge.Campaign.Bytecode
import FuzzBridge.Corpus.Entry

/-!
The bytecode of a contract as a file of its own, for tools that read it from there.
-/

namespace FuzzBridge

def bytecodeName (mark : String) : String := "hybridfuzz_contract_" ++ mark ++ ".bin"

/-- Writes the bytecode of a contract of a build into the folder `scratch`, if it is clear which
contract is meant, and gives the path of the file. -/
def extractBytecode (build : String) (contract : Option String) (scratch mark : String)
    (storage : Storage) : Result (Option String × Storage) := do
  let content ← Corpus.access (storage.read (Path.join build "combined_solc.json"))
  let compilation ← Compilation.ofText (Text.decode content)
  match compilation.bytecode? contract with
  | none => return (none, storage)
  | some bytecode =>
    let path := Path.join scratch (bytecodeName mark)
    let storage ← Corpus.access (storage.write path (Text.encode bytecode))
    return (some path, storage)

end FuzzBridge
