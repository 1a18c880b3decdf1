import FuzzBridge.Corpus.Entry
import FuzzBridge.Yaml.Document

/-!
The fuzzer's configuration, of which one entry matters: the file that the initial state comes from.
-/

namespace FuzzBridge.Config

def initializer? (storage : Storage) (path : String) : Result (Option String) := do
  let text ← Corpus.access (storage.readText path)
  match Yaml.Document.ofText? text with
  | some value => return (value.get? "initialize").bind (·.asText?)
  | none => .error (.config path)

end FuzzBridge.Config
