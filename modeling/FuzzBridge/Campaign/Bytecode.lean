import FuzzBridge.Fault
import FuzzBridge.Text.Utf8

/-!
The contracts of a compilation: each has a path, whose last part is its name, and its bytecode.
-/

namespace FuzzBridge

abbrev Compilation := Table String

namespace Compilation

open Json (Read Draft)

def contractName (path : String) : String :=
  String.ofList ((path.toList.reverse.takeWhile (· ≠ ':')).reverse)

/-- An object of which one field is needed, or an array of that field alone. -/
def readField {α : Type} (name : String) (read : Nat → Draft → Read α) (levels : Nat)
    (draft : Draft) : Read α :=
  draft.fields levels
    (fun levels items => do
      let (item, items) ← items.next
      let value ← read levels item
      items.done
      return value)
    (fun levels members => do
      let found ← members.walk (fun (found : Option α) key =>
        if key = name then match found with
          | some _ => .repeated
          | none => .read fun draft => some <$> read levels draft
        else .unknown) none
      match found with
      | some value => return value
      | none => .error .misshapen)

def readContract : Nat → Draft → Read String := readField "bin" fun _ draft => draft.asText

def ofText (text : Text.Decoded) : Result Compilation :=
  match (Json.Document.ofText text).read
      (readField "contracts" (fun levels draft => draft.table levels readContract)
        Json.depthLimit) with
  | .ok compilation => .ok compilation
  | .error _ => .error (.json .malformed)

/-- The bytecode of the first contract of a name, or of the only contract where no name is given. -/
def bytecode? (compilation : Compilation) (name : Option String) : Option String := do
  let name ← match name, compilation.entries with
    | some name, _ => some name
    | none, [entry] => some (contractName entry.1)
    | none, _ => none
  let entry ← compilation.entries.find? fun entry => contractName entry.1 = name
  return entry.2

end Compilation

end FuzzBridge
