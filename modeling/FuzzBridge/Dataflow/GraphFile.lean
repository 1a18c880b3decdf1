import FuzzBridge.Dataflow.Graph
import FuzzBridge.Text.Utf8

/-!
Dependencies found by an analysis tool: an object that gives each contract an object, which gives
each signature the list of its parents. Functions come in the order of their signatures.
-/

namespace FuzzBridge.GraphFile

abbrev Contents := Table (Table (List String))

def readDependencies (levels : Nat) (draft : Json.Draft) : Json.Read (Table (List String)) :=
  draft.table levels fun levels parents =>
    parents.items levels fun _ items => items.list Json.Draft.asText

def ofText (text : Text.Decoded) : Result Contents :=
  match (Json.Document.ofText text).read (Json.Draft.table Json.depthLimit readDependencies) with
  | .ok contents => .ok contents
  | .error _ => .error (.json .malformed)

def graph? (contents : Contents) (contract : String) : Result (Option Graph) :=
  match contents.find? contract with
  | none => .ok none
  | some dependencies => match Graph.ofDependencies? contract dependencies.entries with
    | .ok graph => .ok (some graph)
    | .error cause => .error (.graph cause)

end FuzzBridge.GraphFile
