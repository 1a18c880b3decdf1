import FuzzBridge.Dataflow.Frontier
import FuzzBridge.Record.Basic

/-!
Templates: for each function, by signature, the first recorded transaction that calls it.
-/

namespace FuzzBridge

abbrev Templates := Table Record

namespace Templates

def empty : Templates := Table.empty

/-- A function that has a template keeps it. -/
def add (templates : Templates) (record : Record) : Templates :=
  match record.signature? with
  | none => templates
  | some signature =>
    if templates.contains signature then templates else templates.insert signature record

def addAll (templates : Templates) (records : List Record) : Templates :=
  records.foldl add templates

def records? (templates : Templates) (graph : Graph) (sequence : List Nat) : Option (List Record) :=
  sequence.mapM fun node => templates.find? (graph.signature node)

end Templates

end FuzzBridge
