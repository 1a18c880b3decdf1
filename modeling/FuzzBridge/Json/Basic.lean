import FuzzBridge.Table
import FuzzBridge.Number.Shortest

/-!
JSON values. An object keeps its members as written; `sorted` gives the form in which members stand
in key order and the last one of each key counts.
-/

namespace FuzzBridge

/-- Whole numbers that fit 64 bits stay whole; every other number is a double. -/
inductive Numeral where
  | natural (value : Nat)
  | negative (magnitude : Nat)
  | double (value : Number.Double)
  deriving DecidableEq

inductive Json where
  | null
  | bool (value : Bool)
  | number (value : Numeral)
  | text (value : String)
  | array (items : List Json)
  | object (members : List (String × Json))

namespace Json

instance : Inhabited Json := ⟨.null⟩

def nat (value : Nat) : Json := .number (.natural value)

/-- Members in key order, of each key the last one. -/
def fields (members : List (String × Json)) : Table Json := Table.ofList members

mutual

def sorted : Json → Json
  | .array items => .array (sortedItems items)
  | .object members => .object (Table.ofList (sortedMembers members)).entries
  | value => value
termination_by structural value => value

def sortedItems : List Json → List Json
  | [] => []
  | item :: rest => sorted item :: sortedItems rest
termination_by structural items => items

def sortedMembers : List (String × Json) → List (String × Json)
  | [] => []
  | (key, value) :: rest => (key, sorted value) :: sortedMembers rest
termination_by structural members => members

end

end Json

end FuzzBridge
