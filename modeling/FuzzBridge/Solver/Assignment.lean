import FuzzBridge.Json.Printer
import FuzzBridge.Number.Literal
import FuzzBridge.Number.Word
import FuzzBridge.Solver.Place

/-!
Variables with their widths and values. An assignment holds the values that a transaction was
recorded with, or a model that a solver found; a variable may be declared and have no value.
-/

namespace FuzzBridge

structure Variable where
  bits : Nat
  value : Option Nat
  deriving DecidableEq, Repr

structure Assignment where
  table : Table Variable
  deriving DecidableEq

namespace Assignment

def empty : Assignment := ⟨Table.empty⟩

instance : Inhabited Assignment := ⟨empty⟩

/-- The value is reduced to the width. -/
def set (assignment : Assignment) (name : String) (value bits : Nat) : Assignment :=
  ⟨assignment.table.insert name ⟨bits, some (Number.mask value bits)⟩⟩

def setAt (assignment : Assignment) (place : Place) (value bits : Nat) : Assignment :=
  assignment.set place.name value bits

def value? (assignment : Assignment) (name : String) : Option Nat :=
  (assignment.table.find? name).bind (·.value)

def valueAt? (assignment : Assignment) (place : Place) : Option Nat :=
  assignment.value? place.name

def width? (assignment : Assignment) (name : String) : Option Nat :=
  (assignment.table.find? name).map (·.bits)

def names (assignment : Assignment) : List String := assignment.table.keys

def size (assignment : Assignment) : Nat := assignment.table.size

def isEmpty (assignment : Assignment) : Bool := assignment.table.isEmpty

/-- Whether a variable at the place or below it has a value. Names that begin with the name of the
place stand together in the table, from that name on. -/
def assignsUnder (assignment : Assignment) (place : Place) : Bool :=
  let name := place.name
  let below := place.chars ++ ['_']
  let range := (assignment.table.entries.dropWhile (·.1 < name)).takeWhile
    fun entry => place.chars.isPrefixOf entry.1.toList
  range.any fun entry =>
    entry.2.value.isSome && (entry.1 == name || below.isPrefixOf entry.1.toList)

def variableToJson (entry : Variable) : Json :=
  .object [("bits", .nat entry.bits),
    ("value", match entry.value with
      | some value => .text (Number.toHex value)
      | none => .null)]

def toJson (assignment : Assignment) : Json :=
  .object (assignment.table.entries.map fun entry => (entry.1, variableToJson entry.2))

@[simp] theorem value?_empty (name : String) : empty.value? name = none := rfl

@[simp] theorem value?_set_self (assignment : Assignment) (name : String) (value bits : Nat) :
    (assignment.set name value bits).value? name = some (Number.mask value bits) := by
  simp [value?, set]

theorem value?_set_of_ne (assignment : Assignment) {name other : String} (h : other ≠ name)
    (value bits : Nat) :
    (assignment.set name value bits).value? other = assignment.value? other := by
  simp [value?, set, Table.find?_insert_of_ne _ h]

end Assignment

end FuzzBridge
