/-!
Places in a transaction that a solver may fill, and the names of their variables.
-/

namespace FuzzBridge

inductive Field where
  | sender
  | value
  | blockDelay
  | timeDelay
  | argument (index : Nat)
  deriving DecidableEq, Repr

/-- A field of a named transaction, and below it one index for each level of nesting: an element of
a tuple or an array, or a byte of a byte string. -/
structure Place where
  transaction : String
  field : Field
  indices : List Nat
  deriving DecidableEq, Repr

def Field.chars : Field → List Char
  | .sender => ['s', 'e', 'n', 'd', 'e', 'r']
  | .value => ['v', 'a', 'l', 'u', 'e']
  | .blockDelay => ['b', 'l', 'o', 'c', 'k', '_', 'n', 'u', 'm', '_', 'i', 'n', 'c']
  | .timeDelay =>
    ['b', 'l', 'o', 'c', 'k', '_', 't', 'i', 'm', 'e', 's', 't', 'a', 'm', 'p', '_', 'i', 'n', 'c']
  | .argument index => ['a', 'r', 'g'] ++ Nat.toDigits 10 index

namespace Place

def ofField (transaction : String) (field : Field) : Place := ⟨transaction, field, []⟩

def element (place : Place) (index : Nat) : Place :=
  { place with indices := place.indices ++ [index] }

def indexChars (indices : List Nat) : List Char :=
  indices.flatMap fun index => '_' :: Nat.toDigits 10 index

def chars (place : Place) : List Char :=
  place.transaction.toList ++ '_' :: place.field.chars ++ indexChars place.indices

def name (place : Place) : String := String.ofList place.chars

theorem chars_element (place : Place) (index : Nat) :
    (place.element index).chars = place.chars ++ '_' :: Nat.toDigits 10 index := by
  simp [chars, element, indexChars]

end Place

def transactionName (position : Nat) : String :=
  String.ofList ('t' :: 'x' :: Nat.toDigits 10 position)

end FuzzBridge
