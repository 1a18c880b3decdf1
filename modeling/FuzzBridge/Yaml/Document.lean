import FuzzBridge.Yaml.Event
import FuzzBridge.Yaml.Value

/-!
YAML documents: the value that the events of a text spell. A reference stands for the node of its
anchor, and its value is read anew wherever it is used.
-/

namespace FuzzBridge.Yaml

/-- The anchors so far: the number of each name, and where the node of a number begins, the last one
first. A node takes the number of the names before it, so a name that comes again may take the place
of another one. -/
structure Anchors where
  numbers : Table Nat
  starts : List (Nat × Nat)

namespace Anchors

def empty : Anchors := ⟨Table.empty, []⟩

def add (anchors : Anchors) (start : Nat) (name : String) : Anchors :=
  let number := anchors.numbers.size
  ⟨anchors.numbers.insert name number, (number, start) :: anchors.starts⟩

def addAny (anchors : Anchors) (start : Nat) (properties : Properties) : Anchors :=
  match properties.anchor with
  | some name => anchors.add start name
  | none => anchors

end Anchors

/-- The events of a document with its references linked to numbers, and where the node of each
number begins. -/
structure Document where
  events : Array (Event Nat)
  starts : List (Nat × Nat)

namespace Document

def link : List (Event String) → Document → Anchors → Option Document
  | [], document, anchors => some { document with starts := anchors.starts }
  | event :: rest, document, anchors => do
    let start := document.events.size
    let (event, anchors) ← match event with
      | .scalar properties text isPlain =>
        pure (.scalar properties text isPlain, anchors.addAny start properties)
      | .reference name => do pure (.reference (← anchors.numbers.find? name), anchors)
      | .list properties => pure (.list properties, anchors.addAny start properties)
      | .map properties => pure (.map properties, anchors.addAny start properties)
      | .close => pure (.close, anchors)
    link rest { document with events := document.events.push event } anchors

def ofEvents? (events : List (Event String)) : Option Document := link events ⟨#[], []⟩ .empty

/-- Reading counts down the references that it may still follow. -/
abbrev Reading := StateT Nat Option

def follow (document : Document) (number : Nat) : Reading Nat := do
  match ← get with
  | 0 => failure
  | left + 1 =>
    set left
    return (← (document.starts.find? (·.1 = number) : Option (Nat × Nat))).2

def readItems (document : Document) (read : Nat → Reading (Value × Nat)) :
    Nat → Nat → Reading (List Value × Nat)
  | 0, _ => failure
  | rounds + 1, start => do
    if let some .close := document.events[start]? then return ([], start + 1)
    let (item, next) ← read start
    let (items, next) ← readItems document read rounds next
    return (item :: items, next)

def readMembers (document : Document) (read : Nat → Reading (Value × Nat)) :
    Nat → Nat → Reading (List (Value × Value) × Nat)
  | 0, _ => failure
  | rounds + 1, start => do
    if let some .close := document.events[start]? then return ([], start + 1)
    let (key, next) ← read start
    let (value, next) ← read next
    let (members, next) ← readMembers document read rounds next
    return ((key, value) :: members, next)

def name? (properties : Properties) : Option String := properties.tag.bind Value.tagName?

def named (name : Option String) (value : Value) : Value :=
  match name with
  | some name => .tagged name value
  | none => value

/-- The value of a scalar; a tag without a name has to suit it. -/
def scalar? (properties : Properties) (text : String) (isPlain : Bool) : Option Value :=
  match name? properties, properties.tag with
  | none, some tag => Value.ofCore tag text isPlain
  | name, _ => (Value.ofScalar text isPlain).map (named name)

/-- The value of the node that begins at an event, and where the next one begins. Collections may be
nested in `levels` more collections. -/
def read (document : Document) : Nat → Nat → Reading (Value × Nat)
  | levels, start => do
    let target ← match document.events[start]? with
      | some (.reference number) => do pure (some (← document.follow number))
      | _ => pure none
    let (value, next) ← match document.events[target.getD start]?, levels with
      | some (.scalar properties text isPlain), _ => do
        let value ← (scalar? properties text isPlain : Option Value)
        pure (value, target.getD start + 1)
      | some (.list properties), levels + 1 => do
        let (items, next) ← document.readItems (document.read levels)
          document.events.size (target.getD start + 1)
        pure (named (name? properties) (.list items), next)
      | some (.map properties), levels + 1 => do
        let (members, next) ← document.readMembers (document.read levels)
          document.events.size (target.getD start + 1)
        if Value.hasDistinctKeys members then
          pure (named (name? properties) (.map members), next)
        else failure
      | _, _ => failure
    return (value, if target.isSome then start + 1 else next)

def depthLimit : Nat := 128

def referenceLimit : Nat := 100

def value? (document : Document) : Option Value :=
  if document.events.isEmpty then some .null
  else
    let limit := referenceLimit * document.events.size
    ((document.read depthLimit 0).run limit).map fun result => result.1.1

def ofText? (text : String) : Option Value := do
  let document ← ofEvents? (← Event.ofText? text.toList)
  document.value?

end Document

end FuzzBridge.Yaml
