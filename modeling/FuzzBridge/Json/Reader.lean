import FuzzBridge.Json.Draft

/-!
Readers go through a draft in the order of its text and stop at the first flaw: the text is no JSON
there, or it is JSON of another shape. Arrays and objects count levels, of which a text has at most
127; what a reader skips may be of any depth.
-/

namespace FuzzBridge.Json

inductive Flaw where
  | malformed
  | misshapen
  deriving DecidableEq, Repr

abbrev Read (α : Type) := Except Flaw α

def depthLimit : Nat := 127

namespace Draft

def flaw : Draft → Flaw
  | .absent | .number none | .text none => .malformed
  | _ => .misshapen

def asText : Draft → Read String
  | .text (some value) => .ok value
  | value => .error value.flaw

def asBool : Draft → Read Bool
  | .bool value => .ok value
  | value => .error value.flaw

def asNat (bound : Nat) : Draft → Read Nat
  | .number (some (.natural value)) => if value < bound then .ok value else .error .misshapen
  | value => .error value.flaw

def asNull : Draft → Read Unit
  | .null => .ok ()
  | value => .error value.flaw

end Draft

mutual

/-- A value that nobody asks for only has to be JSON. -/
def Draft.skip : Draft → Read Unit
  | .absent => .error .malformed
  | .array items => items.skip
  | .object members => members.skip
  | _ => .ok ()
termination_by structural draft => draft

def Items.skip : Items → Read Unit
  | .stop true => .ok ()
  | .stop false => .error .malformed
  | .cons first rest => do first.skip; rest.skip
termination_by structural items => items

def Members.skip : Members → Read Unit
  | .stop true => .ok ()
  | .stop false => .error .malformed
  | .cons _ value rest => do value.skip; rest.skip
termination_by structural members => members

end

mutual

/-- The value of a draft that has no flaw, with `levels` left for arrays and objects. -/
def Draft.value (levels : Nat) : Draft → Read Json
  | .absent | .number none | .text none => .error .malformed
  | .null => .ok .null
  | .bool value => .ok (.bool value)
  | .number (some value) => .ok (.number value)
  | .text (some value) => .ok (.text value)
  | .array items => match levels with
    | 0 => .error .malformed
    | levels + 1 => .array <$> items.values levels
  | .object members => match levels with
    | 0 => .error .malformed
    | levels + 1 => .object <$> members.values levels
termination_by structural draft => draft

def Items.values (levels : Nat) : Items → Read (List Json)
  | .stop true => .ok []
  | .stop false => .error .malformed
  | .cons first rest => do
    let value ← first.value levels
    return value :: (← rest.values levels)
termination_by structural items => items

def Members.values (levels : Nat) : Members → Read (List (String × Json))
  | .stop true => .ok []
  | .stop false => .error .malformed
  | .cons none _ _ => .error .malformed
  | .cons (some key) value rest => do
    let value ← value.value levels
    return (key, value) :: (← rest.values levels)
termination_by structural members => members

end

namespace Items

def list {α : Type} (read : Draft → Read α) : Items → Read (List α)
  | .stop true => .ok []
  | .stop false => .error .malformed
  | .cons first rest => do
    let value ← read first
    return value :: (← rest.list read)

def next : Items → Read (Draft × Items)
  | .cons first rest => .ok (first, rest)
  | .stop true => .error .misshapen
  | .stop false => .error .malformed

def done : Items → Read Unit
  | .stop true => .ok ()
  | _ => .error .malformed

def pair {α β : Type} (first : Draft → Read α) (second : Draft → Read β) (items : Items) :
    Read (α × β) := do
  let (item, items) ← items.next
  let left ← first item
  let (item, items) ← items.next
  let right ← second item
  items.done
  return (left, right)

end Items

/-- What a key means to the reader of an object. -/
inductive Slot (σ : Type) where
  | unknown
  | repeated
  | read (value : Draft → Read σ)

/-- Reads the members in order; `slot` tells what a key means after what has been read. -/
def Members.walk {σ : Type} (slot : σ → String → Slot σ) : σ → Members → Read σ
  | state, .stop true => .ok state
  | _, .stop false => .error .malformed
  | _, .cons none _ _ => .error .malformed
  | state, .cons (some key) value rest =>
    match slot state key with
    | .unknown => do value.skip; rest.walk slot state
    | .repeated => .error .misshapen
    | .read read => do rest.walk slot (← read value)

def Draft.items {α : Type} (levels : Nat) (read : Nat → Items → Read α) : Draft → Read α
  | .array items => match levels with
    | 0 => .error .malformed
    | levels + 1 => read levels items
  | value => .error value.flaw

/-- An array where no level is left, or a value that should have been an array. -/
def Draft.noItems {α : Type} : Draft → Read α
  | .array _ => .error .malformed
  | value => .error value.flaw

def Draft.fields {α : Type} (levels : Nat) (ofItems : Nat → Items → Read α)
    (ofMembers : Nat → Members → Read α) : Draft → Read α
  | .array items => match levels with
    | 0 => .error .malformed
    | levels + 1 => ofItems levels items
  | .object members => match levels with
    | 0 => .error .malformed
    | levels + 1 => ofMembers levels members
  | value => .error value.flaw

/-- A map from keys to values: of a repeated key the last value counts. -/
def Draft.table {α : Type} (levels : Nat) (read : Nat → Draft → Read α) : Draft → Read (Table α)
  | .object members => match levels with
    | 0 => .error .malformed
    | levels + 1 =>
      members.walk (fun table key => .read fun value => do
        return table.insert key (← read levels value)) Table.empty
  | value => .error value.flaw

/-- The value of a whole text: nothing may follow it. -/
def Document.read {α : Type} (read : Draft → Read α) (document : Document) : Read α := do
  let value ← read document.root
  if document.trailing then .error .malformed else return value

def parse? (text : String) : Option Json :=
  ((Document.ofText (Text.ofChars text.toList)).read (Draft.value depthLimit)).toOption

end FuzzBridge.Json
