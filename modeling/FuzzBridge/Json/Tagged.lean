import FuzzBridge.Json.Reader

/-!
Tagged values: an object with a `tag` that names the kind of value and `contents` of a shape that
the kind fixes, in either order, or an array of the two. Contents that precede their tag are held:
they are read as JSON first and given their shape once the tag is known, when every flaw left is one
of shape.
-/

namespace FuzzBridge.Json

/-- How the values of a type are tagged: the kinds with their tags, the value of a kind that needs
no contents, and the value of a kind with contents, which may be held ones. -/
structure Tagging (κ α : Type) where
  kinds : List (String × κ)
  bare? : κ → Option α
  contents : Bool → κ → Draft → Read α

namespace Tagging

variable {κ α : Type}

def kind (tagging : Tagging κ α) (tag : String) : Read κ :=
  match tagging.kinds.find? (·.1 = tag) with
  | some (_, kind) => .ok kind
  | none => .error .misshapen

/-- A tag in an object is a text, or an object whose only member is the tag with the value `null`.
-/
def readTag (tagging : Tagging κ α) (levels : Nat) : Draft → Read κ
  | .text (some tag) => tagging.kind tag
  | .object members =>
    if levels = 0 then .error .malformed
    else match members with
      | .cons (some tag) value rest => do
        let kind ← tagging.kind tag
        value.asNull
        match rest with
        | .stop true => return kind
        | _ => .error .malformed
      | _ => .error .malformed
  | _ => .error .malformed

/-- In held contents, an empty object stands for `null` as well. -/
def readHeldTag (tagging : Tagging κ α) : Draft → Read κ
  | .text (some tag)
  | .object (.cons (some tag) .null (.stop true))
  | .object (.cons (some tag) (.object (.stop true)) (.stop true)) => tagging.kind tag
  | _ => .error .misshapen

/-- A tag in an array is a text. In held contents, it may be the number of its kind. -/
def readFirst (tagging : Tagging κ α) (isHeld : Bool) (draft : Draft) : Read κ :=
  match draft with
  | .number (some (.natural index)) =>
    match isHeld, tagging.kinds[index]? with
    | true, some (_, kind) => .ok kind
    | _, _ => .error .misshapen
  | _ => do tagging.kind (← draft.asText)

/-- A kind without contents may still have `null` for them. -/
def readContents (tagging : Tagging κ α) (isHeld : Bool) (levels : Nat) (kind : κ)
    (contents : Draft) : Read α :=
  match tagging.bare? kind with
  | some value => match contents, levels with
    | .array _, 0 | .object _, 0 => .error .malformed
    | contents, _ => do contents.asNull; return value
  | none => tagging.contents isHeld kind contents

inductive State (κ α : Type) where
  | start
  | tagged (kind : κ)
  | held (contents : Draft)
  | done (value : α)

def slot (tagging : Tagging κ α) (isHeld : Bool) (levels : Nat) :
    State κ α → String → Slot (State κ α)
  | state, "tag" =>
    let readTag := if isHeld then tagging.readHeldTag else tagging.readTag levels
    match state with
    | .start => .read fun tag => do return .tagged (← readTag tag)
    | .held contents => .read fun tag => do
      let kind ← readTag tag
      match tagging.readContents true levels kind contents with
      | .ok value => return .done value
      | .error _ => .error .misshapen
    | .tagged _ | .done _ => .repeated
  | state, "contents" => match state with
    | .start => .read fun contents => do
      let _ ← contents.value levels
      return .held contents
    | .tagged kind => .read fun contents => do
      return .done (← tagging.readContents isHeld levels kind contents)
    | .held _ | .done _ => .repeated
  | _, _ => .unknown

def finish (tagging : Tagging κ α) : State κ α → Read α
  | .done value => .ok value
  | .tagged kind => match tagging.bare? kind with
    | some value => .ok value
    | none => .error .misshapen
  | .start | .held _ => .error .misshapen

def ofMembers (tagging : Tagging κ α) (isHeld : Bool) (levels : Nat) (members : Members) :
    Read α := do
  tagging.finish (← members.walk (tagging.slot isHeld levels) .start)

def ofItems (tagging : Tagging κ α) (isHeld : Bool) (levels : Nat) (items : Items) : Read α := do
  let (tag, items) ← items.next
  let kind ← tagging.readFirst isHeld tag
  let (contents, items) ← items.next
  let value ← tagging.readContents isHeld levels kind contents
  items.done
  return value

def read (tagging : Tagging κ α) (isHeld : Bool) (levels : Nat) : Draft → Read α
  | .array items => tagging.ofItems isHeld levels items
  | .object members => tagging.ofMembers isHeld levels members
  | value => .error value.flaw

end Tagging

def Draft.tooDeep {α : Type} : Draft → Read α
  | .array _ | .object _ => .error .malformed
  | value => .error value.flaw

def tagged (tag : String) (contents : Json) : Json :=
  .object [("tag", .text tag), ("contents", contents)]

def bareTag (tag : String) : Json := .object [("tag", .text tag)]

end FuzzBridge.Json
