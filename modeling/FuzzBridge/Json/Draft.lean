import FuzzBridge.Json.Lexer

/-!
What a text holds of a JSON value. Every text has a draft: where the text stops being JSON the draft
breaks off, and what stands before that place is kept. A reader that goes through a draft in order
therefore meets the first fault of the text, whichever kind it is.
-/

namespace FuzzBridge.Json

mutual

/-- A value, or `absent` where the text breaks off before one. A number or text without a content is
well-formed and stands for nothing. -/
inductive Draft where
  | absent
  | null
  | bool (value : Bool)
  | number (value : Option Numeral)
  | text (value : Option String)
  | array (items : Items)
  | object (members : Members)

/-- Items in order; `closed` tells whether the bracket that ends them was found. -/
inductive Items where
  | stop (closed : Bool)
  | cons (first : Draft) (rest : Items)

inductive Members where
  | stop (closed : Bool)
  | cons (key : Option String) (value : Draft) (rest : Members)

end

instance : Inhabited Draft := ⟨.absent⟩

def Items.ofReversed (closed : Bool) (items : List Draft) : Items :=
  items.foldl (fun rest item => .cons item rest) (.stop closed)

def Members.ofReversed (closed : Bool) (members : List (Option String × Draft)) : Members :=
  members.foldl (fun rest member => .cons member.1 member.2 rest) (.stop closed)

/-- A container that is still open, its parts last first; a `member` waits for a key's value. -/
inductive Frame where
  | array (items : List Draft)
  | object (members : List (Option String × Draft))
  | member (members : List (Option String × Draft)) (key : Option String)

inductive Expect where
  | value | firstItem | separator | firstKey | key | colon | nothing | broken
  deriving DecidableEq

/-- The open containers, innermost first, and the value once it is complete. -/
structure Builder where
  stack : List Frame
  expect : Expect
  root : Option Draft
  trailing : Bool

namespace Builder

def start : Builder := ⟨[], .value, none, false⟩

def stop (builder : Builder) : Builder := { builder with expect := .broken }

def complete (builder : Builder) (value : Draft) : Builder :=
  match builder.stack with
  | [] => { builder with root := some value, expect := .nothing }
  | .array items :: rest =>
    { builder with stack := .array (value :: items) :: rest, expect := .separator }
  | .member members key :: rest =>
    { builder with stack := .object ((key, value) :: members) :: rest, expect := .separator }
  | .object _ :: _ => builder.stop

def openFrame (builder : Builder) (frame : Frame) (expect : Expect) : Builder :=
  { builder with stack := frame :: builder.stack, expect }

def closeFrame (builder : Builder) : Builder :=
  match builder.stack with
  | .array items :: rest =>
    { builder with stack := rest }.complete (.array (.ofReversed true items))
  | .object members :: rest =>
    { builder with stack := rest }.complete (.object (.ofReversed true members))
  | _ => builder.stop

def feedValue (builder : Builder) : Token → Builder
  | .null => builder.complete .null
  | .bool value => builder.complete (.bool value)
  | .number value => builder.complete (.number value)
  | .text value => builder.complete (.text value)
  | .bracketOpen => builder.openFrame (.array []) .firstItem
  | .braceOpen => builder.openFrame (.object []) .firstKey
  | _ => builder.stop

def feedKey (builder : Builder) (key : Option String) : Builder :=
  match builder.stack with
  | .object members :: rest =>
    { builder with stack := .member members key :: rest, expect := .colon }
  | _ => builder.stop

def feedSeparator (builder : Builder) (token : Token) : Builder :=
  match builder.stack, token with
  | .array _ :: _, .comma => { builder with expect := .value }
  | .array _ :: _, .bracketClose => builder.closeFrame
  | .object _ :: _, .comma => { builder with expect := .key }
  | .object _ :: _, .braceClose => builder.closeFrame
  | _, _ => builder.stop

def feed (builder : Builder) (token : Token) : Builder :=
  match builder.expect, token with
  | .value, token => builder.feedValue token
  | .firstItem, .bracketClose => builder.closeFrame
  | .firstItem, token => builder.feedValue token
  | .separator, token => builder.feedSeparator token
  | .firstKey, .braceClose => builder.closeFrame
  | .firstKey, .text key | .key, .text key => builder.feedKey key
  | .colon, .colon => { builder with expect := .value }
  | .nothing, _ => { builder.stop with trailing := true }
  | _, _ => builder.stop

/-- The containers that are still open break off, the innermost one at the value inside it. -/
def abandon (inner : Option Draft) : List Frame → Draft
  | [] => inner.getD .absent
  | .array items :: rest =>
    abandon (some (.array (.ofReversed false (inner.toList ++ items)))) rest
  | .object members :: rest => abandon (some (.object (.ofReversed false members))) rest
  | .member members key :: rest =>
    abandon (some (.object (.ofReversed false ((key, inner.getD .absent) :: members)))) rest

def finish (builder : Builder) : Draft := builder.root.getD (abandon none builder.stack)

end Builder

/-- The value that a text begins with, and whether more than white space follows it. -/
structure Document where
  root : Draft
  trailing : Bool

def Document.ofTokens (tokens : List Token) : Document :=
  let builder := tokens.foldl Builder.feed .start
  ⟨builder.finish, builder.trailing⟩

def Document.ofText (text : Text.Decoded) : Document := .ofTokens (tokens text)

end FuzzBridge.Json
