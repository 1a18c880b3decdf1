import FuzzBridge.Number.Literal
import FuzzBridge.Yaml.Cursor

/-!
Tags of nodes, and the directives before a document, which declare what the handles of tags stand
for. A tag is kept in bytes, since its percent signs may spell any.
-/

namespace FuzzBridge.Yaml

/-- A handle and what follows it. A tag in angle brackets has no handle, nor has a lone mark. -/
structure Tag where
  handle : String
  suffix : List UInt8
  deriving DecidableEq

inductive Directive where
  | version (major minor : Nat)
  | handle (name : String) (start : List UInt8)
  deriving DecidableEq

def isWordChar (c : Char) : Bool := c.isAlphanum || c = '_' || c = '-'

def isTagChar (isWide : Bool) (c : Char) : Bool :=
  isWordChar c || [';', '/', '?', ':', '@', '&', '=', '+', '$', '.', '%', '!', '~', '*', '\'', '(',
    ')'].contains c || (isWide && [',', '[', ']'].contains c)

def bytesOf (text : List Char) : List UInt8 := text.map fun c => UInt8.ofNat c.toNat

def readOctet (cursor : Cursor) : Option (Nat × Cursor) :=
  match cursor.rest with
  | '%' :: high :: low :: _ => do
    return ((← Number.digit? 16 high) * 16 + (← Number.digit? 16 low), cursor.skipBy 3)
  | _ => none

def followers? (octet : Nat) : Option Nat :=
  if octet < 0x80 then some 0
  else if 0xC0 ≤ octet && octet < 0xE0 then some 1
  else if 0xE0 ≤ octet && octet < 0xF0 then some 2
  else if 0xF0 ≤ octet && octet < 0xF8 then some 3
  else none

def readFollowers : Nat → Cursor → Option (List UInt8 × Cursor)
  | 0, cursor => some ([], cursor)
  | count + 1, cursor => do
    let (octet, cursor) ← readOctet cursor
    if 0x80 ≤ octet && octet < 0xC0 then
      let (bytes, cursor) ← readFollowers count cursor
      return (UInt8.ofNat octet :: bytes, cursor)
    else none

def readTagChars (isWide : Bool) : Nat → Cursor → Option (List UInt8 × Cursor)
  | 0, cursor => some ([], cursor)
  | rounds + 1, cursor => match cursor.peek 0 with
    | none => some ([], cursor)
    | some c =>
      if !isTagChar isWide c then some ([], cursor)
      else do
        let (bytes, cursor) ← if c = '%' then do
            let (octet, cursor) ← readOctet cursor
            let (bytes, cursor) ← readFollowers (← followers? octet) cursor
            pure (UInt8.ofNat octet :: bytes, cursor)
          else pure (bytesOf [c], cursor.skip)
        let (more, cursor) ← readTagChars isWide rounds cursor
        return (bytes ++ more, cursor)

/-- A text in bytes ends before its first zero. -/
def readTagText (isWide : Bool) (cursor : Cursor) : Option (List UInt8 × Cursor) := do
  let (bytes, after) ← readTagChars isWide cursor.rest.length cursor
  return (bytes.takeWhile (· ≠ 0), after)

def readTagUri (isWide : Bool) (cursor : Cursor) : Option (List UInt8 × Cursor) := do
  let (bytes, after) ← readTagText isWide cursor
  if after.index = cursor.index then none else return (bytes, after)

def Tag.read (inFlow : Bool) (cursor : Cursor) : Option (Tag × Cursor) := do
  let (tag, after) ← match cursor.rest with
    | '!' :: '<' :: _ => do
      let (suffix, after) ← readTagUri true (cursor.skipBy 2)
      if after.peek 0 = some '>' then pure (Tag.mk "" suffix, after.skip) else none
    | '!' :: rest => do
      let name := rest.takeWhile isWordChar
      if (rest.drop name.length).head? = some '!' then
        let (suffix, after) ← readTagUri false (cursor.skipBy (name.length + 2))
        pure (Tag.mk (String.ofList ('!' :: name ++ ['!'])) suffix, after)
      else
        let (suffix, after) ← readTagText false cursor.skip
        pure (if suffix.isEmpty then Tag.mk "" (bytesOf ['!']) else Tag.mk "!" suffix, after)
    | _ => none
  if endsWord (after.peek 0) || (inFlow && after.peek 0 = some ',') then return (tag, after)
  else none

namespace Directive

/-- A number of a version has nine digits at most. -/
def readNumber (cursor : Cursor) : Option (Nat × Cursor) :=
  let digits := cursor.rest.takeWhile Char.isDigit
  if digits.isEmpty || 9 < digits.length then none
  else do
    let value ← Number.digitsFrom? 10 0 digits
    return (value, cursor.skipBy digits.length)

def readVersion (cursor : Cursor) : Option (Directive × Cursor) := do
  let (major, cursor) ← readNumber cursor
  if cursor.peek 0 = some '.' then
    let (minor, cursor) ← readNumber cursor.skip
    return (.version major minor, cursor)
  else none

/-- The name of a handle is a word between two marks; one of them or the word may be missing. -/
def readHandleName (cursor : Cursor) : Option (String × Cursor) :=
  match cursor.rest with
  | '!' :: rest =>
    let name := rest.takeWhile isWordChar
    if (rest.drop name.length).head? = some '!' then
      some (String.ofList ('!' :: name ++ ['!']), cursor.skipBy (name.length + 2))
    else if name.isEmpty then some ("!", cursor.skip)
    else none
  | _ => none

def readHandle (cursor : Cursor) : Option (Directive × Cursor) := do
  let (name, cursor) ← readHandleName cursor
  if (cursor.peek 0).any isBlank then
    let (start, cursor) ← readTagUri true (cursor.skipWhile isBlank)
    if endsWord (cursor.peek 0) then return (.handle name start, cursor) else none
  else none

def read (cursor : Cursor) : Option (Directive × Cursor) := do
  let name := cursor.rest.takeWhile isWordChar
  let cursor := cursor.skipBy name.length
  if !endsWord (cursor.peek 0) then none
  else
    let cursor := cursor.skipWhile isBlank
    let (directive, cursor) ←
      if name = ['Y', 'A', 'M', 'L'] then readVersion cursor
      else if name = ['T', 'A', 'G'] then readHandle cursor
      else none
    let cursor := cursor.skipWhile isBlank
    let cursor := if cursor.peek 0 = some '#' then cursor.toLineEnd else cursor
    if endsLine (cursor.peek 0) then return (directive, cursor.skipLine) else none

end Directive

end FuzzBridge.Yaml
