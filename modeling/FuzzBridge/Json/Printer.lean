import FuzzBridge.Json.Basic

/-!
The compact form of a JSON value: no spaces, members in the order of the value.
-/

namespace FuzzBridge.Json

/-- The quote, the backslash and the characters below U+0020 are escaped, nothing else. -/
def escapeChar (c : Char) : List Char :=
  if c = '"' then ['\\', '"']
  else if c = '\\' then ['\\', '\\']
  else if c = '\n' then ['\\', 'n']
  else if c = '\r' then ['\\', 'r']
  else if c = '\t' then ['\\', 't']
  else if c.toNat = 8 then ['\\', 'b']
  else if c.toNat = 12 then ['\\', 'f']
  else if c.toNat < 0x20 then
    ['\\', 'u', '0', '0', Nat.digitChar (c.toNat / 16), Nat.digitChar (c.toNat % 16)]
  else [c]

def renderText (text : String) : List Char :=
  '"' :: text.toList.flatMap escapeChar ++ ['"']

def renderNumeral : Numeral → List Char
  | .natural value => Nat.toDigits 10 value
  | .negative magnitude => '-' :: Nat.toDigits 10 magnitude
  | .double value => value.render

mutual

def renderChars : Json → List Char
  | .null => ['n', 'u', 'l', 'l']
  | .bool true => ['t', 'r', 'u', 'e']
  | .bool false => ['f', 'a', 'l', 's', 'e']
  | .number value => renderNumeral value
  | .text value => renderText value
  | .array [] => ['[', ']']
  | .array (item :: rest) => '[' :: renderChars item ++ renderItems rest
  | .object [] => ['{', '}']
  | .object ((key, value) :: rest) =>
    '{' :: renderText key ++ ':' :: renderChars value ++ renderMembers rest
termination_by structural value => value

def renderItems : List Json → List Char
  | [] => [']']
  | item :: rest => ',' :: renderChars item ++ renderItems rest
termination_by structural items => items

def renderMembers : List (String × Json) → List Char
  | [] => ['}']
  | (key, value) :: rest => ',' :: renderText key ++ ':' :: renderChars value ++ renderMembers rest
termination_by structural members => members

end

def render (value : Json) : String := String.ofList (renderChars value)

end FuzzBridge.Json
