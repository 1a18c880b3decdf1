/-!
A place in a YAML text, and the classes of its characters.
-/

namespace FuzzBridge.Yaml

/-- What is left of the text, how many bytes came before it, and its line and column. -/
structure Cursor where
  rest : List Char
  index : Nat
  line : Nat
  column : Nat

def isBreak (c : Char) : Bool :=
  c = '\n' || c = '\r' || c.toNat = 0x85 || c.toNat = 0x2028 || c.toNat = 0x2029

def isBlank (c : Char) : Bool := c = ' ' || c = '\t'

def endsWord : Option Char → Bool
  | some c => isBlank c || isBreak c
  | none => true

def endsLine : Option Char → Bool
  | some c => isBreak c
  | none => true

def isAllowed (c : Char) : Bool :=
  let code := c.toNat
  code = 9 || code = 10 || code = 13 || (0x20 ≤ code && code ≤ 0x7E) || code = 0x85 ||
    (0xA0 ≤ code && code ≤ 0xD7FF) || (0xE000 ≤ code && code ≤ 0xFFFD) || 0x10000 ≤ code

def isFlowMark (c : Char) : Bool := c = ',' || c = '[' || c = ']' || c = '\x7b' || c = '\x7d'

namespace Cursor

def ofText (text : List Char) : Cursor := ⟨text, 0, 0, 0⟩

def peek (cursor : Cursor) (distance : Nat) : Option Char := cursor.rest[distance]?

def skip (cursor : Cursor) : Cursor :=
  match cursor.rest with
  | c :: rest => ⟨rest, cursor.index + c.utf8Size, cursor.line, cursor.column + 1⟩
  | [] => ⟨[], cursor.index + 1, cursor.line, cursor.column + 1⟩

def skipBy (cursor : Cursor) : Nat → Cursor
  | 0 => cursor
  | count + 1 => cursor.skip.skipBy count

/-- Past a line end; a carriage return and a line feed are one. -/
def skipLine (cursor : Cursor) : Cursor :=
  match cursor.rest with
  | '\r' :: '\n' :: rest => ⟨rest, cursor.index + 2, cursor.line + 1, 0⟩
  | c :: rest => ⟨rest, cursor.index + c.utf8Size, cursor.line + 1, 0⟩
  | [] => cursor

def breakText (cursor : Cursor) : List Char :=
  match cursor.rest.head? with
  | some c => if c.toNat = 0x2028 || c.toNat = 0x2029 then [c] else if isBreak c then ['\n'] else []
  | none => []

def skipWhile (cursor : Cursor) (property : Char → Bool) : Cursor :=
  cursor.skipBy (cursor.rest.takeWhile property).length

def toLineEnd (cursor : Cursor) : Cursor := cursor.skipWhile (!isBreak ·)

def atMark (cursor : Cursor) (mark : List Char) : Bool :=
  cursor.column = 0 && mark.isPrefixOf cursor.rest && endsWord (cursor.peek 3)

def atDocumentMark (cursor : Cursor) : Bool :=
  cursor.atMark ['-', '-', '-'] || cursor.atMark ['.', '.', '.']

end Cursor

end FuzzBridge.Yaml
