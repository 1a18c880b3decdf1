import FuzzBridge.Yaml.Scalar
import FuzzBridge.Yaml.Tag

/-!
Tokens of a YAML text. What may turn out to be the key of a mapping is remembered until a colon
follows it on the same line or can follow no more.
-/

namespace FuzzBridge.Yaml

inductive Token where
  | scalar (text : String) (isPlain : Bool)
  | anchor (name : String)
  | reference (name : String)
  | tag (tag : Tag)
  | blockSequence | blockMapping | blockEnd
  | flowSequence | flowSequenceEnd | flowMapping | flowMappingEnd
  | item | comma | key | value
  | directive (directive : Directive)
  | documentStart | documentEnd
  deriving DecidableEq

/-- A place where a key may have begun: the number of tokens before it, and where it is. A required
one has to be a key. -/
structure KeyPlace where
  position : Nat
  index : Nat
  line : Nat
  column : Nat
  isRequired : Bool

/-- The reading of a text so far. `indents` are the columns of the open block collections, innermost
first, and `keys` the open key places, one for each level of brackets. -/
structure Scan where
  cursor : Cursor
  tokens : List Token
  indents : List Nat
  keys : List (Option KeyPlace)
  allowsKey : Bool

namespace Scan

def ofText (text : List Char) : Scan := ⟨Cursor.ofText text, [], [], [none], true⟩

def inFlow (scan : Scan) : Bool := 1 < scan.keys.length

/-- Adds a token. The tokens are kept with the last one first. -/
def add (scan : Scan) (token : Token) : Scan := { scan with tokens := token :: scan.tokens }

def addAt (scan : Scan) (position : Nat) (token : Token) : Scan :=
  let later := scan.tokens.length - position
  { scan with tokens := scan.tokens.take later ++ token :: scan.tokens.drop later }

def setKey (scan : Scan) (key : Option KeyPlace) : Scan :=
  { scan with keys := key :: scan.keys.drop 1 }

def dropKey (scan : Scan) : Option Scan :=
  match scan.keys with
  | some key :: _ => if key.isRequired then none else some (scan.setKey none)
  | _ => some scan

def isStale (cursor : Cursor) (key : KeyPlace) : Bool :=
  key.line < cursor.line || key.index + 1024 < cursor.index

def dropStale (scan : Scan) : Option Scan := do
  let keys ← scan.keys.mapM fun
    | some key =>
      if isStale scan.cursor key then (if key.isRequired then none else some none)
      else some (some key)
    | none => some none
  return { scan with keys }

def saveKey (scan : Scan) : Option Scan :=
  if !scan.allowsKey then some scan
  else do
    let cursor := scan.cursor
    let isRequired := !scan.inFlow && scan.indents.head? = some cursor.column
    let scan ← scan.dropKey
    return scan.setKey (some
      ⟨scan.tokens.length, cursor.index, cursor.line, cursor.column, isRequired⟩)

def unroll (scan : Scan) (column : Nat) : Scan :=
  if scan.inFlow then scan
  else
    let closed := scan.indents.takeWhile (column < ·)
    { scan with
      indents := scan.indents.drop closed.length
      tokens := closed.map (fun _ => .blockEnd) ++ scan.tokens }

def unrollAll (scan : Scan) : Scan :=
  if scan.inFlow then scan
  else { scan with indents := [], tokens := scan.indents.map (fun _ => .blockEnd) ++ scan.tokens }

def roll (scan : Scan) (column position : Nat) (token : Token) : Scan :=
  if scan.inFlow || (scan.indents.head?).any (column ≤ ·) then scan
  else { scan.addAt position token with indents := column :: scan.indents }

/-- The mark that may begin a line, though it says nothing. -/
def orderMark : Char := Char.ofNat 0xFEFF

/-- Past blanks, comments and line ends. Where a key may begin, a tab is no blank. -/
def toToken : Nat → Scan → Scan
  | 0, scan => scan
  | rounds + 1, scan =>
    let cursor := scan.cursor
    let cursor :=
      if cursor.column = 0 && cursor.peek 0 = some orderMark then cursor.skip else cursor
    let cursor := cursor.skipWhile fun c =>
      c = ' ' || ((scan.inFlow || !scan.allowsKey) && c = '\t')
    let cursor := if cursor.peek 0 = some '#' then cursor.toLineEnd else cursor
    if (cursor.peek 0).any isBreak then
      toToken rounds { scan with
        cursor := cursor.skipLine, allowsKey := scan.allowsKey || !scan.inFlow }
    else { scan with cursor }

def advance (scan : Scan) (count : Nat) : Scan :=
  { scan with cursor := scan.cursor.skipBy count }

def readName (cursor : Cursor) : Option (String × Cursor) :=
  let name := cursor.rest.takeWhile isWordChar
  let after := cursor.skipBy name.length
  let isEnded := endsWord (after.peek 0) ||
    (after.peek 0).any fun c => ['?', ':', ',', ']', '\x7d', '%', '@', Char.ofNat 96].contains c
  if name.isEmpty || !isEnded then none else some (String.ofList name, after)

def addScalar (scan : Scan) (text : List Char) (isPlain : Bool) (cursor : Cursor) : Scan :=
  { scan.add (.scalar (String.ofList text) isPlain) with cursor }

def open? (scan : Scan) (token : Token) : Option Scan := do
  let scan ← scan.saveKey
  return { (scan.add token).advance 1 with keys := none :: scan.keys, allowsKey := true }

def close? (scan : Scan) (token : Token) : Option Scan := do
  let scan ← scan.dropKey
  let keys := if scan.inFlow then scan.keys.drop 1 else scan.keys
  return { (scan.add token).advance 1 with keys, allowsKey := false }

def blockMark? (scan : Scan) (opening token : Token) (allowsKey : Bool) : Option Scan := do
  if !scan.inFlow && !scan.allowsKey then none
  else
    let scan := scan.roll scan.cursor.column scan.tokens.length opening
    let scan ← scan.dropKey
    return { (scan.add token).advance 1 with allowsKey }

/-- A colon. If a key place is open, the key stands there. -/
def value? (scan : Scan) : Option Scan :=
  match scan.keys with
  | some key :: _ =>
    let scan := scan.addAt key.position .key
    let scan := scan.roll key.column key.position .blockMapping
    some { ((scan.setKey none).add .value).advance 1 with allowsKey := false }
  | _ =>
    if !scan.inFlow && !scan.allowsKey then none
    else
      let scan := scan.roll scan.cursor.column scan.tokens.length .blockMapping
      some { (scan.add .value).advance 1 with allowsKey := !scan.inFlow }

def outermost? (scan : Scan) : Option Scan := do
  let scan ← scan.unrollAll.dropKey
  return { scan with allowsKey := false }

def name? (scan : Scan) (token : String → Token) : Option Scan := do
  let scan ← scan.saveKey
  let (name, cursor) ← readName scan.cursor.skip
  return { scan.add (token name) with cursor, allowsKey := false }

def quoted? (scan : Scan) (quote : Char) : Option Scan := do
  let scan ← scan.saveKey
  let cursor := scan.cursor.skip
  let (text, cursor) ← readQuoted quote (cursor.rest.length + 1) cursor
  return { scan.addScalar text false cursor with allowsKey := false }

def block? (scan : Scan) (isLiteral : Bool) : Option Scan := do
  let scan ← scan.dropKey
  let (text, cursor) ← readBlock isLiteral scan.indents.head? scan.cursor.skip
  return { scan.addScalar text false cursor with allowsKey := true }

def plain? (scan : Scan) : Option Scan := do
  let scan ← scan.saveKey
  let indent := match scan.indents.head? with
    | some column => column + 1
    | none => 0
  let (text, isEnded, cursor) ←
    readPlain scan.inFlow indent (scan.cursor.rest.length + 1) Gap.none scan.cursor
  return { scan.addScalar text true cursor with allowsKey := isEnded }

def isMark (c : Char) : Bool :=
  ['-', '?', ':', ',', '[', ']', '\x7b', '\x7d', '#', '&', '*', '!', '|', '>', '\'', '"', '%', '@',
    Char.ofNat 96].contains c

def next? (scan : Scan) (c : Char) : Option Scan :=
  let after := scan.cursor.peek 1
  if scan.cursor.column = 0 && c = '%' then do
    let scan ← scan.outermost?
    let (directive, cursor) ← Directive.read scan.cursor.skip
    return { scan.add (.directive directive) with cursor }
  else if scan.cursor.atDocumentMark then do
    let scan ← scan.outermost?
    return (scan.add (if c = '-' then .documentStart else .documentEnd)).advance 3
  else match c with
    | '[' => scan.open? .flowSequence
    | '\x7b' => scan.open? .flowMapping
    | ']' => scan.close? .flowSequenceEnd
    | '\x7d' => scan.close? .flowMappingEnd
    | ',' => do
      let scan ← scan.dropKey
      return { (scan.add .comma).advance 1 with allowsKey := true }
    | '*' => scan.name? .reference
    | '&' => scan.name? .anchor
    | '!' => do
      let scan ← scan.saveKey
      let (tag, cursor) ← Tag.read scan.inFlow scan.cursor
      return { scan.add (.tag tag) with cursor, allowsKey := false }
    | '\'' | '"' => scan.quoted? c
    | _ =>
      if c = '-' && endsWord after then scan.blockMark? .blockSequence .item true
      else if c = '?' && (scan.inFlow || endsWord after) then
        scan.blockMark? .blockMapping .key (!scan.inFlow)
      else if c = ':' && (scan.inFlow || endsWord after) then scan.value?
      else if (c = '|' || c = '>') && !scan.inFlow then scan.block? (c = '|')
      else if c = '-' && !(after.any isBlank) then scan.plain?
      else if !isMark c && !isBlank c then scan.plain?
      else if !scan.inFlow && (c = '?' || c = ':') then scan.plain?
      else none

/-- Each round takes a token, and `rounds` is larger than the text is long. -/
def run : Nat → Scan → Option Scan
  | 0, _ => none
  | rounds + 1, scan => do
    let scan ← (toToken (scan.cursor.rest.length + 1) scan).dropStale
    match scan.cursor.rest.head? with
    | none => scan.unrollAll.dropKey
    | some c => run rounds (← (scan.unroll scan.cursor.column).next? c)

end Scan

def Token.ofText? (text : List Char) : Option (List Token) := do
  if !text.all isAllowed then none
  else
    let scan ← Scan.run (text.length + 1) (Scan.ofText text)
    return scan.tokens.reverse

end FuzzBridge.Yaml
