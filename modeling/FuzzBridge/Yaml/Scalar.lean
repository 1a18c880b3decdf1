import FuzzBridge.Number.Literal
import FuzzBridge.Yaml.Cursor

/-!
Scalars of a YAML text: plain, quoted, and in blocks. Lines of plain and quoted scalars are joined
by a blank, and lines of a block are kept or joined.
-/

namespace FuzzBridge.Yaml

/-- Blanks and line ends between two words of a scalar. `opened` tells whether a line has ended. -/
structure Gap where
  blanks : List Char
  first : List Char
  more : List Char
  opened : Bool

def Gap.none : Gap := ⟨[], [], [], false⟩

/-- One line end joins by a blank, and of several the first is left out. -/
def Gap.joined (gap : Gap) : List Char :=
  if !gap.opened then gap.blanks
  else if gap.first = ['\n'] then (if gap.more.isEmpty then [' '] else gap.more)
  else gap.first ++ gap.more

/-- Reads a gap. Below column `indent` a tab may not begin a line. -/
def readGap (indent : Nat) : Nat → Gap → Cursor → Option (Gap × Cursor)
  | 0, gap, cursor => some (gap, cursor)
  | rounds + 1, gap, cursor => match cursor.peek 0 with
    | some c =>
      if isBlank c then
        if gap.opened && cursor.column < indent && c = '\t' then Option.none
        else
          let gap := if gap.opened then gap else { gap with blanks := gap.blanks ++ [c] }
          readGap indent rounds gap cursor.skip
      else if isBreak c then
        let gap := if gap.opened then { gap with more := gap.more ++ cursor.breakText }
          else { gap with blanks := [], first := cursor.breakText, opened := true }
        readGap indent rounds gap cursor.skipLine
      else some (gap, cursor)
    | Option.none => some (gap, cursor)

def readPlainWord (inFlow : Bool) : Nat → Cursor → Option (List Char × Cursor)
  | 0, cursor => some ([], cursor)
  | rounds + 1, cursor => match cursor.peek 0 with
    | Option.none => some ([], cursor)
    | some c =>
      let next := cursor.peek 1
      if endsWord (some c) || (c = ':' && endsWord next) || (inFlow && isFlowMark c) then
        some ([], cursor)
      else if inFlow && c = ':' && (next.any fun next => isFlowMark next || next = '?') then
        Option.none
      else do
        let (text, cursor) ← readPlainWord inFlow rounds cursor.skip
        return (c :: text, cursor)

def readPlain (inFlow : Bool) (indent : Nat) :
    Nat → Gap → Cursor → Option (List Char × Bool × Cursor)
  | 0, gap, cursor => some ([], gap.opened, cursor)
  | rounds + 1, gap, cursor =>
    if cursor.atDocumentMark || cursor.peek 0 = some '#' then some ([], gap.opened, cursor)
    else do
      let (text, after) ← readPlainWord inFlow cursor.rest.length cursor
      if text.isEmpty then return ([], gap.opened, cursor)
      let text := gap.joined ++ text
      if after.rest.isEmpty || !endsWord (after.peek 0) then return (text, false, after)
      let (gap, after) ← readGap indent after.rest.length Gap.none after
      if !inFlow && after.column < indent then return (text, gap.opened, after)
      let (more, opened, after) ← readPlain inFlow indent rounds gap after
      return (text ++ more, opened, after)

def readHexDigits (digits : List Char) : Option Nat :=
  digits.foldlM (fun value c => (Number.digit? 16 c).map (value * 16 + ·)) 0

def escape? : Char → Option (Char ⊕ Nat)
  | '0' => some (.inl (Char.ofNat 0))
  | 'a' => some (.inl (Char.ofNat 7))
  | 'b' => some (.inl (Char.ofNat 8))
  | 't' | '\t' => some (.inl '\t')
  | 'n' => some (.inl '\n')
  | 'v' => some (.inl (Char.ofNat 11))
  | 'f' => some (.inl (Char.ofNat 12))
  | 'r' => some (.inl '\r')
  | 'e' => some (.inl (Char.ofNat 27))
  | ' ' => some (.inl ' ')
  | '"' => some (.inl '"')
  | '/' => some (.inl '/')
  | '\\' => some (.inl '\\')
  | 'N' => some (.inl (Char.ofNat 0x85))
  | '_' => some (.inl (Char.ofNat 0xA0))
  | 'L' => some (.inl (Char.ofNat 0x2028))
  | 'P' => some (.inl (Char.ofNat 0x2029))
  | 'x' => some (.inr 2)
  | 'u' => some (.inr 4)
  | 'U' => some (.inr 8)
  | _ => none

def readEscape (cursor : Cursor) : Option (Char × Cursor) := do
  match ← escape? (← cursor.peek 1) with
  | .inl c => return (c, cursor.skipBy 2)
  | .inr count =>
    let digits := (cursor.rest.drop 2).take count
    let code ← readHexDigits digits
    if digits.length = count ∧ code.isValidChar then
      return (Char.ofNat code, cursor.skipBy (2 + count))
    else none

def readQuotedWord (quote : Char) : Nat → Cursor → Option (List Char × Bool × Cursor)
  | 0, cursor => some ([], false, cursor)
  | rounds + 1, cursor => match cursor.peek 0 with
    | none => some ([], false, cursor)
    | some c =>
      if isBlank c || isBreak c then some ([], false, cursor)
      else if c = '\'' && quote = '\'' && cursor.peek 1 = some '\'' then do
        let (text, isJoined, cursor) ← readQuotedWord quote rounds (cursor.skipBy 2)
        return (c :: text, isJoined, cursor)
      else if c = quote then some ([], false, cursor)
      else if c = '\\' && quote = '"' then
        if (cursor.peek 1).any isBreak then some ([], true, cursor.skip.skipLine)
        else do
          let (c, cursor) ← readEscape cursor
          let (text, isJoined, cursor) ← readQuotedWord quote rounds cursor
          return (c :: text, isJoined, cursor)
      else do
        let (text, isJoined, cursor) ← readQuotedWord quote rounds cursor.skip
        return (c :: text, isJoined, cursor)

def readQuoted (quote : Char) : Nat → Cursor → Option (List Char × Cursor)
  | 0, _ => none
  | rounds + 1, cursor =>
    if cursor.atDocumentMark || cursor.rest.isEmpty then none
    else do
      let (text, isJoined, cursor) ← readQuotedWord quote cursor.rest.length cursor
      if cursor.peek 0 = some quote then return (text, cursor.skip)
      let start := if isJoined then { Gap.none with opened := true } else Gap.none
      let (gap, cursor) ← readGap 0 cursor.rest.length start cursor
      let (more, cursor) ← readQuoted quote rounds cursor
      return (text ++ gap.joined ++ more, cursor)

inductive Chomping where
  | strip | clip | keep
  deriving DecidableEq

def chomping? : Option Char → Option Chomping
  | some '+' => some .keep
  | some '-' => some .strip
  | _ => none

/-- The header of a block: what becomes of its end, and its indentation, in either order. -/
def readHeader (cursor : Cursor) : Option (Chomping × Nat × Cursor) := do
  let digit (cursor : Cursor) : Option (Nat × Cursor) :=
    match cursor.peek 0 with
    | some c =>
      if c = '0' then none
      else if c.isDigit then some (c.toNat - '0'.toNat, cursor.skip)
      else some (0, cursor)
    | none => some (0, cursor)
  match chomping? (cursor.peek 0) with
  | some chomping =>
    let (increment, cursor) ← digit cursor.skip
    return (chomping, increment, cursor)
  | none =>
    let (increment, cursor) ← digit cursor
    match chomping? (cursor.peek 0) with
    | some chomping => return (chomping, increment, cursor.skip)
    | none => return (.clip, increment, cursor)

/-- Empty lines before a line of a block, and the indentation of the block: the given one, or that
of the first line that is not empty, which is `least` at least. -/
def readBlockBreaks (least : Nat) (indent : Nat) :
    Nat → Nat → Cursor → Option (List Char × Nat × Cursor)
  | 0, _, _ => none
  | rounds + 1, widest, cursor => do
    let room := if indent = 0 then cursor.rest.length else indent - cursor.column
    let cursor := cursor.skipBy ((cursor.rest.take room).takeWhile (· = ' ')).length
    let widest := max widest cursor.column
    if (indent = 0 || cursor.column < indent) && cursor.peek 0 = some '\t' then none
    else if (cursor.peek 0).any isBreak then
      let (breaks, indent, after) ← readBlockBreaks least indent rounds widest cursor.skipLine
      return (cursor.breakText ++ breaks, indent, after)
    else return ([], if indent = 0 then max widest least else indent, cursor)

def readBlockLines (isLiteral : Bool) (chomping : Chomping) (indent : Nat) :
    Nat → List Char → List Char → Bool → Cursor → Option (List Char × Cursor)
  | 0, _, _, _, _ => none
  | rounds + 1, first, more, wasBlank, cursor =>
    if cursor.column = indent && !cursor.rest.isEmpty then do
      let isIndented := (cursor.peek 0).any isBlank
      let joint := if !isLiteral && first = ['\n'] && !wasBlank && !isIndented then
          (if more.isEmpty then [' '] else [])
        else first
      let line := cursor.rest.takeWhile (!isBreak ·)
      let after := cursor.toLineEnd
      let (breaks, _, next) ← readBlockBreaks indent indent (after.rest.length + 1) 0 after.skipLine
      let (text, next) ← readBlockLines isLiteral chomping indent rounds after.breakText breaks
        isIndented next
      return (joint ++ more ++ line ++ text, next)
    else
      return ((if chomping = .strip then [] else first) ++ (if chomping = .keep then more else []),
        cursor)

def readBlock (isLiteral : Bool) (outer : Option Nat) (cursor : Cursor) :
    Option (List Char × Cursor) := do
  let (chomping, increment, cursor) ← readHeader cursor
  let cursor := cursor.skipWhile isBlank
  let cursor := if cursor.peek 0 = some '#' then cursor.toLineEnd else cursor
  if !endsLine (cursor.peek 0) then none
  else
    let cursor := cursor.skipLine
    let indent := if increment = 0 then 0 else outer.getD 0 + increment
    let least := match outer with
      | some outer => outer + 1
      | none => 1
    let (breaks, indent, cursor) ←
      readBlockBreaks least indent (cursor.rest.length + 1) 0 cursor
    readBlockLines isLiteral chomping indent (cursor.rest.length + 1) [] breaks false cursor

end FuzzBridge.Yaml
