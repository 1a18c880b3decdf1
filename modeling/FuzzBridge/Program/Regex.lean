import FuzzBridge.Program.Pattern

/-!
Regular expressions, in the basic and the extended form, over lines of bytes. Of all matches at the
first place that has one, the longest counts.
-/

namespace FuzzBridge.Program

inductive Regex where
  | empty
  | char (c : Char)
  | one
  | member (members : CharSet)
  | first | last | wordStart | wordEnd | edge | inner
  | group (number : Nat) (body : Regex)
  | again (number : Nat)
  | both (left right : Regex)
  | either (left right : Regex)
  | times (least : Nat) (most : Option Nat) (body : Regex)

namespace Regex

/-- A place in a line, and what the groups have taken up to it, the last one first. -/
structure Spot where
  before : Option Char
  rest : List Char
  index : Nat
  groups : List (Nat × List Char)

def Spot.ofText (text : List Char) : Spot := ⟨none, text, 0, []⟩

def Spot.next (spot : Spot) : Spot :=
  { spot with before := spot.rest.head?, rest := spot.rest.drop 1, index := spot.index + 1 }

def Spot.skip (spot : Spot) : Nat → Spot
  | 0 => spot
  | count + 1 => spot.next.skip count

def isWordChar (c : Char) : Bool := c.isAlphanum || c = '_'

def distinct : List Spot → List Nat → List Spot
  | [], _ => []
  | spot :: rest, seen =>
    if seen.contains spot.index then distinct rest seen
    else spot :: distinct rest (spot.index :: seen)

/-- The ends of so many more matches of a body, the longest first. A match of nothing is not
repeated. -/
def repeated (step : Spot → List Spot) : Nat → Nat → Option Nat → Spot → List Spot
  | 0, _, _, _ => []
  | rounds + 1, least, most, spot =>
    let here := if least = 0 then [spot] else []
    if most = some 0 then here
    else
      let ends := (step spot).filter fun after => spot.index < after.index || 0 < least
      distinct (ends.flatMap (repeated step rounds (least - 1) (most.map (· - 1))) ++ here) []

def ends (ignoresCase : Bool) : Regex → Spot → List Spot
  | .empty, spot => [spot]
  | .char c, spot => match spot.rest with
    | other :: _ =>
      if c = other || (ignoresCase && c.toLower = other.toLower) then [spot.next] else []
    | [] => []
  | .one, spot => if spot.rest.isEmpty then [] else [spot.next]
  | .member members, spot => match spot.rest with
    | c :: _ =>
      let isIn := members.contains c || (ignoresCase && !members.isNegated &&
        (members.contains c.toLower || members.contains c.toUpper))
      if isIn then [spot.next] else []
    | [] => []
  | .first, spot => if spot.before.isNone then [spot] else []
  | .last, spot => if spot.rest.isEmpty then [spot] else []
  | .wordStart, spot =>
    if !spot.before.any isWordChar && spot.rest.head?.any isWordChar then [spot] else []
  | .wordEnd, spot =>
    if spot.before.any isWordChar && !spot.rest.head?.any isWordChar then [spot] else []
  | .edge, spot =>
    if spot.before.any isWordChar != spot.rest.head?.any isWordChar then [spot] else []
  | .inner, spot =>
    if spot.before.any isWordChar == spot.rest.head?.any isWordChar then [spot] else []
  | .group number body, spot =>
    (body.ends ignoresCase spot).map fun after =>
      { after with groups := (number, spot.rest.take (after.index - spot.index)) :: after.groups }
  | .again number, spot => match spot.groups.find? (·.1 = number) with
    | some (_, text) =>
      if text.isPrefixOf spot.rest then [spot.skip text.length] else []
    | none => []
  | .both left right, spot =>
    distinct ((left.ends ignoresCase spot).flatMap (right.ends ignoresCase)) []
  | .either left right, spot =>
    distinct (left.ends ignoresCase spot ++ right.ends ignoresCase spot) []
  | .times least most body, spot =>
    repeated (body.ends ignoresCase) (spot.rest.length + least + 2) least most spot

/-- A match: what stands before it, what it takes, and what its groups take. -/
structure Match where
  start : Nat
  length : Nat
  groups : List (Nat × List Char)

def longest : List Spot → Option Spot
  | [] => none
  | spot :: rest => match longest rest with
    | some other => if spot.index < other.index then some other else some spot
    | none => some spot

def find? (regex : Regex) (ignoresCase : Bool) (accepts : Spot → Spot → Bool) :
    Nat → Spot → Option Match
  | 0, _ => none
  | rounds + 1, spot => match longest ((regex.ends ignoresCase spot).filter (accepts spot)) with
    | some after => some ⟨spot.index, after.index - spot.index, after.groups⟩
    | none => if spot.rest.isEmpty then none else regex.find? ignoresCase accepts rounds spot.next

def search? (regex : Regex) (ignoresCase : Bool) (spot : Spot) : Option Match :=
  regex.find? ignoresCase (fun _ _ => true) (spot.rest.length + 1) spot

def wordSet (isNegated : Bool) : Regex := .member ⟨isNegated, [('_', '_')], ["alnum"]⟩

def spaceSet (isNegated : Bool) : Regex := .member ⟨isNegated, [], ["space"]⟩

def bounds? (text : List Char) : Option (Nat × Option Nat) := do
  let number (digits : List Char) : Option Nat :=
    if digits.all Char.isDigit then
      some (digits.foldl (fun value c => value * 10 + (c.toNat - '0'.toNat)) 0)
    else none
  let low := text.takeWhile (· ≠ ',')
  match text.drop low.length with
  | [] => if low.isEmpty then none else do
    let count ← number low
    return (count, some count)
  | [_] => return (← number low, none)
  | _ :: high => return (← number low, some (← number high))

structure Progress where
  rest : List Char
  groups : Nat

abbrev Reading := StateT Progress Option

def rest : Reading (List Char) := return (← get).rest

def skip (count : Nat) : Reading Unit :=
  modify fun progress => { progress with rest := progress.rest.drop count }

/-- The text of an operator, which a backslash marks in the basic form. -/
def operator (isExtended : Bool) (c : Char) : List Char := if isExtended then [c] else ['\\', c]

def isAt (mark : List Char) : Reading Bool := return mark.isPrefixOf (← rest)

def readRepetitions (isExtended : Bool) (atom : Regex) : Nat → Reading Regex
  | 0 => return atom
  | rounds + 1 => do
    if ← isAt ['*'] then
      skip 1
      readRepetitions isExtended (.times 0 none atom) rounds
    else if ← isAt (operator isExtended '+') then
      skip (operator isExtended '+').length
      readRepetitions isExtended (.times 1 none atom) rounds
    else if ← isAt (operator isExtended '?') then
      skip (operator isExtended '?').length
      readRepetitions isExtended (.times 0 (some 1) atom) rounds
    else if ← isAt (operator isExtended '{') then
      let inner := (← rest).drop (operator isExtended '{').length
      let text := inner.takeWhile fun c => c.isDigit || c = ','
      let closing := operator isExtended '}'
      match bounds? text, closing.isPrefixOf (inner.drop text.length) with
      | some (least, most), true =>
        skip ((operator isExtended '{').length + text.length + closing.length)
        readRepetitions isExtended (.times least most atom) rounds
      | _, _ => if isExtended then return atom else failure
    else return atom

mutual

def readChoice (isExtended : Bool) : Nat → Reading Regex
  | 0 => failure
  | rounds + 1 => do
    let left ← readSequence isExtended true rounds
    if ← isAt (operator isExtended '|') then
      skip (operator isExtended '|').length
      return .either left (← readChoice isExtended rounds)
    else return left
termination_by structural rounds => rounds

def readSequence (isExtended isFirst : Bool) : Nat → Reading Regex
  | 0 => failure
  | rounds + 1 => do
    let text ← rest
    let closes := (operator isExtended ')').isPrefixOf text
    if text.isEmpty || (operator isExtended '|').isPrefixOf text ||
        (closes && 0 < (← get).groups) then return .empty
    let atom ← readAtom isExtended isFirst rounds
    let atom ← match atom with
      | .first => if isExtended then readRepetitions isExtended atom text.length else pure atom
      | atom => readRepetitions isExtended atom text.length
    let isStart := match atom with
      | .first => true
      | _ => false
    return .both atom (← readSequence isExtended (isStart && !isExtended) rounds)
termination_by structural rounds => rounds

def readAtom (isExtended isFirst : Bool) : Nat → Reading Regex
  | 0 => failure
  | rounds + 1 => do
    let text ← rest
    if (operator isExtended '(').isPrefixOf text then
      skip (operator isExtended '(').length
      modify fun progress => { progress with groups := progress.groups + 1 }
      let number := (← get).groups
      let body ← readChoice isExtended rounds
      if ← isAt (operator isExtended ')') then
        skip (operator isExtended ')').length
        return .group number body
      else failure
    match text with
    | [] => failure
    | ['\\'] => failure
    | '\\' :: c :: _ =>
      skip 2
      return match c with
        | '<' => .wordStart
        | '>' => .wordEnd
        | 'b' => .edge
        | 'B' => .inner
        | 'w' => wordSet false
        | 'W' => wordSet true
        | 's' => spaceSet false
        | 'S' => spaceSet true
        | 'n' => .char '\n'
        | 't' => .char '\t'
        | c => if c.isDigit && c ≠ '0' then .again (c.toNat - '0'.toNat) else .char c
    | '.' :: _ =>
      skip 1
      return .one
    | '[' :: more =>
      let (members, after) ← CharSet.read? false (more.map fun c => (false, c))
      modify fun progress => { progress with rest := after.map (·.2) }
      return .member members
    | c :: more =>
      skip 1
      if c = '^' && (isExtended || isFirst) then return .first
      if c = '$' && (isExtended || more.isEmpty || (operator false ')').isPrefixOf more ||
          (operator false '|').isPrefixOf more) then return .last
      return .char c
termination_by structural rounds => rounds

end

def ofText? (isExtended : Bool) (text : List Char) : Option Regex := do
  let (regex, progress) ← (readChoice isExtended (4 * (text.length + 2))).run ⟨text, 0⟩
  if progress.rest.isEmpty then return regex else none

def ofPlain (text : List Char) : Regex := text.foldr (fun c regex => .both (.char c) regex) .empty

end Regex

end FuzzBridge.Program
