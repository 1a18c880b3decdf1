import FuzzBridge.Program.Regex
import FuzzBridge.Program.Utility.Lines

/-!
The program that edits lines by a script. A script is a list of edits, each for the lines that its
range takes; an edit may go on at another place of the script.
-/

namespace FuzzBridge.Program.Utility

/-- Which lines an edit is for. An empty expression is the last one that has been looked for. -/
inductive LineAddress where
  | line (number : Nat)
  | final
  | every (first step : Nat)
  | like (regex : Option Regex) (ignoresCase : Bool)
  | after (count : Nat)

structure LineRange where
  first : Option LineAddress
  last : Option LineAddress
  isNegated : Bool

inductive Replacement where
  | char (c : Char)
  | group (number : Nat)

structure Substitution where
  regex : Option Regex
  ignoresCase : Bool
  replacement : List Replacement
  isGlobal : Bool
  position : Nat
  isShown : Bool

inductive Edit where
  | substitute (substitution : Substitution)
  | show | showFirst | delete | deleteFirst | next | join | number
  | quit (isShown : Bool) (status : Nat)
  | exchange (source target : List Char)
  | append (text : List Char)
  | insert (text : List Char)
  | change (text : List Char)
  | hold (isMore : Bool)
  | fetch (isMore : Bool)
  | swap
  | label (name : List Char)
  | jump (isIfChanged : Bool) (name : List Char)
  | opening
  | closing

structure RangedEdit where
  range : LineRange
  edit : Edit

namespace RangedEdit

abbrev Reading := StateT (List Char) Option

def rest : Reading (List Char) := get

def skip (count : Nat) : Reading Unit := modify (·.drop count)

def takeWhile (property : Char → Bool) : Reading (List Char) := do
  let text := (← rest).takeWhile property
  skip text.length
  return text

def readNumber : Reading Nat := do
  match decimal? (← takeWhile Char.isDigit) with
  | some value => return value
  | none => failure

def readMarked (mark : Char) (isPattern : Bool) : Nat → Reading (List Char)
  | 0 => failure
  | rounds + 1 => do
    match ← rest with
    | [] => failure
    | '\\' :: c :: _ =>
      skip 2
      let text ← readMarked mark isPattern rounds
      return if c = mark then c :: text
        else if c = 'n' && isPattern then '\n' :: text
        else '\\' :: c :: text
    | c :: _ =>
      skip 1
      if c = mark then return []
      return c :: (← readMarked mark isPattern rounds)

def readRegex (isExtended : Bool) (mark : Char) : Reading (Option Regex) := do
  let text ← readMarked mark true ((← rest).length + 1)
  if text.isEmpty then return none
  match Regex.ofText? isExtended text with
  | some regex => return some regex
  | none => failure

def readAddress? (isExtended : Bool) : Reading (Option LineAddress) := do
  match ← rest with
  | '$' :: _ =>
    skip 1
    return some .final
  | '+' :: _ =>
    skip 1
    return some (.after (← readNumber))
  | '\\' :: mark :: _ =>
    skip 2
    ofRegex mark
  | '/' :: _ =>
    skip 1
    ofRegex '/'
  | c :: _ =>
    if !c.isDigit then return none
    let first ← readNumber
    if (← rest).head? = some '~' then
      skip 1
      return some (.every first (← readNumber))
    else return some (.line first)
  | [] => return none
where
  ofRegex (mark : Char) : Reading (Option LineAddress) := do
    let regex ← readRegex isExtended mark
    let isFree := (← rest).head? = some 'I'
    if isFree then skip 1
    return some (.like regex isFree)

def isBlankChar (c : Char) : Bool := c = ' ' || c = '\t'

def readRange (isExtended : Bool) : Reading LineRange := do
  let first ← readAddress? isExtended
  let _ ← takeWhile isBlankChar
  let last ← if first.isSome && (← rest).head? = some ',' then do
      skip 1
      let _ ← takeWhile isBlankChar
      let last ← readAddress? isExtended
      if last.isNone then failure
      pure last
    else pure none
  let _ ← takeWhile isBlankChar
  let marks ← takeWhile (· = '!')
  let _ ← takeWhile isBlankChar
  return ⟨first, last, !marks.isEmpty⟩

def replacementOf : List Char → List Replacement
  | [] => []
  | '\\' :: c :: rest =>
    (if c.isDigit then .group (c.toNat - '0'.toNat)
      else .char (if c = 'n' then '\n' else if c = 't' then '\t' else c)) :: replacementOf rest
  | '&' :: rest => .group 0 :: replacementOf rest
  | c :: rest => .char c :: replacementOf rest

/-- A replacement may hold a protected mark that would otherwise stand for the whole match. -/
def readReplacement (mark : Char) : Nat → Reading (List Char)
  | 0 => failure
  | rounds + 1 => do
    match ← rest with
    | [] => failure
    | '\\' :: c :: _ =>
      skip 2
      let text ← readReplacement mark rounds
      return if c = mark && c ≠ '&' then c :: text else '\\' :: c :: text
    | c :: _ =>
      skip 1
      if c = mark then return []
      return c :: (← readReplacement mark rounds)

def readSubstitution (isExtended : Bool) : Reading Edit := do
  let mark :: _ ← rest | failure
  skip 1
  let regex ← readRegex isExtended mark
  let replacement ← readReplacement mark ((← rest).length + 1)
  let flags ← takeWhile Char.isAlphanum
  if !flags.all fun c => c = 'g' || c = 'p' || c = 'i' || c = 'I' || c.isDigit then failure
  let position := (decimal? (flags.filter Char.isDigit)).getD 1
  if position = 0 then failure
  return .substitute ⟨regex, flags.contains 'i' || flags.contains 'I', replacementOf replacement,
    flags.contains 'g', position, flags.contains 'p'⟩

/-- The text of an edit, up to a line end that no backslash protects. -/
def readText : Nat → Reading (List Char)
  | 0 => return []
  | rounds + 1 => do
    match ← rest with
    | [] => return []
    | '\n' :: _ => return []
    | '\\' :: c :: _ =>
      skip 2
      return c :: (← readText rounds)
    | c :: _ =>
      skip 1
      return c :: (← readText rounds)

def readLines : Reading (List Char) := do
  let _ ← takeWhile isBlankChar
  match ← rest with
  | '\\' :: '\n' :: _ => skip 2
  | '\\' :: c :: _ => if isBlankChar c then skip 1 else pure ()
  | _ => pure ()
  readText ((← rest).length + 1)

def readLabel : Reading (List Char) := do
  let _ ← takeWhile isBlankChar
  takeWhile fun c => c ≠ '\n' && c ≠ ';' && c ≠ ' ' && c ≠ '\x7d'

def readEdit (isExtended : Bool) : Reading Edit := do
  let c :: _ ← rest | failure
  skip 1
  match c with
  | '{' => return .opening
  | '\x7d' => return .closing
  | 's' => readSubstitution isExtended
  | 'y' =>
    let mark :: _ ← rest | failure
    skip 1
    let source ← readMarked mark true ((← rest).length + 1)
    let target ← readMarked mark true ((← rest).length + 1)
    if source.length = target.length then return .exchange source target else failure
  | 'p' => return .show
  | 'P' => return .showFirst
  | 'd' => return .delete
  | 'D' => return .deleteFirst
  | 'n' => return .next
  | 'N' => return .join
  | '=' => return .number
  | 'q' | 'Q' =>
    let _ ← takeWhile isBlankChar
    return .quit (c = 'q') ((decimal? (← takeWhile Char.isDigit)).getD 0)
  | 'a' => return .append (← readLines)
  | 'i' => return .insert (← readLines)
  | 'c' => return .change (← readLines)
  | 'h' => return .hold false
  | 'H' => return .hold true
  | 'g' => return .fetch false
  | 'G' => return .fetch true
  | 'x' => return .swap
  | ':' => return .label (← readLabel)
  | 'b' => return .jump false (← readLabel)
  | 't' => return .jump true (← readLabel)
  | _ => failure

def readAll (isExtended : Bool) : Nat → Reading (List RangedEdit)
  | 0 => failure
  | rounds + 1 => do
    let _ ← takeWhile fun c => isBlankChar c || c = '\n' || c = ';'
    match ← rest with
    | [] => return []
    | '#' :: _ =>
      let _ ← takeWhile (· ≠ '\n')
      readAll isExtended rounds
    | _ =>
      let range ← readRange isExtended
      let edit ← readEdit isExtended
      let _ ← takeWhile isBlankChar
      let isOpen := match edit with
        | .opening | .closing => true
        | _ => false
      match ← rest with
      | [] => return [⟨range, edit⟩]
      | c :: _ =>
        if isOpen || c = '\n' || c = ';' || c = '\x7d' || c = '#' then
          return ⟨range, edit⟩ :: (← readAll isExtended rounds)
        else failure

/-- How deep the blocks of a script are after it, if none is closed that is not open. -/
def depth? : Nat → List RangedEdit → Option Nat
  | depth, [] => some depth
  | depth, ⟨_, .opening⟩ :: rest => depth? (depth + 1) rest
  | 0, ⟨_, .closing⟩ :: _ => none
  | depth + 1, ⟨_, .closing⟩ :: rest => depth? depth rest
  | depth, _ :: rest => depth? depth rest

def listOfText? (isExtended : Bool) (text : List Char) : Option (List RangedEdit) := do
  let (edits, _) ← (readAll isExtended (text.length + 2)).run text
  if depth? 0 edits = some 0 then return edits else none

def afterBlock : Nat → List RangedEdit → List RangedEdit
  | _, [] => []
  | depth, ⟨_, .opening⟩ :: rest => afterBlock (depth + 1) rest
  | 0, ⟨_, .closing⟩ :: rest => rest
  | depth + 1, ⟨_, .closing⟩ :: rest => afterBlock depth rest
  | depth, _ :: rest => afterBlock depth rest

/-- The edits after a label; without one, none. -/
def afterLabel (name : List Char) : List RangedEdit → List RangedEdit
  | [] => []
  | ⟨_, .label other⟩ :: rest => if name = other then rest else afterLabel name rest
  | _ :: rest => afterLabel name rest

end RangedEdit

/-- The work of an editor: the line that is edited, the one that is held, and what is left. What has
been written stands last first; only the last line of a text may have no end. A range that has begun
is known by the number of edits after it, with its last line if that is known. -/
structure Editor where
  lines : List (List Char)
  current : List Char
  held : List Char
  number : Nat
  isEnded : Bool
  written : List (List Char)
  added : List (List Char)
  begun : List (Nat × Option Nat)
  isChanged : Bool
  lastRegex : Option Regex
  status : Nat

namespace Editor

def isLast (editor : Editor) : Bool := editor.lines.isEmpty

/-- Writes after all that has been written, which is ended first. -/
def addText (editor : Editor) (text : List Char) : Editor :=
  let isOpen := editor.written.head?.any fun last => last.getLast? ≠ some '\n'
  { editor with written := (if isOpen then '\n' :: text else text) :: editor.written }

def addLine (editor : Editor) (line : List Char) : Editor := editor.addText (line ++ ['\n'])

/-- Writes a line that ends as the line of the text does. -/
def write (editor : Editor) (line : List Char) : Editor :=
  if editor.isLast && !editor.isEnded then editor.addText line else editor.addLine line

/-- What is added after a line is written once the line is done with. -/
def flush (editor : Editor) : Editor :=
  { editor.added.foldr (fun line editor => editor.addLine line) editor with added := [] }

def suits (editor : Editor) : LineAddress → Bool × Editor
  | .line number => (editor.number = number, editor)
  | .final => (editor.isLast, editor)
  | .every first step =>
    (if step = 0 then editor.number = first
      else first ≤ editor.number && (editor.number - first) % step = 0, editor)
  | .like regex ignoresCase => match regex.orElse fun _ => editor.lastRegex with
    | some regex =>
      ((regex.search? ignoresCase (.ofText editor.current)).isSome,
        { editor with lastRegex := some regex })
    | none => (false, editor)
  | .after _ => (false, editor)

/-- Begins a range, unless its first line is its last one too. -/
def begin (editor : Editor) (place : Nat) (last : LineAddress) : Editor :=
  let goOn (limit : Option Nat) : Editor :=
    { editor with begun := (place, limit) :: editor.begun }
  match last with
  | .line number => if number ≤ editor.number then editor else goOn (some number)
  | .after count => if count = 0 then editor else goOn (some (editor.number + count))
  | .final => if editor.isLast then editor else goOn none
  | _ => goOn none

def ends (editor : Editor) (limit : Option Nat) (last : LineAddress) : Bool × Editor :=
  match limit with
  | some limit => (limit ≤ editor.number, editor)
  | none => editor.suits last

/-- Whether an edit is for the line. The edit is known by the number of those after it. -/
def takes (editor : Editor) (place : Nat) (range : LineRange) : Bool × Editor :=
  let (isTaken, editor) := match range.first, range.last with
    | none, _ => (true, editor)
    | some first, none => editor.suits first
    | some first, some last =>
      match editor.begun.find? (·.1 = place) with
      | some (_, limit) =>
        let (isOver, editor) := editor.ends limit last
        let isBeyond := limit.any (· < editor.number)
        let editor := if isOver then
            { editor with begun := editor.begun.filter (·.1 ≠ place) }
          else editor
        if isBeyond then
          let (isFirst, editor) := editor.suits first
          (isFirst, editor)
        else (true, editor)
      | none => match first, last with
        | .line 0, last =>
          if editor.number = 1 then
            let (isOver, editor) := editor.suits last
            (true, if isOver then editor else editor.begin place last)
          else (false, editor)
        | first, last =>
          let (isFirst, editor) := editor.suits first
          (isFirst, if isFirst then editor.begin place last else editor)
  (isTaken != range.isNegated, editor)

def replaced (found : Regex.Match) (whole : List Char) : List Replacement → List Char
  | [] => []
  | .char c :: rest => c :: replaced found whole rest
  | .group number :: rest =>
    (if number = 0 then whole else ((found.groups.find? (·.1 = number)).map (·.2)).getD []) ++
      replaced found whole rest

/-- A line with matches replaced from a place on, and whether any is. A match of nothing directly
after another match does not count. -/
def replaceFrom (regex : Regex) (substitution : Substitution) :
    Nat → Nat → Option Nat → Regex.Spot → List Char × Bool
  | 0, _, _, spot => (spot.rest, false)
  | rounds + 1, position, lastEnd, spot =>
    match regex.search? substitution.ignoresCase spot with
    | none => (spot.rest, false)
    | some found =>
      let before := spot.rest.take (found.start - spot.index)
      let start := spot.skip before.length
      let whole := start.rest.take found.length
      let after := start.skip found.length
      if found.length = 0 && lastEnd = some found.start then
        match start.rest with
        | [] => (before, false)
        | c :: _ =>
          let (text, isChanged) :=
            replaceFrom regex substitution rounds position none start.next
          (before ++ c :: text, isChanged)
      else if position < substitution.position then
        let (text, isChanged) :=
          replaceFrom regex substitution rounds (position + 1) (some after.index) after
        (before ++ whole ++ text, isChanged)
      else
        let new := replaced found whole substitution.replacement
        if substitution.isGlobal then
          let (text, _) :=
            replaceFrom regex substitution rounds (position + 1) (some after.index) after
          (before ++ new ++ text, true)
        else (before ++ new ++ after.rest, true)

def substitute (editor : Editor) (substitution : Substitution) : Editor :=
  match substitution.regex.orElse fun _ => editor.lastRegex with
  | none => editor
  | some regex =>
    let (text, isChanged) := replaceFrom regex substitution (2 * editor.current.length + 3) 1 none
      (.ofText editor.current)
    let editor := { editor with
      current := text, isChanged := editor.isChanged || isChanged, lastRegex := some regex }
    if isChanged && substitution.isShown then editor.write text else editor

/-- How the edits of a line end: the next line is taken, or there is no more to do, or the edits
begin again on what is left of the line. -/
inductive Turn where
  | done | quit | again

def advance? (editor : Editor) : Option Editor :=
  match editor.lines with
  | [] => none
  | line :: lines =>
    some { editor.flush with current := line, lines, number := editor.number + 1 }

/-- Applies the edits of a script, of which `all` are all, to a line. -/
def apply (isQuiet : Bool) (all : List RangedEdit) : Nat → List RangedEdit → Editor →
    Turn × Editor
  | 0, _, editor => (.quit, editor)
  | rounds + 1, edits, editor => match edits with
    | [] => (.done, if isQuiet then editor else editor.write editor.current)
    | ⟨range, edit⟩ :: rest =>
      let (isTaken, editor) := editor.takes rest.length range
      let go (editor : Editor) : Turn × Editor := apply isQuiet all rounds rest editor
      let shown (editor : Editor) : Editor :=
        if isQuiet then editor else editor.write editor.current
      if !isTaken then
        match edit with
        | .opening => apply isQuiet all rounds (RangedEdit.afterBlock 0 rest) editor
        | _ => go editor
      else match edit with
        | .substitute substitution => go (editor.substitute substitution)
        | .show => go (editor.write editor.current)
        | .showFirst => go (editor.write (editor.current.takeWhile (· ≠ '\n')))
        | .delete => (.done, editor)
        | .deleteFirst =>
          if editor.current.contains '\n' then
            (.again, { editor with current := (editor.current.dropWhile (· ≠ '\n')).drop 1 })
          else (.done, editor)
        | .next => match (shown editor).advance? with
          | some editor => go editor
          | none => (.quit, shown editor)
        | .join =>
          let old := editor.current
          match editor.advance? with
          | some editor => go { editor with current := old ++ '\n' :: editor.current }
          | none => (.quit, shown editor)
        | .number => go (editor.addLine (Nat.toDigits 10 editor.number))
        | .quit isShown status =>
          let editor := { editor with status }
          (.quit, if isShown then shown editor else editor)
        | .exchange source target =>
          go { editor with current := editor.current.map (partner source target) }
        | .append text => go { editor with added := text :: editor.added }
        | .insert text => go (editor.addLine text)
        | .change text =>
          let isInside := editor.begun.any (·.1 = rest.length) && !range.isNegated
          (.done, if isInside then editor else editor.addLine text)
        | .hold isMore => go { editor with
            held := if isMore then editor.held ++ '\n' :: editor.current else editor.current }
        | .fetch isMore => go { editor with
            current := if isMore then editor.current ++ '\n' :: editor.held else editor.held }
        | .swap => go { editor with current := editor.held, held := editor.current }
        | .label _ | .opening | .closing => go editor
        | .jump isIfChanged name =>
          if isIfChanged && !editor.isChanged then go editor
          else
            let editor := if isIfChanged then { editor with isChanged := false } else editor
            apply isQuiet all rounds
              (if name.isEmpty then [] else RangedEdit.afterLabel name all) editor

def run (isQuiet : Bool) (edits : List RangedEdit) : Nat → Editor → Editor
  | 0, editor => editor
  | rounds + 1, editor =>
    match apply isQuiet edits rounds edits { editor with isChanged := false } with
    | (.quit, editor) => editor.flush
    | (.again, editor) => run isQuiet edits rounds editor.flush
    | (.done, editor) => match editor.flush.advance? with
      | some editor => run isQuiet edits rounds editor
      | none => editor.flush

end Editor

open Work

def edited (isQuiet : Bool) (edits : List RangedEdit) (text : List Char) : List Char × Nat :=
  match linesOf text with
  | [] => ([], 0)
  | line :: lines =>
    let editor := Editor.run isQuiet edits (200 * (text.length + 10) * (edits.length + 1))
      ⟨lines, line, [], 1, text.getLast? = some '\n', [], [], [], false, none, 0⟩
    (editor.written.reverse.flatten, editor.status)

def edit (arguments : List String) : Work Nat := do
  let options := Options.ofArguments ['e', 'f']
    [("quiet", 'n'), ("silent", 'n'), ("expression", 'e'), ("regexp-extended", 'E'),
      ("in-place", 'i'), ("file", 'f')] arguments
  let given := options.values 'e'
  let file ← match options.value? 'f' with
    | some name => do
      match ← read name with
      | .ok text => pure [String.ofList text]
      | .error cause =>
        complainOf "sed" ["couldn't open file ".toList, name.toList, [':', ' '], reasonOf cause]
        return 1
    | none => pure []
  let scripts := given ++ file
  let (scripts, names) := if scripts.isEmpty then options.operands.splitAt 1
    else (scripts, options.operands)
  if scripts.isEmpty then
    complain "Usage: sed [OPTION]... \x7bscript-only-if-no-other-script\x7d [input-file]...".toList
    return 1
  let isExtended := options.has 'E' || options.has 'r'
  let script := ['\n'].intercalate (scripts.map String.toList)
  let isQuiet := options.has 'n' || "#n\n".toList.isPrefixOf script
  match RangedEdit.listOfText? isExtended script with
  | none =>
    complainOf "sed" ["-e expression #1, char ".toList, Nat.toDigits 10 script.length,
      ": unknown command".toList]
    return 1
  | some edits =>
    if options.has 'i' then
      forAll (fun name => do
        match ← read name with
        | .ok text =>
          let (text, status) := edited isQuiet edits text
          let _ ← write name text
          return status
        | .error cause =>
          complainOf "sed" ["can't read ".toList, name.toList, [':', ' '], reasonOf cause]
          return 2) names
    else
      let mut texts := []
      let mut status := 0
      for name in orInput names do
        match ← read name with
        | .ok text => texts := text :: texts
        | .error .isADirectory =>
          complainOf "sed" ["couldn't edit ".toList, name.toList, ": not a regular file".toList]
          status := 2
        | .error cause =>
          complainOf "sed" ["can't read ".toList, name.toList, [':', ' '], reasonOf cause]
          status := 2
      let (text, wanted) := edited isQuiet edits texts.reverse.flatten
      say text
      return if wanted ≠ 0 then wanted else status

end FuzzBridge.Program.Utility
