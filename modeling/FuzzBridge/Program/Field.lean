import FuzzBridge.Program.Session

/-!
Fields: what the words of a command become. The characters of a word know where they come from;
separators in what was not quoted part the word, and patterns become the names of files.
-/

namespace FuzzBridge.Program

inductive Origin where
  | literal | quoted | value
  deriving DecidableEq

/-- A piece of an expanded word; `present` keeps a word that has no characters, and `gap` parts
words. -/
inductive Bit where
  | char (origin : Origin) (c : Char)
  | present
  | gap

namespace Bit

def ofText (isQuoted : Bool) (text : List Char) : List Bit :=
  if isQuoted then .present :: text.map (.char .quoted) else text.map (.char .value)

def ofLiteral (isQuoted : Bool) (text : List Char) : List Bit :=
  if isQuoted then .present :: text.map (.char .quoted) else text.map (.char .literal)

def asValue : Bit → Bit
  | .char .literal c => .char .value c
  | bit => bit

def marked : List Bit → List Marked
  | [] => []
  | .char origin c :: rest => (origin = .quoted, c) :: marked rest
  | .present :: rest => marked rest
  | .gap :: rest => (true, ' ') :: marked rest

def text (bits : List Bit) : List Char := (marked bits).map (·.2)

end Bit

def separators (session : Session) : List Char :=
  match session.binding? "IFS" with
  | some value => value.toList
  | none => [' ', '\t', '\n']

def isSoft (c : Char) : Bool := c = ' ' || c = '\t' || c = '\n'

/-- Words from the pieces of one. Blanks among the separators do not make empty words, and one other
separator between blanks is parted by them. -/
def splitBits (separators : List Char) : Option (List Marked) → Bool → List Bit →
    List (List Marked)
  | current, _, [] => (current.map List.reverse).toList
  | current, _, .gap :: rest =>
    (current.map List.reverse).toList ++ splitBits separators none false rest
  | current, isBlankBefore, .present :: rest =>
    splitBits separators (some (current.getD [])) isBlankBefore rest
  | current, isBlankBefore, .char origin c :: rest =>
    if origin = .value && separators.contains c then
      match current, isSoft c with
      | some word, isSoft => word.reverse :: splitBits separators none isSoft rest
      | none, true => splitBits separators none isBlankBefore rest
      | none, false =>
        if isBlankBefore then splitBits separators none false rest
        else [] :: splitBits separators none false rest
    else splitBits separators (some ((origin = .quoted, c) :: current.getD [])) false rest

/-- The names in a folder that a pattern stands for. A dot at the start is to be written out. -/
def namesFor (desk : Desk) (folder : String) (pattern : List Marked) : List String :=
  let showsHidden := (pattern.head?.map (·.2)) = some '.'
  ((Utility.namesIn desk (if folder = "" then "." else folder)).map (·.1)).filter fun name =>
    (Pattern.ofText pattern).suits name.toList && (showsHidden || !Utility.isHidden name)

def pathsFor (desk : Desk) : String → List (List Marked) → List String
  | _, [] => []
  | before, [piece] =>
    if Pattern.isNeeded piece then (namesFor desk before piece).map (before ++ ·)
    else
      let path := before ++ String.ofList (piece.map (·.2))
      if desk.occupied path then [path] else []
  | before, piece :: rest =>
    if Pattern.isNeeded piece then
      (namesFor desk before piece).flatMap fun name => pathsFor desk (before ++ name ++ "/") rest
    else pathsFor desk (before ++ String.ofList (piece.map (·.2)) ++ "/") rest

/-- The files that a word stands for, or the word itself if there are none. -/
def filesFor (session : Session) (word : List Marked) : List String :=
  let text := String.ofList (word.map (·.2))
  if session.process.settings.keepsPatterns || !Pattern.isNeeded word then [text]
  else
    let paths := pathsFor session.desk "" (word.splitOnP (·.2 = '/'))
    if paths.isEmpty then [text] else paths.mergeSort fun left right => left ≤ right

def fieldsOf (session : Session) (bits : List Bit) : List String :=
  (splitBits (separators session) none false bits).flatMap (filesFor session)

namespace Session

def flags (session : Session) : List Char :=
  let settings := session.process.settings
  [(settings.endsOnFailure, 'e'), (settings.refusesUnset, 'u'), (settings.keepsPatterns, 'f'),
    (settings.isTraced, 'x')].filterMap fun (isSet, letter) => if isSet then some letter else none

def value? (session : Session) (name : String) : Option (List Char) :=
  let process := session.process
  match name with
  | "?" => some (Nat.toDigits 10 session.status)
  | "$" => some (Nat.toDigits 10 process.number)
  | "#" => some (Nat.toDigits 10 process.arguments.length)
  | "0" => some process.name.toList
  | "-" => some session.flags
  | "!" => process.jobs.getLast?.map fun job => Nat.toDigits 10 job.number
  | "@" =>
    if process.arguments.isEmpty then none else some (" ".intercalate process.arguments).toList
  | "*" =>
    if process.arguments.isEmpty then none
    else some (((separators session).take 1).intercalate (process.arguments.map String.toList))
  | name => match decimal? name.toList with
    | some number => (process.arguments[number - 1]?).map String.toList
    | none => (session.binding? name).map String.toList

/-- Several arguments stay apart. -/
def bitsOf (session : Session) (isQuoted : Bool) (name : String) (value : List Char) : List Bit :=
  if name = "@" || (name = "*" && !isQuoted) then
    [Bit.gap].intercalate (session.process.arguments.map fun argument =>
      Bit.ofText isQuoted argument.toList)
  else Bit.ofText isQuoted value

end Session

/-- Line ends at the end of a command's output are not part of its text. -/
def outputText (text : List Char) : List Char :=
  (text.filter (· ≠ Char.ofNat 0)).reverse.dropWhile (· = '\n') |>.reverse

/-- Words of a line of input; the last one has the rest of the line. Characters that a backslash
protects do not part words. -/
def readFields (separators : List Char) (line : List Marked) : Nat → List (List Char)
  | 0 => []
  | count + 1 =>
    let isSeparator (mark : Marked) : Bool := !mark.1 && separators.contains mark.2
    let isBlank (mark : Marked) : Bool := isSeparator mark && isSoft mark.2
    let line := line.dropWhile isBlank
    if count = 0 then
      let trimmed := (line.reverse.dropWhile isBlank).reverse
      let isOne := match trimmed.reverse with
        | mark :: before => isSeparator mark && !before.any isSeparator
        | [] => false
      [(if isOne then trimmed.dropLast else trimmed).map (·.2)]
    else
      let word := line.takeWhile (!isSeparator ·)
      let after := match (line.drop word.length).dropWhile isBlank with
        | mark :: rest => if isSeparator mark then rest else mark :: rest
        | [] => []
      word.map (·.2) :: readFields separators after count

end FuzzBridge.Program
