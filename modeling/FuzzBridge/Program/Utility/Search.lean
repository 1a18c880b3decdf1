import FuzzBridge.Program.Regex
import FuzzBridge.Program.Utility.Lines

/-!
The program that looks for lines, and the one that works out expressions.
-/

namespace FuzzBridge.Program.Utility

open Work

structure Search where
  regex : Regex
  ignoresCase : Bool
  ofWords : Bool
  ofLines : Bool
  isInverted : Bool

namespace Search

/-- A match may have to be a whole line, or to have no part of a word next to it. -/
def accepts (search : Search) (start after : Regex.Spot) : Bool :=
  if search.ofLines then start.before.isNone && after.rest.isEmpty
  else !search.ofWords ||
    (!start.before.any Regex.isWordChar && !after.rest.head?.any Regex.isWordChar)

def find? (search : Search) (spot : Regex.Spot) : Option Regex.Match :=
  search.regex.find? search.ignoresCase search.accepts (spot.rest.length + 1) spot

def selects (search : Search) (line : List Char) : Bool :=
  (search.find? (.ofText line)).isSome != search.isInverted

def matchesIn (search : Search) : Nat → Regex.Spot → List (List Char)
  | 0, _ => []
  | rounds + 1, spot => match search.find? spot with
    | none => []
    | some found =>
      let start := spot.skip (found.start - spot.index)
      if found.length = 0 then
        if start.rest.isEmpty then [] else search.matchesIn rounds start.next
      else start.rest.take found.length :: search.matchesIn rounds (start.skip found.length)

def ofOptions? (isExtended : Bool) (options : Options) (patterns : List String) :
    Option Search := do
  let lines := patterns.flatMap fun text => text.toList.splitOnP (· = '\n')
  let choices ← lines.mapM fun line =>
    if options.has 'F' then some (Regex.ofPlain line)
    else Regex.ofText? (isExtended || options.has 'E' || options.has 'P') line
  let regex := match choices with
    | [] => Regex.empty
    | choice :: rest => rest.foldl Regex.either choice
  return ⟨regex, options.has 'i' || options.has 'y', options.has 'w', options.has 'x',
    options.has 'v'⟩

end Search

def searchText (search : Search) (options : Options) (title : Option String) (text : List Char) :
    Work Bool := do
  let limit := ((options.value? 'm').bind fun text => decimal? text.toList).getD text.length.succ
  let selected := ((linesOf text).zipIdx.filter fun entry => search.selects entry.1).take limit
  let heading := (title.map fun title => title.toList ++ [':']).getD []
  let named := (title.getD "(standard input)").toList
  if options.has 'q' then pure ()
  else if options.has 'l' then
    if !selected.isEmpty then sayLine named
  else if options.has 'L' then
    if selected.isEmpty then sayLine named
  else if options.has 'c' then sayLine (heading ++ Nat.toDigits 10 selected.length)
  else if text.contains (Char.ofNat 0) && !options.has 'a' then
    if !selected.isEmpty then sayLine ("grep: ".toList ++ named ++ ": binary file matches".toList)
  else
    for (line, position) in selected do
      let number := if options.has 'n' then Nat.toDigits 10 (position + 1) ++ [':'] else []
      if options.has 'o' then
        if !search.isInverted then
          for part in search.matchesIn (line.length + 1) (.ofText line) do
            sayLine (heading ++ number ++ part)
      else sayLine (heading ++ number ++ line)
  return !selected.isEmpty

def filesBelow (isDeep : Bool) (name : String) : Work (List String) := do
  let desk ← get
  if isDeep && desk.isFolder name then
    return ((walk desk (desk.storage.nodes.size + 1) name).filter (!·.2)).map (·.1)
  else return [name]

def titleOf (hasTitles needsTitle : Bool) (name : String) : Option String :=
  if hasTitles || needsTitle then some (if name = "-" then "(standard input)" else name) else none

/-- Looks for lines. The status tells whether there are any: 0, or 1 if not; 2 is for mistakes. -/
def search (isExtended isPlain : Bool) (arguments : List String) : Work Nat := do
  let options := Options.ofArguments ['e', 'f', 'm', 'A', 'B', 'C']
    [("quiet", 'q'), ("silent", 'q'), ("invert-match", 'v'), ("ignore-case", 'i'), ("count", 'c'),
      ("line-number", 'n'), ("files-with-matches", 'l'), ("only-matching", 'o'),
      ("word-regexp", 'w'), ("line-regexp", 'x'), ("fixed-strings", 'F'),
      ("extended-regexp", 'E'), ("regexp", 'e'), ("no-messages", 's'), ("max-count", 'm'),
      ("no-filename", 'h'), ("with-filename", 'H'), ("recursive", 'r'), ("text", 'a')] arguments
  let options := if isPlain then options.addFlag ('F', "") else options
  let given := options.values 'e'
  let (patterns, operands) := if given.isEmpty then options.operands.splitAt 1
    else (given, options.operands)
  if patterns.isEmpty then
    complain "Usage: grep [OPTION]... PATTERNS [FILE]...".toList
    complain "Try 'grep --help' for more information.".toList
    return 2
  let some search := Search.ofOptions? isExtended options patterns
    | do
      complainOf "grep" ["Invalid regular expression".toList]
      return 2
  let isDeep := options.has 'r' || options.has 'R'
  let starts := if operands.isEmpty then [if isDeep then "." else "-"] else operands
  let names := (← starts.mapM (filesBelow isDeep)).flatten
  let hasTitles := options.has 'H' || ((1 < operands.length || isDeep) && !options.has 'h')
  let mut isFound := false
  let mut isWrong := false
  for name in names do
    match ← read name with
    | .ok text =>
      let title := titleOf hasTitles ((options.has 'l' || options.has 'L') && name ≠ "-") name
      if ← searchText search options title text then isFound := true
    | .error cause =>
      if !options.has 's' then complainOf "grep" [name.toList, [':', ' '], reasonOf cause]
      isWrong := true
  return if isFound && (options.has 'q' || !isWrong) then 0 else if isWrong then 2 else 1

inductive ExprFlaw where
  | wrong
  | notNumber
  | division
  | pattern

def ExprFlaw.message : ExprFlaw → String
  | .wrong => "syntax error"
  | .notNumber => "non-integer argument"
  | .division => "division by zero"
  | .pattern => "Invalid regular expression"

def exprLevels : List (List String) :=
  [["|"], ["&"], ["<", "<=", "=", "==", "!=", ">=", ">"], ["+", "-"], ["*", "/", "%"], [":"]]

def isNothing (text : List Char) : Bool :=
  text.isEmpty || (match integer? text with
    | some value => value = 0
    | none => false)

def ofVerdict (verdict : Bool) : List Char := if verdict then ['1'] else ['0']

/-- What a pattern takes of the start of a text: its first group, or its length. -/
def matched (text pattern : List Char) : Except ExprFlaw (List Char) :=
  match Regex.ofText? false pattern with
  | none => .error .pattern
  | some regex =>
    let found := regex.find? false (fun start _ => start.before.isNone) 1 (.ofText text)
    let hasGroup := Pattern.anyTail "\\(".toList.isPrefixOf pattern
    .ok (match found with
      | some found =>
        if hasGroup then ((found.groups.find? (·.1 = 1)).map (·.2)).getD []
        else Nat.toDigits 10 found.length
      | none => if hasGroup then [] else ['0'])

def exprValue (operator : String) (left right : List Char) : Except ExprFlaw (List Char) :=
  let numbers : Option (Int × Int) := do return (← integer? left, ← integer? right)
  let order := match numbers with
    | some (first, second) => compare first second
    | none => compareTexts left right
  let calculate (operation : Int → Int → Except ExprFlaw Int) : Except ExprFlaw (List Char) :=
    match numbers with
    | some (first, second) => (operation first second).map fun value => (toString value).toList
    | none => .error .notNumber
  match operator with
  | "|" => .ok (if !isNothing left then left else if !isNothing right then right else ['0'])
  | "&" => .ok (if isNothing left || isNothing right then ['0'] else left)
  | "<" => .ok (ofVerdict order.isLT)
  | "<=" => .ok (ofVerdict order.isLE)
  | "=" | "==" => .ok (ofVerdict order.isEq)
  | "!=" => .ok (ofVerdict !order.isEq)
  | ">=" => .ok (ofVerdict order.isGE)
  | ">" => .ok (ofVerdict order.isGT)
  | "+" => calculate fun first second => .ok (first + second)
  | "-" => calculate fun first second => .ok (first - second)
  | "*" => calculate fun first second => .ok (first * second)
  | "/" => calculate fun first second =>
    if second = 0 then .error .division else .ok (first.tdiv second)
  | "%" => calculate fun first second =>
    if second = 0 then .error .division else .ok (first.tmod second)
  | ":" => matched left right
  | _ => .error .wrong

mutual

def readExpr (levels : List (List String)) : Nat → List String →
    Except ExprFlaw (List Char × List String)
  | 0, _ => .error .wrong
  | rounds + 1, words => match levels with
    | [] => readOperand rounds words
    | level :: higher => do
      let (left, rest) ← readExpr higher rounds words
      continueExpr level higher left rounds rest
termination_by structural rounds => rounds

def continueExpr (level : List String) (higher : List (List String)) (left : List Char) :
    Nat → List String → Except ExprFlaw (List Char × List String)
  | 0, _ => .error .wrong
  | rounds + 1, words => match words with
    | operator :: rest =>
      if level.contains operator then do
        let (right, rest) ← readExpr higher rounds rest
        continueExpr level higher (← exprValue operator left right) rounds rest
      else .ok (left, operator :: rest)
    | [] => .ok (left, [])
termination_by structural rounds => rounds

def readOperand : Nat → List String → Except ExprFlaw (List Char × List String)
  | 0, _ => .error .wrong
  | rounds + 1, words => match words with
    | "(" :: rest => do
      let (value, rest) ← readExpr exprLevels rounds rest
      match rest with
      | ")" :: rest => return (value, rest)
      | _ => .error .wrong
    | "length" :: text :: rest => .ok (Nat.toDigits 10 text.length, rest)
    | "substr" :: text :: start :: length :: rest =>
      match decimal? start.toList, decimal? length.toList with
      | some start, some length =>
        .ok (if start = 0 then [] else (text.toList.drop (start - 1)).take length, rest)
      | _, _ => .ok ([], rest)
    | "index" :: text :: chars :: rest =>
      let position := (text.toList.findIdx? chars.toList.contains).map (· + 1)
      .ok (Nat.toDigits 10 (position.getD 0), rest)
    | "match" :: text :: pattern :: rest => do return (← matched text.toList pattern.toList, rest)
    | "+" :: text :: rest => .ok (text.toList, rest)
    | text :: rest => .ok (text.toList, rest)
    | [] => .error .wrong
termination_by structural rounds => rounds

end

def expression (arguments : List String) : Work Nat := do
  if arguments.isEmpty then
    complainOf "expr" ["missing operand".toList]
    complain "Try 'expr --help' for more information.".toList
    return 2
  let words := if arguments.head? = some "--" then arguments.drop 1 else arguments
  match readExpr exprLevels (20 * (words.length + 1)) words with
  | .ok (value, []) =>
    sayLine value
    return if isNothing value then 1 else 0
  | .ok (_, word :: _) =>
    complainOf "expr" [(encoded "syntax error: unexpected argument ‘").toList, word.toList,
      (encoded "’").toList]
    return 2
  | .error flaw =>
    complainOf "expr" [flaw.message.toList]
    return 2

end FuzzBridge.Program.Utility
