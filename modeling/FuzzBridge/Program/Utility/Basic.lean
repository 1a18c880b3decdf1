import FuzzBridge.Program.Utility.Edit
import FuzzBridge.Program.Utility.Search
import FuzzBridge.Program.Utility.Test

/-!
The programs that every machine has, by their names.
-/

namespace FuzzBridge.Program.Utility

open Work

def spanOf? (text : List Char) : Option Nat :=
  if text = "infinity".toList || text = "inf".toList then some (Nat.pow 10 30)
  else do
  let (digits, unit) := match text.getLast? with
    | some 's' => (text.dropLast, 1)
    | some 'm' => (text.dropLast, 60)
    | some 'h' => (text.dropLast, 3600)
    | some 'd' => (text.dropLast, 86400)
    | _ => (text, 1)
  let whole := digits.takeWhile (· ≠ '.')
  let fraction := (digits.dropWhile (· ≠ '.')).drop 1
  let value ← decimal? (whole ++ fraction)
  return value * unit * 1000000000 / Nat.pow 10 fraction.length

def sleep (arguments : List String) : Work Nat := do
  let wrong := arguments.filter fun argument => (spanOf? argument.toList).isNone
  if arguments.isEmpty then
    complainOf "sleep" ["missing operand".toList]
    adviseHelp "sleep"
  else if !wrong.isEmpty then
    for argument in wrong do
      complainOf "sleep" [(encoded "invalid time interval ‘").toList, argument.toList,
        (encoded "’").toList]
    adviseHelp "sleep"
  else
    let spans := arguments.filterMap fun argument => spanOf? argument.toList
    modify fun desk => { desk with delay := desk.delay + spans.foldl (· + ·) 0 }
    return 0

def leadingOptions (meant : List Char) : List String → List Char × List String
  | [] => ([], [])
  | argument :: rest => match argument.toList with
    | '-' :: c :: letters =>
      if (c :: letters).all meant.contains then
        let (options, rest) := leadingOptions meant rest
        ((c :: letters) ++ options, rest)
      else ([], argument :: rest)
    | _ => ([], argument :: rest)

def joined (words : List String) : List Char := (" ".intercalate words).toList

/-- Says the words. Only some options make escapes of them. -/
def echo (arguments : List String) : Work Nat := do
  let (options, words) := leadingOptions ['n', 'e', 'E'] arguments
  let ending := if options.contains 'n' then [] else ['\n']
  let escapes := (options.filter (· ≠ 'n')).getLast? = some 'e'
  let text := joined words
  if escapes then
    let (text, isStopped) := unescape text.length text
    say (if isStopped then text else text ++ ending)
  else say (text ++ ending)
  return 0

def formatted : List String → Option (List Char × List FormatFlaw)
  | "--" :: text :: arguments | text :: arguments =>
    some (format text.toList arguments.length (arguments.map String.toList))
  | [] => none

def printFormatted (arguments : List String) : Work Nat := do
  match formatted arguments with
  | none =>
    complainOf "printf" ["missing operand".toList]
    adviseHelp "printf"
  | some (text, flaws) =>
    say text
    for flaw in flaws do complainOf "printf" [flaw.message]
    return if flaws.isEmpty then 0 else 1

def test (arguments : List String) : Work Nat := do
  match Test.judge (← get) arguments with
  | .ok verdict => return if verdict then 0 else 1
  | .error flaw =>
    complainOf "test" [flaw.message.toList]
    return 2

def bracket (arguments : List String) : Work Nat :=
  if arguments.getLast? = some "]" then test arguments.dropLast
  else do
    complainOf "[" [(encoded "missing ‘]’").toList]
    return 2

def named? : String → Option (List String → Work Nat)
  | "true" => some fun _ => return 0
  | "false" => some fun _ => return 1
  | "echo" => some echo
  | "printf" => some printFormatted
  | "test" => some test
  | "[" => some bracket
  | "sleep" => some sleep
  | "cat" => some cat
  | "head" => some head
  | "tail" => some tail
  | "wc" => some count
  | "sort" => some sort
  | "uniq" => some unique
  | "cut" => some cutColumns
  | "tr" => some exchange
  | "rev" => some reverseLines
  | "tac" => some lastFirst
  | "nl" => some number
  | "paste" => some paste
  | "fold" => some fold
  | "seq" => some sequence
  | "tee" => some tee
  | "cmp" => some compareFiles
  | "base64" => some base64
  | "grep" => some (search false false)
  | "egrep" => some (search true false)
  | "fgrep" => some (search false true)
  | "expr" => some expression
  | "sed" => some edit
  | "cp" => some copy
  | "mv" => some move
  | "rm" => some remove
  | "mkdir" => some makeAll
  | "rmdir" => some removeFolders
  | "touch" => some touch
  | "chmod" => some changeMode
  | "ls" => some list
  | "find" => some find
  | "basename" => some sayBaseName
  | "dirname" => some sayFolderName
  | _ => none

end FuzzBridge.Program.Utility
