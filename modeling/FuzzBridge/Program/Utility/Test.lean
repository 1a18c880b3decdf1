import FuzzBridge.Program.Escape
import FuzzBridge.Program.Desk

/-!
Tests of texts, numbers and files. The words of a test are read from left to right; whether a word
is an operator or an operand depends on those after it.
-/

namespace FuzzBridge.Program.Test

inductive Flaw where
  | unexpected (word : String)
  | incomplete (operator : String)
  | unclosed
  | notNumber (text : String)

def Flaw.message : Flaw → String
  | .unexpected word => word ++ ": unexpected operator"
  | .incomplete operator => operator ++ ": argument expected"
  | .unclosed => "closing paren expected"
  | .notNumber text => "Illegal number: " ++ text

inductive Operator where
  | unary | binary | both | either | negation | opening | closing
  deriving DecidableEq

def unaryNames : List String :=
  ["-r", "-w", "-x", "-e", "-f", "-d", "-c", "-b", "-p", "-u", "-g", "-k", "-s", "-t", "-z", "-n",
    "-h", "-O", "-G", "-L", "-S"]

def binaryNames : List String :=
  ["=", "!=", "<", ">", "-eq", "-ne", "-ge", "-gt", "-le", "-lt", "-nt", "-ot", "-ef"]

def named? (word : String) : Option Operator :=
  if unaryNames.contains word then some .unary
  else if binaryNames.contains word then some .binary
  else match word with
    | "!" => some .negation
    | "-a" => some .both
    | "-o" => some .either
    | "(" => some .opening
    | ")" => some .closing
    | _ => none

/-- The operator that the first word is. One for a single operand is an operand itself before a
binary one, and so is every operator for want of an operand. -/
def operator? : List String → Option Operator
  | [] => none
  | word :: rest => match named? word with
    | some .unary =>
      let isOperand : Bool := match rest with
        | [] => true
        | [_] => false
        | next :: _ => named? next = some .binary
      if isOperand then none else some .unary
    | some .opening => if rest.isEmpty then none else some .opening
    | other => other

structure Progress where
  before : String
  rest : List String

abbrev Reading := StateT Progress (Except Flaw)

def next : Reading String := do
  match (← get).rest with
  | [] => return ""
  | word :: rest =>
    set (⟨word, rest⟩ : Progress)
    return word

def number (text : String) : Reading Int :=
  let trimmed := (text.toList.dropWhile Expression.isSpace).reverse.dropWhile Expression.isSpace
  match integer? trimmed.reverse with
  | some value =>
    if Expression.clamp value = value then return value else throw (.notNumber text)
  | none => throw (.notNumber text)

def holds (desk : Desk) (property argument : String) : Bool :=
  let isDevice := isNull argument
  let content := desk.storage.read (desk.path argument)
  match property with
  | "-n" => argument ≠ ""
  | "-z" => argument = ""
  | "-e" | "-r" | "-w" | "-O" | "-G" => desk.occupied argument || isDevice
  | "-d" => desk.isFolder argument
  | "-f" => content.isOk
  | "-c" => isDevice
  | "-s" => (match content with
    | .ok content => !content.isEmpty
    | .error _ => desk.isFolder argument)
  | "-x" => desk.isFolder argument || (desk.key? argument).any desk.runnable.contains
  | _ => false

def compares (desk : Desk) (left relation right : String) : Reading Bool := do
  let byNumber (verdict : Int → Int → Bool) : Reading Bool := do
    return verdict (← number left) (← number right)
  match relation with
  | "=" => return left = right
  | "!=" => return left ≠ right
  | "<" => return left < right
  | ">" => return right < left
  | "-eq" => byNumber fun left right => left = right
  | "-ne" => byNumber fun left right => left ≠ right
  | "-lt" => byNumber fun left right => left < right
  | "-le" => byNumber fun left right => left ≤ right
  | "-gt" => byNumber fun left right => right < left
  | "-ge" => byNumber fun left right => right ≤ left
  | "-ef" => return (desk.key? left).isSome && desk.key? left = desk.key? right &&
      desk.occupied left
  | "-nt" => return desk.occupied left && !desk.occupied right
  | "-ot" => return desk.occupied right && !desk.occupied left
  | _ => return false

def readComparison (desk : Desk) : Reading Bool := do
  let left ← next
  let relation ← next
  if (← get).rest.isEmpty then throw (.incomplete relation)
  compares desk left relation (← next)

mutual

def readEither (desk : Desk) : Nat → Reading Bool
  | 0 => return false
  | rounds + 1 => do
    let verdict ← readBoth desk rounds
    if operator? (← get).rest = some .either then
      let _ ← next
      return (← readEither desk rounds) || verdict
    else return verdict
termination_by structural rounds => rounds

def readBoth (desk : Desk) : Nat → Reading Bool
  | 0 => return false
  | rounds + 1 => do
    let verdict ← readNegation desk rounds
    if operator? (← get).rest = some .both then
      let _ ← next
      return (← readBoth desk rounds) && verdict
    else return verdict
termination_by structural rounds => rounds

def readNegation (desk : Desk) : Nat → Reading Bool
  | 0 => return false
  | rounds + 1 => do
    if operator? (← get).rest = some .negation then
      let _ ← next
      return !(← readNegation desk rounds)
    else readPrimary desk rounds
termination_by structural rounds => rounds

def readPrimary (desk : Desk) : Nat → Reading Bool
  | 0 => return false
  | rounds + 1 => do
    let words := (← get).rest
    if words.isEmpty then return false
    match operator? words with
    | some .opening =>
      let _ ← next
      if operator? (← get).rest = some .closing then
        let _ ← next
        return false
      let verdict ← readEither desk rounds
      if operator? (← get).rest = some .closing then
        let _ ← next
        return verdict
      else throw .unclosed
    | some .unary =>
      let property ← next
      if (← get).rest.isEmpty then throw (.incomplete property)
      return holds desk property (← next)
    | _ =>
      if operator? (words.drop 1) = some .binary then readComparison desk
      else return (← next) ≠ ""
termination_by structural rounds => rounds

end

/-- Three words with a binary operator in the middle are a comparison, whatever the others are;
words between parentheses or after a negation are a test of their own. -/
def readAll (desk : Desk) : Nat → List String → Except Flaw Bool
  | 0, _ => .ok false
  | _ + 1, [] => .ok false
  | rounds + 1, words => do
    let isThree := words.length = 3
    let isShort := isThree || words.length = 4
    let finish (read : Reading Bool) (words : List String) : Except Flaw Bool := do
      let (verdict, progress) ← read.run ⟨"", words⟩
      if progress.rest.isEmpty then return verdict else throw (.unexpected progress.before)
    if isThree && (words[1]?.bind named?) = some .binary then finish (readComparison desk) words
    else if isShort && words.head? = some "(" && words.getLast? = some ")" then
      let inner := (words.drop 1).dropLast
      finish (readEither desk (4 * inner.length + 4)) inner
    else if isShort && words.head? = some "!" then return !(← readAll desk rounds (words.drop 1))
    else finish (readEither desk (4 * words.length + 4)) words

def judge (desk : Desk) (words : List String) : Except Flaw Bool :=
  readAll desk (words.length + 1) words

end FuzzBridge.Program.Test
