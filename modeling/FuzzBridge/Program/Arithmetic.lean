import FuzzBridge.Number.Literal

/-!
Arithmetic in shell scripts: signed words of 64 bits, the operators of most languages, and variables
that may be set.
-/

namespace FuzzBridge.Program

inductive Expression where
  | number (value : Int)
  | reference (name : String)
  | unary (operator : Char) (operand : Expression)
  | binary (operator : String) (left right : Expression)
  | choice (condition yes no : Expression)
  | assign (name operator : String) (value : Expression)

namespace Expression

/-- The binary operators, from those that bind least on. Where two begin alike, the longer one comes
first. -/
def operators : List (List String) :=
  [["||"], ["&&"], ["|"], ["^"], ["&"], ["==", "!="], ["<=", ">=", "<", ">"], ["<<", ">>"],
    ["+", "-"], ["*", "/", "%"]]

def assignments : List String :=
  ["<<=", ">>=", "+=", "-=", "*=", "/=", "%=", "&=", "|=", "^=", "="]

def isSpace (c : Char) : Bool := c = ' ' || c = '\t' || c = '\n'

def skipSpace (text : List Char) : List Char := text.dropWhile isSpace

/-- An operator at the start of a text. None begins a longer one there. -/
def startOf? (level : List String) (text : List Char) : Option (String × List Char) := do
  let operator ← level.find? fun operator => operator.toList.isPrefixOf text
  let rest := text.drop operator.length
  let longer := (assignments ++ operators.flatten).filter fun other =>
    operator.length < other.length && operator.toList.isPrefixOf other.toList &&
      other.toList.isPrefixOf text
  if longer.isEmpty then some (operator, rest) else none

def isNameChar (c : Char) : Bool := c.isAlphanum || c = '_'

/-- A number by its digits: hexadecimal after `0x`, octal after `0`. -/
def number? (text : List Char) : Option Nat :=
  match text with
  | '0' :: 'x' :: c :: rest | '0' :: 'X' :: c :: rest => digits? 16 (c :: rest)
  | '0' :: c :: rest => digits? 8 (c :: rest)
  | text => if text.isEmpty then none else digits? 10 text
where
  digits? (base : Nat) (digits : List Char) : Option Nat :=
    digits.foldlM (fun value c => (Number.digit? base c).map (value * base + ·)) 0

mutual

def readAssignment : Nat → List Char → Option (Expression × List Char)
  | 0, _ => none
  | rounds + 1, text => do
    let text := skipSpace text
    let name := text.takeWhile isNameChar
    let after := skipSpace (text.drop name.length)
    match assignments.find? fun operator => operator.toList.isPrefixOf after with
    | some operator =>
      let isAssigned := name.head?.any (fun c => !c.isDigit) &&
        !(operator = "=" && (after.drop 1).head? = some '=')
      if isAssigned then
        let (value, rest) ← readAssignment rounds (after.drop operator.length)
        return (.assign (String.ofList name) (String.ofList (operator.toList.dropLast)) value, rest)
      else readChoice rounds text
    | none => readChoice rounds text
termination_by structural rounds => rounds

def readChoice : Nat → List Char → Option (Expression × List Char)
  | 0, _ => none
  | rounds + 1, text => do
    let (condition, rest) ← readBinary operators rounds text
    match skipSpace rest with
    | '?' :: rest =>
      let (yes, rest) ← readAssignment rounds rest
      match skipSpace rest with
      | ':' :: rest =>
        let (no, rest) ← readChoice rounds rest
        return (.choice condition yes no, rest)
      | _ => none
    | rest => return (condition, rest)
termination_by structural rounds => rounds

def readBinary (levels : List (List String)) : Nat → List Char → Option (Expression × List Char)
  | 0, _ => none
  | rounds + 1, text => match levels with
    | [] => readUnary rounds text
    | level :: higher => do
      let (left, rest) ← readBinary higher rounds text
      continueBinary level higher left rounds rest
termination_by structural rounds => rounds

def continueBinary (level : List String) (higher : List (List String)) (left : Expression) :
    Nat → List Char → Option (Expression × List Char)
  | 0, _ => none
  | rounds + 1, text => match startOf? level (skipSpace text) with
    | some (operator, rest) => do
      let (right, rest) ← readBinary higher rounds rest
      continueBinary level higher (.binary operator left right) rounds rest
    | none => some (left, text)
termination_by structural rounds => rounds

def readUnary : Nat → List Char → Option (Expression × List Char)
  | 0, _ => none
  | rounds + 1, text => match skipSpace text with
    | '(' :: rest => do
      let (value, rest) ← readAssignment rounds rest
      match skipSpace rest with
      | ')' :: rest => return (value, rest)
      | _ => none
    | c :: rest =>
      if ['+', '-', '!', '~'].contains c then do
        let (operand, rest) ← readUnary rounds rest
        return (.unary c operand, rest)
      else do
        let word := (c :: rest).takeWhile isNameChar
        let rest := (c :: rest).drop word.length
        if word.isEmpty then none
        else if c.isDigit then return (.number (← number? word), rest)
        else return (.reference (String.ofList word), rest)
    | [] => none
termination_by structural rounds => rounds

end

def ofText? (text : List Char) : Option Expression := do
  let (expression, rest) ← readAssignment (20 * (text.length + 2)) text
  if (skipSpace rest).isEmpty then return expression else none

inductive Flaw where
  | unreadable
  | division
  | notNumber (text : List Char)

def Flaw.message (flaw : Flaw) (text : List Char) : List Char :=
  let about (reason : String) : List Char :=
    "arithmetic expression: ".toList ++ reason.toList ++ ": \"".toList ++ text ++ ['"']
  match flaw with
  | .unreadable => about "expecting primary"
  | .division => about "division by zero"
  | .notNumber text => "Illegal number: ".toList ++ text

def word (value : Int) : Int := value.bmod (Nat.pow 2 64)

def ofBool (value : Bool) : Int := if value then 1 else 0

def onBits (operation : Nat → Nat → Nat) (left right : Int) : Int :=
  word (operation (left.emod (Nat.pow 2 64 : Int)).toNat (right.emod (Nat.pow 2 64 : Int)).toNat)

def operate (operator : String) (left right : Int) : Except Flaw Int :=
  match operator with
  | "" => .ok right
  | "|" => .ok (onBits Nat.lor left right)
  | "^" => .ok (onBits Nat.xor left right)
  | "&" => .ok (onBits Nat.land left right)
  | "==" => .ok (ofBool (left = right))
  | "!=" => .ok (ofBool (left ≠ right))
  | "<=" => .ok (ofBool (left ≤ right))
  | ">=" => .ok (ofBool (right ≤ left))
  | "<" => .ok (ofBool (left < right))
  | ">" => .ok (ofBool (right < left))
  | "<<" => .ok (word (left * Nat.pow 2 (right.emod 64).toNat))
  | ">>" => .ok (left.fdiv (Nat.pow 2 (right.emod 64).toNat))
  | "+" => .ok (word (left + right))
  | "-" => .ok (word (left - right))
  | "*" => .ok (word (left * right))
  | "/" => if right = 0 then .error .division else .ok (word (left.tdiv right))
  | "%" => if right = 0 then .error .division else .ok (left.tmod right)
  | _ => .error .unreadable

/-- What variables hold, and what has been assigned, the last one first. -/
structure Scope where
  value? : String → Option (List Char)
  assigned : List (String × Int)

def signed? (text : List Char) : Option Int :=
  let text := ((skipSpace text).reverse.dropWhile isSpace).reverse
  match text with
  | '-' :: rest => (number? rest).map fun value => -(value : Int)
  | '+' :: rest => (number? rest).map Int.ofNat
  | text => (number? text).map Int.ofNat

def clamp (value : Int) : Int :=
  max (-(Nat.pow 2 63 : Int)) (min value ((Nat.pow 2 63 : Int) - 1))

def lookUp (key : String) : StateT Scope (Except Flaw) Int := do
  let scope ← get
  match scope.assigned.find? (·.1 = key), scope.value? key with
  | some (_, value), _ => return value
  | none, some text =>
    if text.isEmpty then return 0
    else match signed? text with
      | some value => return clamp value
      | none => throw (.notNumber text)
  | none, none => return 0

/-- The value of an expression. What is not chosen is not looked at. -/
def value : Expression → StateT Scope (Except Flaw) Int
  | .number value => return clamp value
  | .reference name => lookUp name
  | .unary operator operand => do
    let operand ← operand.value
    return match operator with
      | '-' => word (-operand)
      | '!' => ofBool (operand = 0)
      | '~' => -operand - 1
      | _ => operand
  | .binary operator left right => do
    let left ← left.value
    match operator with
    | "||" => if left ≠ 0 then return 1 else return ofBool ((← right.value) ≠ 0)
    | "&&" => if left = 0 then return 0 else return ofBool ((← right.value) ≠ 0)
    | operator => operate operator left (← right.value)
  | .choice condition yes no => do
    if (← condition.value) ≠ 0 then yes.value else no.value
  | .assign name operator value => do
    let operand ← value.value
    let old ← if operator = "" then pure 0 else lookUp name
    let result ← operate operator old operand
    modify fun scope => { scope with assigned := (name, result) :: scope.assigned }
    return result

def evaluate (value? : String → Option (List Char)) (text : List Char) :
    Except Flaw (Int × List (String × Int)) :=
  if (skipSpace text).isEmpty then .ok (0, [])
  else match ofText? text with
    | none => .error .unreadable
    | some expression => do
      let (result, scope) ← expression.value.run ⟨value?, []⟩
      return (result, scope.assigned.reverse)

end Expression

end FuzzBridge.Program
