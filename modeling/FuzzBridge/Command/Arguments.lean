import FuzzBridge.Table

/-!
Arguments of a command line: options by name, with or without a value, and operands in order. They
are read from left to right, and the first thing that is wrong, or a call for help, decides.
-/

namespace FuzzBridge.Command

/-- A flag has no value, a single option has one and comes once, and a repeated one comes any number
of times and takes every text for its value. -/
inductive OptionKind where
  | flag | single | repeated
  deriving DecidableEq

inductive Refusal where
  | wrong | overflow
  deriving DecidableEq

def placeholder (name : String) : String :=
  String.ofList (name.toList.map fun c => if c = '-' then '_' else c.toUpper)

/-- An option whose value may come from a variable of the environment, and else is its fallback. -/
structure OptionRule where
  name : String
  kind : OptionKind := .single
  check : String → Except Refusal Unit
  isRequired : Bool := false
  about : String := ""
  label : String := placeholder name
  variableName? : Option String := none
  fallback? : Option String := none

structure Operand where
  name : String
  about : String := ""

structure Rules where
  about : String
  operands : List Operand
  options : List OptionRule

structure Given where
  operands : List String
  options : Table (List String)

inductive Parsed where
  | given (given : Given)
  | help
  | refused (refusal : Refusal)

namespace Given

def none : Given := ⟨[], Table.empty⟩

def values (given : Given) (name : String) : List String := (given.options.find? name).getD []

def value? (given : Given) (name : String) : Option String := (given.values name).head?

def has (given : Given) (name : String) : Bool := given.options.contains name

end Given

/-- An operand is the path of something, so it is not empty. -/
def addOperand (rules : Rules) (given : Given) (operand : String) : Except Refusal Given :=
  if operand = "" || rules.operands.length ≤ given.operands.length then .error .wrong
  else .ok { given with operands := given.operands ++ [operand] }

def addOption (rule : OptionRule) (given : Given) (value : String) : Except Refusal Given := do
  if given.has rule.name && rule.kind ≠ .repeated then .error .wrong
  else
    rule.check value
    return { given with
      options := given.options.insert rule.name (given.values rule.name ++ [value]) }

def isHyphenated (argument : String) : Bool :=
  argument.toList.head? = some '-' && argument ≠ "-"

def longOption? (argument : String) : Option (String × Option String) :=
  match argument.toList with
  | '-' :: '-' :: rest =>
    let name := String.ofList (rest.takeWhile (· ≠ '='))
    match rest.dropWhile (· ≠ '=') with
    | _ :: value => some (name, some (String.ofList value))
    | [] => some (name, none)
  | _ => none

def isShortHelp (argument : String) : Bool :=
  match argument.toList with
  | '-' :: 'h' :: _ => true
  | _ => false

def resume (rest : Given → Parsed) : Except Refusal Given → Parsed
  | .ok given => rest given
  | .error refusal => .refused refusal

def parseOperands (rules : Rules) (given : Given) (arguments : List String) : Parsed :=
  resume .given (arguments.foldlM (addOperand rules) given)

def parse (rules : Rules) (given : Given) : List String → Parsed
  | [] => .given given
  | argument :: rest =>
    if argument = "--" then parseOperands rules given rest
    else match longOption? argument with
      | none =>
        if isShortHelp argument then .help
        else if isHyphenated argument then .refused .wrong
        else resume (parse rules · rest) (addOperand rules given argument)
      | some (name, attached) =>
        if name = "help" then if attached.isSome then .refused .wrong else .help
        else match rules.options.find? (·.name = name), attached, rest with
          | none, _, _ => .refused .wrong
          | some rule, some value, rest =>
            if rule.kind = .flag then .refused .wrong
            else resume (parse rules · rest) (addOption rule given value)
          | some rule, none, rest =>
            if rule.kind = .flag then resume (parse rules · rest) (addOption rule given "")
            else match rest with
              | [] => .refused .wrong
              | value :: rest =>
                if isHyphenated value && rule.kind ≠ .repeated then .refused .wrong
                else resume (parse rules · rest) (addOption rule given value)

abbrev Environment := Table String

/-- The value of an option that was not given. A value from the environment has to suit it as well.
-/
def OptionRule.default? (rule : OptionRule) (environment : Environment) : Option String :=
  match rule.variableName?.bind environment.find? with
  | some value => if (rule.check value).isOk then some value else none
  | none => rule.fallback?

/-- Arguments that leave out nothing, with the values that nobody had to give. -/
def settle? (rules : Rules) (environment : Environment) (given : Given) : Option Given :=
  if given.operands.length < rules.operands.length then none
  else rules.options.foldlM (fun given rule =>
    if given.has rule.name then some given
    else match rule.default? environment with
      | some value => (addOption rule given value).toOption
      | none => if rule.isRequired then none else some given) given

end FuzzBridge.Command
