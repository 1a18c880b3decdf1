import FuzzBridge.Campaign.External
import FuzzBridge.Command.Help

/-!
The subcommands, their options, and what a command line asks for.
-/

namespace FuzzBridge.Command

/-- What the program does. A round number is how often sequences grow. -/
inductive Job where
  | seeds (graph contract corpus : String) (rounds : Nat) (isVerbose : Bool)
  | display (entry : String)
  | apply (entry model : String)
  | solve (input : String) (solver : ExternalSolver)
  | fuzz (fuzzer : ExternalFuzzer) (request : FuzzRequest) (solver : ExternalSolver)
  | cases (report : String)
  | coverage (corpus : String) (report : Option String)
  | bytecode (build : String) (contract : Option String)

inductive Request where
  | version
  | help (page : HelpPage)
  | refused (refusal : Refusal)
  | job (job : Job)

def having (property : String → Bool) (text : String) : Except Refusal Unit :=
  if property text then .ok () else .error .wrong

def anyText : String → Except Refusal Unit := having fun _ => true

def isPath (text : String) : Bool := text ≠ ""

def aPath : String → Except Refusal Unit := having isPath

/-- A number that fits 64 bits; a plus sign may stand before it. -/
def count? (text : String) : Option Nat :=
  let digits := match text.toList with
    | '+' :: rest => rest
    | digits => digits
  if digits.isEmpty || !digits.all Char.isDigit then none
  else
    let value := digits.foldl (fun value c => value * 10 + (c.toNat - '0'.toNat)) 0
    if value < Nat.pow 2 64 then some value else none

def aCount : String → Except Refusal Unit := having fun text => (count? text).isSome

def aDuration (text : String) : Except Refusal Unit :=
  match Duration.parse text with
  | .ok _ => .ok ()
  | .error .wrong => .error .wrong
  | .error .overflow => .error .overflow

def solverOptions : List OptionRule :=
  [{ name := "solver", check := aPath, isRequired := true, variableName? := some "HYBRIDFUZZ_SOLVER"
     about := "Program reading abstract transactions on stdin and printing a model" },
   { name := "solver-arg", kind := .repeated, check := anyText, label := "SOLVER_ARGS" },
   { name := "solver-timeout", check := aDuration, fallback? := some "60s" }]

def seedsRules : Rules :=
  ⟨"Write dataflow-guided call sequences into a corpus directory", [],
   [{ name := "graph", check := aPath, isRequired := true
      about := "JSON file with the dataflow graph of each contract" },
    { name := "contract", check := anyText, isRequired := true },
    { name := "corpus-dir", check := aPath, isRequired := true
      about := "Corpus to take per-function templates from and to write seeds into" },
    { name := "rounds", check := aCount, fallback? := some "1"
      about := "Calls to prepend to every single-call sequence" },
    { name := "verbose", kind := .flag, check := anyText }]⟩

def fuzzOptions : List OptionRule :=
  [{ name := "contract", check := anyText },
   { name := "config", check := aPath, about := "Fuzzer YAML config" },
   { name := "corpus-dir", check := aPath, isRequired := true },
   { name := "test-limit", check := aCount },
   { name := "echidna", check := aPath, variableName? := some "ECHIDNA_BIN"
     fallback? := some "echidna" },
   { name := "fuzz-timeout", check := aDuration, fallback? := some "1h" }]

def commands : List (String × Rules) :=
  [("seeds", seedsRules),
   ("show", ⟨"Print the abstract transactions of a corpus entry", [⟨"FILE", ""⟩], []⟩),
   ("apply", ⟨"Apply a model (JSON object of variable assignments) to a corpus entry",
      [⟨"FILE", ""⟩, ⟨"MODEL", ""⟩], []⟩),
   ("solve", ⟨"Solve a corpus entry, or every entry of a corpus directory",
      [⟨"INPUT", "Corpus entry or corpus directory"⟩], solverOptions⟩),
   ("fuzz", ⟨"Run a fuzzing campaign followed by a solving pass over its corpus",
      [⟨"TARGET", "Solidity file or project to fuzz"⟩], fuzzOptions ++ solverOptions⟩),
   ("cases", ⟨"List the failing properties of a fuzzer JSON report", [⟨"REPORT", ""⟩], []⟩),
   ("coverage", ⟨"Report coverage of a corpus directory", [⟨"CORPUS_DIR", ""⟩],
      [{ name := "report", check := aPath
         about := "Fuzzer JSON report to count unique program counters in" }]⟩),
   ("bytecode", ⟨"Extract the bytecode of a compiled contract from a crytic-export dir",
      [⟨"CRYTIC_DIR", ""⟩], [{ name := "contract", check := anyText }]⟩)]

def rules? (name : String) : Option Rules := (commands.find? (·.1 = name)).map (·.2)

def duration? (given : Given) (name : String) : Option Duration := do
  Duration.parse? (← given.value? name)

def solver? (given : Given) : Option ExternalSolver := do
  return ⟨← given.value? "solver", given.values "solver-arg", ← duration? given "solver-timeout"⟩

def job? (name : String) (given : Given) : Option Job :=
  match name, given.operands with
  | "seeds", [] => do
    return .seeds (← given.value? "graph") (← given.value? "contract") (← given.value? "corpus-dir")
      (← count? (← given.value? "rounds")) (given.has "verbose")
  | "show", [entry] => some (.display entry)
  | "apply", [entry, model] => some (.apply entry model)
  | "solve", [input] => (solver? given).map (.solve input)
  | "fuzz", [target] => do
    let request : FuzzRequest := ⟨target, given.value? "contract", given.value? "config",
      ← given.value? "corpus-dir", (given.value? "test-limit").bind count?⟩
    return .fuzz ⟨← given.value? "echidna", ← duration? given "fuzz-timeout"⟩ request
      (← solver? given)
  | "cases", [report] => some (.cases report)
  | "coverage", [corpus] => some (.coverage corpus (given.value? "report"))
  | "bytecode", [build] => some (.bytecode build (given.value? "contract"))
  | _, _ => none

def programName : String := "hybridfuzz"

def helpAbout : String := "Print this message or the help of the given subcommand(s)"

def programPage : HelpPage where
  about := "Dataflow-guided seeds and a symbolic bridge for hybrid smart contract fuzzing"
  usage := programName ++ " <COMMAND>"
  sections :=
    [⟨"Commands", (commands.map fun command => ⟨"", command.1, command.2.about⟩) ++
        [⟨"", "help", helpAbout⟩]⟩,
     ⟨"Options", [helpRow, ⟨"-V, ", "--version", "Print version"⟩]⟩]

def helpPage : HelpPage where
  about := helpAbout
  usage := programName ++ " help [COMMAND]..."
  sections := [⟨"Arguments", [⟨"", "[COMMAND]...", "Print help for the subcommand(s)"⟩]⟩]

def commandPage (environment : Environment) (name : String) (rules : Rules) : HelpPage :=
  rules.helpPage (programName ++ " " ++ name) environment

/-- What a call for help asks for: one page at most. -/
def Request.ofTopics (environment : Environment) : List String → Request
  | [] => .help programPage
  | ["help"] => .help helpPage
  | [name] => match rules? name with
    | some rules => .help (commandPage environment name rules)
    | none => .refused .wrong
  | _ => .refused .wrong

def Request.ofArguments (environment : Environment) : List String → Request
  | [] => .refused .wrong
  | "help" :: topics => .ofTopics environment topics
  | name :: rest =>
    if name = "--version" || "-V".isPrefixOf name then .version
    else if name = "--help" || isShortHelp name then .help programPage
    else match rules? name with
      | none => .refused .wrong
      | some rules => match parse rules Given.none rest with
        | .help => .help (commandPage environment name rules)
        | .refused refusal => .refused refusal
        | .given given =>
          match (settle? rules environment given).bind (job? name) with
          | some found => .job found
          | none => .refused .wrong

example : (commandPage Table.empty "solve" ⟨"", [⟨"INPUT", ""⟩], solverOptions⟩).usage =
    "hybridfuzz solve [OPTIONS] --solver <SOLVER> <INPUT>" := by decide +kernel

end FuzzBridge.Command
