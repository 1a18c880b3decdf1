import FuzzBridge.Campaign.Site
import FuzzBridge.Program.Outcome

/-!
Solvers and fuzzers that are programs of their own. A solver reads the steps and writes a model; a
fuzzer works on a target and writes a report. What starts them, and so what they do, is left open:
an engine is asked for its answer to whatever outcome a launcher comes back with.
-/

namespace FuzzBridge

open Program (Ending Outcome)

structure ExternalSolver where
  program : String
  arguments : List String
  limit : Duration

structure FuzzRequest where
  target : String
  contract : Option String
  config : Option String
  corpus : String
  testLimit : Option Nat

structure ExternalFuzzer where
  program : String
  limit : Duration

/-- Starts a program with arguments and an input and waits for its end, at most as long as the
limit. It may do anything at the site. -/
abbrev Launcher (σ : Type) := Duration → String → List String → Bytes → StateM (Site σ) Outcome

/-- The text that a program has written, if it ended by itself. The limit is set once the program
has started. -/
def outputOf (engine : String) (limit : Duration) (outcome : Outcome) : Except EngineFault String :=
  match outcome.ending with
  | .refused reason => .error (.crashed engine reason)
  | .late => .error (if limit.isEndless then .endless else .timeout engine limit)
  | .exited _ | .killed _ =>
    if limit.isEndless then .error .endless
    else match Text.ofBytes? outcome.output with
    | some text => .ok text
    | none => .error (.malformedOutput engine (some StorageFault.notText.message))

def isSuccess : Ending → Bool
  | .exited status => status = 0
  | _ => false

namespace ExternalSolver

/-- A solver that fails has no answer, whatever it has written. -/
def findingOf (solver : ExternalSolver) (outcome : Outcome) : Finding := do
  let output ← outputOf solver.program solver.limit outcome
  if isSuccess outcome.ending then FuzzBridge.findingOf solver.program output
  else .error (.crashed solver.program ("exited with " ++ outcome.ending.shown))

def solveWith {σ : Type} (launch : Launcher σ) (solver : ExternalSolver) : Solver σ :=
  fun steps site =>
    let request := Text.encode (requestText steps)
    let (outcome, site) := launch solver.limit solver.program solver.arguments request site
    (solver.findingOf outcome, site)

end ExternalSolver

def FuzzRequest.arguments (request : FuzzRequest) : List String :=
  [request.target, "--format", "json", "--corpus-dir", request.corpus] ++
    (match request.contract with
      | some contract => ["--contract", contract]
      | none => []) ++
    (match request.config with
      | some config => ["--config", config]
      | none => []) ++
    (match request.testLimit with
      | some limit => ["--test-limit", toString limit]
      | none => [])

namespace ExternalFuzzer

/-- A failing property makes a fuzzer fail too, so a report counts whatever the ending is. A fuzzer
that fails without a word has crashed, and so has one whose report cannot be read. -/
def reportOf (fuzzer : ExternalFuzzer) (outcome : Outcome) : Except EngineFault Report := do
  let output ← outputOf fuzzer.program fuzzer.limit outcome
  let failure := "exited with " ++ outcome.ending.shown
  if !isSuccess outcome.ending && output.toList.all Text.isBlank then
    .error (.crashed fuzzer.program (failure ++ " and no report"))
  else match FuzzBridge.reportOf fuzzer.program output with
    | .ok report => .ok report
    | .error fault =>
      if isSuccess outcome.ending then .error fault else .error (.crashed fuzzer.program failure)

def runWith {σ : Type} (launch : Launcher σ) (fuzzer : ExternalFuzzer) (request : FuzzRequest) :
    Fuzzer σ := fun site =>
  let (outcome, site) := launch fuzzer.limit fuzzer.program request.arguments [] site
  (fuzzer.reportOf outcome, site)

end ExternalFuzzer

end FuzzBridge
