import FuzzBridge.Campaign.Config
import FuzzBridge.Campaign.Coverage
import FuzzBridge.Campaign.Extraction
import FuzzBridge.Campaign.Solving
import FuzzBridge.Command.Invocation
import FuzzBridge.Corpus.Seeds
import FuzzBridge.Dataflow.GraphFile
import FuzzBridge.Program.Launch

/-!
Running the program: what it prints, the files that it leaves behind, and its status.
-/

namespace FuzzBridge.Command

/-- Why the program stops: with a message, which a flaw of a JSON text has none of its own for, or
because a value does not fit its place. -/
inductive Complaint where
  | message (text : Option String)
  | overflow

abbrev Run (α : Type) := ExceptT Complaint (StateM (Site (List String))) α

/-- How a run has ended. A status of 2 is for arguments that make no sense. What other programs have
complained about comes before the complaint of the program. -/
structure Exit where
  status : Nat
  output : String
  noise : Bytes
  complaint : Option String
  storage : Storage

namespace Run

def print (line : String) : Run Unit :=
  modify fun site => { site with memory := site.memory ++ [line] }

def perform {α : Type} (complain : Fault → Option String) (task : Task (List String) α) :
    Run α := fun site =>
  let (result, site) := task site
  (result.mapError fun
    | .engine .endless => .overflow
    | fault => .message (complain fault), site)

/-- A task whose faults speak for themselves. -/
def plainly {α : Type} (task : Task (List String) α) : Run α :=
  perform Fault.message? task

/-- A task whose faults are told by what was to be done, and to what. -/
def explained {α : Type} (attempt object : String) (task : Task (List String) α) :
    Run α :=
  perform (fun _ => some (attempt ++ " " ++ Text.quoted object)) task

def complain {α : Type} (text : String) : Run α := throw (.message (some text))

def readText (path : String) : Task (List String) String :=
  Task.look fun storage => Corpus.access (storage.readText path)

def printCases (cases : List (List String)) : Run Unit := do
  if cases.isEmpty then print "No failing properties."
  for calls in cases do print ("Failed: " ++ " -> ".intercalate calls)

def seeds (graph contract corpus : String) (rounds : Nat) (isVerbose : Bool) : Run Unit := do
  let found ← explained "couldn't load dataflow graph from" graph <| Task.look fun storage => do
    let content ← Corpus.access (storage.read graph)
    GraphFile.graph? (← GraphFile.ofText (Text.decode content)) contract
  let some found := found | complain ("no dataflow graph for " ++ contract)
  if found.size = 0 then
    print ("Dataflow graph of " ++ contract ++ " has no functions.")
    return
  let frontier := (Frontier.start found).growBy rounds
  if isVerbose then print frontier.shown
  if frontier.length = 0 then
    print ("No dependent call sequences after " ++ toString rounds ++ " rounds.")
    return
  let folder ← plainly (Task.look fun storage => .ok (Corpus.entryFolder storage corpus))
  let templates ← explained "couldn't read corpus" folder <|
    Task.look fun storage => Corpus.templatesOf storage folder
  if isVerbose then print ("templates: " ++ " ".intercalate templates.keys)
  let written ← plainly (Task.change (Corpus.dumpSeeds templates frontier folder))
  print ("Wrote " ++ toString written.length ++ " of " ++ toString frontier.sequences.length ++
    " sequences of length " ++ toString frontier.length ++ " for " ++ found.contract ++ " to " ++
    folder)

def printStep (position : Nat) (step : Step) : Run Unit := do
  print (transactionName position ++ ":")
  print step.shown
  match step.call with
  | none => pure ()
  | some call => match call.data.concretize step.seeds with
    | .ok bytes => print ("calldata:  0x" ++ Number.bytesToHex bytes)
    | .error (.unassigned _) => pure ()
    | .error _ => throw .overflow
  let widths := step.seeds.names.map fun name =>
    name ++ ":" ++ toString ((step.seeds.width? name).getD 0)
  print ("variables: " ++ " ".intercalate widths)

def display (entry : String) : Run Unit := do
  let steps ← explained "couldn't load" entry <|
    Task.look fun storage => Corpus.loadEntry storage entry
  for (step, position) in steps.zipIdx do printStep position step

def apply (entry model : String) : Run Unit := do
  let text ← explained "couldn't read model" model (readText model)
  match ← plainly (Task.ofResult (Model.ofText text)) with
  | none => print "Model is null, nothing to apply."
  | some model =>
    let path ← explained "couldn't apply model to" entry <|
      Task.change fun storage => Corpus.storeSolved storage entry model
    print ("Wrote " ++ path)

def solve (input : String) (solver : ExternalSolver) : Run Unit := do
  let isFolder ← plainly (Task.look fun storage => .ok (storage.isFolder input))
  let solved ← if isFolder then do
      let folder ← plainly (Task.look fun storage => .ok (Corpus.entryFolder storage input))
      plainly (solveFolder solver.solve folder)
    else do
      let solved ← explained "couldn't solve" input (solveEntry solver.solve input)
      pure solved.toList
  if solved.isEmpty then print "No new inputs."
  for path in solved do print ("Solved " ++ path)

def fuzz (fuzzer : ExternalFuzzer) (request : FuzzRequest) (solver : ExternalSolver) :
    Run Unit := do
  match request.config with
  | some config => discard (plainly (Task.look fun storage => Config.initializer? storage config))
  | none => pure ()
  explained "couldn't create corpus dir" request.corpus <| Task.change fun storage => do
    return ((), ← Corpus.access (storage.createFolders request.corpus))
  let summary ← plainly (fuzzRound (fuzzer.run request) solver.solve request.corpus)
  printCases summary.cases
  print (toString summary.uniqueCounters ++ " unique PCs")
  let latest ← plainly (Task.look fun storage => .ok (Coverage.latest? storage request.corpus))
  match latest with
  | some path =>
    let lines ← plainly (Task.look fun storage => Coverage.ofFile storage path)
    print (toString lines ++ " covered lines")
  | none => pure ()
  print (toString summary.solved.length ++ " new inputs from the solver")

def readReport (path : String) : Run Report := do
  let output ← explained "couldn't read report" path (readText path)
  plainly (Task.ofResult (Report.ofOutput output))

def coverage (corpus : String) (report : Option String) : Run Unit := do
  match ← plainly (Task.look fun storage => .ok (Coverage.latest? storage corpus)) with
  | some path =>
    let lines ← plainly (Task.look fun storage => Coverage.ofFile storage path)
    print (toString lines ++ " covered lines (" ++ path ++ ")")
  | none => print ("No coverage file in " ++ corpus)
  match report with
  | some path => print (toString (← readReport path).uniqueCounters ++ " unique PCs")
  | none => pure ()

def bytecode (build : String) (contract : Option String) (scratch mark : String) : Run Unit := do
  match ← plainly (Task.change (extractBytecode build contract scratch mark)) with
  | some path => print path
  | none => complain ("no bytecode extracted from " ++ Text.quoted build)

end Run

/-- Does a job. Files that are nobody's go to the folder `scratch` and carry the mark of the run. -/
def Job.run (scratch mark : String) : Job → Run Unit
  | .seeds graph contract corpus rounds isVerbose =>
    Run.seeds graph contract corpus rounds isVerbose
  | .display entry => Run.display entry
  | .apply entry model => Run.apply entry model
  | .solve input solver => Run.solve input solver
  | .fuzz fuzzer request solver => Run.fuzz fuzzer request solver
  | .cases report => do Run.printCases (← Run.readReport report).cases
  | .coverage corpus report => Run.coverage corpus report
  | .bytecode build contract => Run.bytecode build contract scratch mark

def versionText : String := programName ++ " 0.1.0\n"

def exitOf (site : Site (List String)) : Except Complaint Unit → Exit
  | .ok () => ⟨0, outputOf site, site.complaints, none, site.storage⟩
  | .error (.message text) => ⟨1, outputOf site, site.complaints, text, site.storage⟩
  | .error .overflow => ⟨101, outputOf site, site.complaints, none, site.storage⟩
where
  outputOf (site : Site (List String)) : String := String.join (site.memory.map (· ++ "\n"))

def Request.run (scratch mark : String) (storage : Storage) : Request → Exit
  | .version => ⟨0, versionText, [], none, storage⟩
  | .help page => ⟨0, page.render, [], none, storage⟩
  | .refused .wrong => ⟨2, "", [], none, storage⟩
  | .refused .overflow => ⟨101, "", [], none, storage⟩
  | .job wanted =>
    let (result, site) := (wanted.run scratch mark).run (.start storage [])
    exitOf site result

def execute (environment : Environment) (scratch mark : String) (storage : Storage)
    (arguments : List String) : Exit :=
  (Request.ofArguments environment arguments).run scratch mark storage

end FuzzBridge.Command
