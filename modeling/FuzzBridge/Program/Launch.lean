import FuzzBridge.Campaign.External
import FuzzBridge.Program.Shell

/-!
The launcher of the program at hand: it knows the programs for the shell, and runs them on the
stored files.
-/

namespace FuzzBridge

namespace Program

def refusal? (storage : Storage) (program : String) (arguments : List String) : Option String :=
  if (program :: arguments).any fun text => text.toList.contains (Char.ofNat 0) then
    some "nul byte found in provided data"
  else if Shell.isProgram program then none
  else if !program.toList.contains '/' then some StorageFault.notFound.message
  else match storage.find program with
    | .ok _ => some "Permission denied (os error 13)"
    | .error cause => some cause.message

/-- How many commands may be under way at once before a program is taken for one that does not
end. -/
def roundLimit : Nat := 20000

def Session.ending (session : Session) : Except Halt Unit → Ending
  | .ok _ | .error .exited | .error (.left ..) | .error .returned => .exited session.status
  | .error (.killed signal) => .killed signal
  | .error .late => .late

/-- A program reads its input and writes to two texts, and has nothing else of its own. -/
def Process.start : Process :=
  ⟨0, "", fun channel => if channel < 3 then .buffer channel else .closed, .empty, .empty, [], "sh",
    [], .start, [], [], 1⟩

def firstNumber : Nat := 4710

def launch {σ : Type} : Launcher σ := fun limit program arguments input site =>
  match refusal? site.storage program arguments with
  | some reason => (⟨.refused reason, []⟩, site)
  | none =>
    if limit.nanoseconds = 0 then (⟨.late, []⟩, site)
    else
      let start : Session :=
        ⟨site.storage, [], #[[charsOf input], [], []], 0, firstNumber, 0, none, .start⟩
      let (result, session) := Shell.runProgram roundLimit ⟨limit.nanoseconds, false, 0⟩ program
        (arguments.map encoded) start
      (⟨session.ending result, bytesOf (session.textOf 1)⟩,
        { site with
          storage := session.storage
          complaints := site.complaints ++ bytesOf (session.textOf 2) })

end Program

def ExternalSolver.solve {σ : Type} (solver : ExternalSolver) : Solver σ :=
  solver.solveWith Program.launch

def ExternalFuzzer.run {σ : Type} (fuzzer : ExternalFuzzer) (request : FuzzRequest) : Fuzzer σ :=
  fuzzer.runWith Program.launch request

end FuzzBridge
