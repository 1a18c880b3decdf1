import FuzzBridge.Campaign.Report
import FuzzBridge.Solver.Model
import FuzzBridge.Solver.Step
import FuzzBridge.Storage.Basic

/-!
Where a campaign takes place: the stored files, what programs have complained about, and whatever
those that take part in it remember. A task that fails leaves behind what it has done so far.
-/

namespace FuzzBridge

structure Site (σ : Type) where
  storage : Storage
  complaints : Bytes
  memory : σ

def Site.start {σ : Type} (storage : Storage) (memory : σ) : Site σ := ⟨storage, [], memory⟩

abbrev Task (σ α : Type) := ExceptT Fault (StateM (Site σ)) α

/-- What a solver says about a sequence: a model, no model, or nothing. -/
abbrev Finding := Except EngineFault (Option Assignment)

abbrev Solver (σ : Type) := List Step → StateM (Site σ) Finding

abbrev Fuzzer (σ : Type) := StateM (Site σ) (Except EngineFault Report)

def findingOf (engine output : String) : Finding :=
  match Model.ofText output with
  | .ok model => .ok model
  | .error fault => .error (.malformedOutput engine fault.message?)

def reportOf (engine output : String) : Except EngineFault Report :=
  match Report.ofOutput output with
  | .ok report => .ok report
  | .error fault => .error (.malformedOutput engine fault.message?)

/-- A solver that leaves the files alone. -/
def Solver.ofMemory {σ : Type} (solve : List Step → σ → Finding × σ) : Solver σ := fun steps site =>
  let (finding, memory) := solve steps site.memory
  (finding, { site with memory })

namespace Task

variable {σ α : Type}

def ofResult (result : Result α) : Task σ α := ExceptT.mk (pure result)

def look (read : Storage → Result α) : Task σ α := fun site => (read site.storage, site)

def change (update : Storage → Result (α × Storage)) : Task σ α := fun site =>
  match update site.storage with
  | .ok (value, storage) => (.ok value, { site with storage })
  | .error fault => (.error fault, site)

def engine (run : StateM (Site σ) (Except EngineFault α)) : Task σ α := fun site =>
  let (answer, site) := run site
  (answer.mapError .engine, site)

/-- The outcome of a task; an engine that fails counts as one that finds nothing. -/
def skipEngineFault (task : Task σ (Option α)) : Task σ (Option α) := fun site =>
  match task site with
  | (.error (.engine .endless), site) => (.error (.engine .endless), site)
  | (.error (.engine _), site) => (.ok none, site)
  | other => other

end Task

end FuzzBridge
