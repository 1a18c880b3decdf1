import FuzzBridge.Campaign.Site
import FuzzBridge.Corpus.Entry

/-!
Solving: every entry goes to the solver, and a model comes back as a new entry. What a solver has
made is not given to it again.
-/

namespace FuzzBridge

variable {σ : Type}

def solveEntry (solver : Solver σ) (path : String) : Task σ (Option String) := do
  let steps ← Task.look fun storage => Corpus.loadEntry storage path
  match ← Task.engine (solver steps) with
  | none => return none
  | some model => some <$> Task.change fun storage => Corpus.storeSolved storage path model

def isSolvedName (name : String) : Bool := name.startsWith Corpus.solvedStem

/-- The new entries of a list of entries. One that the solver fails on is skipped. -/
def solveEntries (solver : Solver σ) : List String → Task σ (List String)
  | [] => return []
  | path :: rest => do
    let solved ← Task.skipEngineFault (solveEntry solver path)
    return solved.toList ++ (← solveEntries solver rest)

def solveFolder (solver : Solver σ) (folder : String) : Task σ (List String) := do
  let names ← Task.look fun storage => Corpus.entryNames storage folder
  solveEntries solver ((names.filter (!isSolvedName ·)).map (Path.join folder))

structure RoundSummary where
  cases : List (List String)
  uniqueCounters : Nat
  solved : List String

/-- One campaign of the fuzzer, and then a pass of the solver over its corpus, if there is one. -/
def fuzzRound (fuzzer : Fuzzer σ) (solver : Solver σ) (corpus : String) : Task σ RoundSummary := do
  let report ← Task.engine fuzzer
  let folder ← Task.look fun storage => .ok (Corpus.entryFolder storage corpus)
  let solved ← if ← Task.look fun storage => .ok (storage.isFolder folder) then
      solveFolder solver folder
    else pure []
  return ⟨report.cases, report.uniqueCounters, solved⟩

end FuzzBridge
