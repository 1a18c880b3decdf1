import FuzzBridge.Campaign.Solving
import FuzzBridge.Proofs.Corpus.Entry
import FuzzBridge.Proofs.Record.Faults
import FuzzBridge.Proofs.Record.Substitution

/-!
Passes of a solver over a folder. What is preserved from one entry to the next is that everything
that stood before still stands, and that the entries which are still to come are read as before.
-/

namespace FuzzBridge

namespace Record

theorem fillFrom_eq_ok {model : Assignment} {position : Nat} {records filled : List Record} :
    fillFrom model position records = .ok filled ↔
      List.Forall₂ (fun entry filled => entry.1.fill model (transactionName entry.2) = .ok filled)
        (records.zipIdx position) filled := by
  induction records generalizing position filled with
  | nil =>
    rw [List.zipIdx_nil, List.forall₂_nil_left_iff]
    exact ⟨fun same => (Except.ok.inj same).symm, fun same => by rw [same]; rfl⟩
  | cons record rest ih =>
    rw [List.zipIdx_cons, List.forall₂_cons_left_iff, fillFrom, Result.bind_eq_ok]
    simp only [Result.bind_eq_ok, Result.pure_eq_ok, ih]
    constructor
    · rintro ⟨first, done, others, each, rfl⟩
      exact ⟨first, others, done, each, rfl⟩
    · rintro ⟨first, others, done, each, rfl⟩
      exact ⟨first, done, others, each, rfl⟩

theorem exists_fillFrom {position : Nat} {records : List Record} {steps : List Step}
    (lifted : liftFrom position records = .ok steps) (model : Assignment) :
    ∃ filled, fillFrom model position records = .ok filled := by
  induction records generalizing position steps with
  | nil => exact ⟨[], rfl⟩
  | cons record rest ih =>
    obtain ⟨step, first, lifted⟩ := Result.bind_eq_ok.1 lifted
    obtain ⟨others, lifted, -⟩ := Result.bind_eq_ok.1 lifted
    obtain ⟨filled, done⟩ := ih lifted
    obtain ⟨reading, reads, -⟩ := lift_eq_ok.1 first
    exact ⟨_, Result.bind_eq_ok.2 ⟨_, fill_eq_substitute reads model _,
      Result.bind_eq_ok.2 ⟨filled, done, rfl⟩⟩⟩

end Record

namespace Task

variable {σ α β : Type}

theorem bind_run (task : Task σ α) (next : α → Task σ β) (site : Site σ) :
    (task >>= next) site = match task site with
      | (.ok value, after) => next value after
      | (.error fault, after) => (.error fault, after) := by
  change (match task site with | (outcome, after) => ExceptT.bindCont next outcome after) = _
  rcases task site with ⟨_ | _, after⟩ <;> rfl

variable {task : Task σ (Option α)} {site after : Site σ}

theorem skip_ok {solved : Option α} (run : task site = (.ok solved, after)) :
    skipEngineFault task site = (.ok solved, after) := by
  rw [skipEngineFault, run]

theorem skip_engine {cause : EngineFault} (ended : cause ≠ .endless)
    (run : task site = (.error (.engine cause), after)) :
    skipEngineFault task site = (.ok none, after) := by
  rw [skipEngineFault, run]
  cases cause with
  | endless => exact absurd rfl ended
  | _ => rfl

theorem skip_endless (run : task site = (.error (.engine .endless), after)) :
    skipEngineFault task site = (.error (.engine .endless), after) := by
  rw [skipEngineFault, run]

theorem skip_internal {result : Result β} {fault : Fault} (internal : IsInternal result)
    (failed : result = .error fault) (run : task site = (.error fault, after)) :
    skipEngineFault task site = (.error fault, after) := by
  rw [skipEngineFault, run]
  cases fault with
  | engine cause => exact absurd failed (internal cause)
  | _ => rfl

end Task

open Corpus (entryBytes entryEnding loadEntry readEntry solvedStem)
open Storage (Creates numbered)

variable {σ : Type}

/-! What a solver says. -/

/-- What a solver says about some sequences, one after the other. -/
def consult (solve : List Step → σ → Finding × σ) : List (List Step) → σ → List Finding × σ
  | [], memory => ([], memory)
  | steps :: rest, memory =>
    let (finding, memory) := solve steps memory
    let (findings, memory) := consult solve rest memory
    (finding :: findings, memory)

/-- The entries for which there is a model, with the model. -/
def answers (names : List String) (findings : List Finding) : List (String × Assignment) :=
  (names.zip findings).filterMap fun
    | (name, .ok (some model)) => some (name, model)
    | _ => none

/-- Whether a file has the records of an entry, each filled in under the name of its position. -/
def IsSolution (storage : Storage) (path : String) (model : Assignment) (content : Bytes) : Prop :=
  ∃ records filled, readEntry storage path = .ok records ∧
    List.Forall₂ (fun entry filled => entry.1.fill model (transactionName entry.2) = .ok filled)
      records.zipIdx filled ∧
    content = entryBytes filled

/-- The paths of new files without their numbers: beside the entries of a folder. -/
def solvedPath (folder : String) (number : Nat) : String :=
  numbered (Path.join (Path.trimmed folder) solvedStem) entryEnding number

/-- What a pass over some entries of a folder does. Each entry is presented once, in order. For each
model that the solver finds there is one new file, under the smallest number that is free then,
which can be read afterwards; and nothing else changes. -/
structure IsPass (solve : List Step → σ → Finding × σ) (folder : String) (names : List String)
    (before after : Site σ) (presented : List (List Step)) (findings : List Finding)
    (created : List (Nat × Bytes)) : Prop where
  loaded : List.Forall₂
    (fun name steps => loadEntry before.storage (Path.join folder name) = .ok steps) names presented
  consulted : consult solve presented before.memory = (findings, after.memory)
  ended : Except.error .endless ∉ findings
  creates : Creates (Path.join (Path.trimmed folder) solvedStem) entryEnding before.storage created
    after.storage
  stored : ∀ file ∈ created, after.storage.read (solvedPath folder file.1) = .ok file.2
  solutions : List.Forall₂
    (fun answer file =>
      IsSolution before.storage (Path.join folder answer.1) answer.2 file.2)
    (answers names findings) created

theorem consult_append (solve : List Step → σ → Finding × σ) (left right : List (List Step))
    (memory : σ) :
    consult solve (left ++ right) memory =
      ((consult solve left memory).1 ++ (consult solve right (consult solve left memory).2).1,
        (consult solve right (consult solve left memory).2).2) := by
  induction left generalizing memory with
  | nil => rfl
  | cons steps rest ih => simp only [List.cons_append, consult, ih]

theorem length_consult (solve : List Step → σ → Finding × σ) (presented : List (List Step))
    (memory : σ) : (consult solve presented memory).1.length = presented.length := by
  induction presented generalizing memory with
  | nil => rfl
  | cons steps rest ih => simp only [consult, List.length_cons, ih]

theorem answers_append {left right : List String} {findings others : List Finding}
    (same : left.length = findings.length) :
    answers (left ++ right) (findings ++ others) =
      answers left findings ++ answers right others := by
  rw [answers, List.zip_append same, List.filterMap_append, answers, answers]

theorem isStem_solvedStem : Storage.IsStem solvedStem entryEnding :=
  ⟨by decide, by decide, by decide⟩

/-! One entry. -/

variable {solve : List Step → σ → Finding × σ} {folder key name : String} {names : List String}
  {before middle after site : Site σ} {presented : List (List Step)} {findings : List Finding}
  {created : List (Nat × Bytes)}

theorem storeSolved_eq_ok {storage written : Storage} {model : Assignment} {target : String}
    (nonempty : folder ≠ "") (isName : Path.IsName name) :
    Corpus.storeSolved storage (Path.join folder name) model = .ok (target, written) ↔
      ∃ number content, IsSolution storage (Path.join folder name) model content ∧
        Creates (Path.join (Path.trimmed folder) solvedStem) entryEnding storage [(number, content)]
          written ∧
        solvedPath folder number = target := by
  rw [Corpus.storeSolved, Path.parent?_join nonempty isName]
  constructor
  · intro h
    obtain ⟨records, read, h⟩ := Result.bind_eq_ok.1 h
    obtain ⟨filled, done, h⟩ := Result.bind_eq_ok.1 h
    obtain ⟨path, free, h⟩ := Result.bind_eq_ok.1 h
    obtain ⟨last, write, h⟩ := Result.bind_eq_ok.1 h
    cases h
    obtain ⟨number, first, rfl⟩ := Storage.freeName_eq_ok.1 free
    exact ⟨number, entryBytes filled, ⟨records, filled, read, Record.fillFrom_eq_ok.1 done, rfl⟩,
      .next first (Corpus.access_eq_ok.1 write) (.done _), rfl⟩
  · rintro ⟨number, _, ⟨records, filled, read, each, rfl⟩, creates, rfl⟩
    cases creates with
    | next first write more =>
      cases more
      refine Result.bind_eq_ok.2 ⟨records, read, ?_⟩
      refine Result.bind_eq_ok.2 ⟨filled, Record.fillFrom_eq_ok.2 each, ?_⟩
      refine Result.bind_eq_ok.2 ⟨_, Storage.freeName_eq_ok.2 ⟨number, first, rfl⟩, ?_⟩
      exact Result.bind_eq_ok.2 ⟨written, Corpus.access_eq_ok.2 write, rfl⟩

theorem solveEntry_run (solve : List Step → σ → Finding × σ) (path : String) (site : Site σ) :
    solveEntry (Solver.ofMemory solve) path site =
      match loadEntry site.storage path with
      | .error fault => (.error fault, site)
      | .ok steps => match solve steps site.memory with
        | (.error fault, memory) => (.error (.engine fault), { site with memory })
        | (.ok none, memory) => (.ok none, { site with memory })
        | (.ok (some model), memory) =>
          match Corpus.storeSolved site.storage path model with
          | .ok (target, storage) => (.ok (some target), { site with storage, memory })
          | .error fault => (.error fault, { site with memory }) := by
  rw [solveEntry, Task.bind_run]
  cases loaded : loadEntry site.storage path with
  | error fault => simp only [Task.look, loaded]
  | ok steps =>
    simp only [Task.look, loaded]
    rw [Task.bind_run]
    simp only [Task.engine, Solver.ofMemory]
    rcases solve steps site.memory with ⟨fault | none | model, memory⟩
    · rfl
    · rfl
    · simp only [Except.mapError]
      change (Task.change _ >>= _ : Task σ (Option String)) _ = _
      rw [Task.bind_run]
      simp only [Task.change]
      cases Corpus.storeSolved site.storage path model <;> rfl

/-- Why a pass ends before an entry is done: it cannot be read, or the solver cannot be given a
limit, or there is no room for another file. -/
inductive IsBlocked (solve : List Step → σ → Finding × σ) (folder : String) (storage : Storage)
    (name : String) : Prop
  | unreadable (unread : ∀ steps, loadEntry storage (Path.join folder name) ≠ .ok steps)
  | endless (steps : List Step) (memory : σ) (stuck : (solve steps memory).1 = .error .endless)
  | full (noRoom : ¬ storage.HasRoom (Path.trimmed folder) solvedStem entryEnding 1)

theorem IsPass.single {steps : List Step} {finding : Finding} {memory : σ} {storage : Storage}
    (loaded : loadEntry site.storage (Path.join folder name) = .ok steps)
    (found : solve steps site.memory = (finding, memory)) (ended : finding ≠ .error .endless)
    (creates : Creates (Path.join (Path.trimmed folder) solvedStem) entryEnding site.storage created
      storage)
    (solutions : List.Forall₂
      (fun answer file => IsSolution site.storage (Path.join folder answer.1) answer.2 file.2)
      (answers [name] [finding]) created) :
    IsPass solve folder [name] site { site with storage, memory } [steps] [finding] created where
  loaded := .cons loaded .nil
  consulted := by simp only [consult, found]
  ended := by simpa using ended.symm
  creates := creates
  stored := creates.read_new
  solutions := solutions

theorem IsPass.quiet {steps : List Step} {finding : Finding} {memory : σ}
    (loaded : loadEntry site.storage (Path.join folder name) = .ok steps)
    (found : solve steps site.memory = (finding, memory)) (ended : finding ≠ .error .endless)
    (none : answers [name] [finding] = []) :
    IsPass solve folder [name] site { site with memory } [steps] [finding] [] :=
  .single loaded found ended (.done _) (by rw [none]; exact .nil)

theorem exists_storeSolved {storage : Storage} {steps : List Step} (rooted : storage.IsRooted)
    (within : storage.IsFolderAt folder key) (isName : Path.IsName name)
    (loaded : loadEntry storage (Path.join folder name) = .ok steps)
    (room : storage.HasRoom (Path.trimmed folder) solvedStem entryEnding 1) (model : Assignment) :
    ∃ made, Corpus.storeSolved storage (Path.join folder name) model = .ok made := by
  obtain ⟨records, read, lifted⟩ := Result.bind_eq_ok.1 loaded
  obtain ⟨filled, done⟩ := Record.exists_fillFrom lifted model
  obtain ⟨created, written, contents, creates⟩ := Storage.exists_creates isStem_solvedStem
    [entryBytes filled] room rooted (within.trimmed rooted)
  obtain ⟨⟨number, content⟩, rfl, same⟩ := List.map_eq_singleton_iff.1 contents
  exact ⟨_, (storeSolved_eq_ok within.isSound.nonempty isName).2
    ⟨number, content, ⟨records, filled, read, Record.fillFrom_eq_ok.1 done, same⟩, creates, rfl⟩⟩

theorem IsInternal.storeSolved {storage : Storage} {path : String} {steps : List Step}
    (loaded : Corpus.loadEntry storage path = .ok steps) (model : Assignment) :
    IsInternal (Corpus.storeSolved storage path model) := by
  obtain ⟨records, read, lifted⟩ := Result.bind_eq_ok.1 loaded
  obtain ⟨filled, done⟩ := Record.exists_fillFrom lifted model
  have free (stem : String) : IsInternal (storage.freeName stem entryEnding) := by
    unfold Storage.freeName
    split
    · exact ok _
    · exact nofun
  rw [Corpus.storeSolved]
  exact bind_ok read (bind_ok done ((free _).bind fun _ => bind (access _) fun _ => ok _))

theorem storeSolved_step {steps : List Step} (rooted : site.storage.IsRooted)
    (within : site.storage.IsFolderAt folder key) (isName : Path.IsName name)
    (loaded : loadEntry site.storage (Path.join folder name) = .ok steps) (model : Assignment) :
    (∃ number content written,
      Corpus.storeSolved site.storage (Path.join folder name) model =
        .ok (solvedPath folder number, written) ∧
      IsSolution site.storage (Path.join folder name) model content ∧
      Creates (Path.join (Path.trimmed folder) solvedStem) entryEnding site.storage
        [(number, content)] written) ∨
    ∃ fault, Corpus.storeSolved site.storage (Path.join folder name) model = .error fault ∧
      ¬ site.storage.HasRoom (Path.trimmed folder) solvedStem entryEnding 1 := by
  cases stored : Corpus.storeSolved site.storage (Path.join folder name) model with
  | ok made =>
    obtain ⟨target, written⟩ := made
    obtain ⟨number, content, solution, creates, rfl⟩ :=
      (storeSolved_eq_ok within.isSound.nonempty isName).1 stored
    exact .inl ⟨number, content, written, rfl, solution, creates⟩
  | error fault =>
    refine .inr ⟨fault, rfl, fun room => ?_⟩
    obtain ⟨made, done⟩ := exists_storeSolved rooted within isName loaded room model
    rw [stored] at done
    cases done

/-- An entry is presented, and a model for it is written to one new file; or the pass ends there and
leaves all files as they are. -/
theorem entry_step (rooted : site.storage.IsRooted) (within : site.storage.IsFolderAt folder key)
    (isName : Path.IsName name) {outcome : Except Fault (Option String)}
    (run : Task.skipEngineFault (solveEntry (Solver.ofMemory solve) (Path.join folder name)) site =
      (outcome, after)) :
    (∃ solved presented findings created, outcome = .ok solved ∧
      IsPass solve folder [name] site after presented findings created ∧
      solved.toList = created.map fun file => solvedPath folder file.1) ∨
    ∃ fault, outcome = .error fault ∧ after.storage = site.storage ∧
      IsBlocked solve folder site.storage name := by
  have ran := solveEntry_run solve (Path.join folder name) site
  cases loaded : loadEntry site.storage (Path.join folder name) with
  | error fault =>
    rw [loaded] at ran
    rw [Task.skip_internal (.loadEntry site.storage _) loaded ran] at run
    cases run
    exact .inr ⟨fault, rfl, rfl, .unreadable (by rw [loaded]; nofun)⟩
  | ok steps =>
    rw [loaded] at ran
    rcases found : solve steps site.memory with ⟨cause | none | model, memory⟩
    · simp only [found] at ran
      by_cases endless : cause = .endless
      · subst endless
        rw [Task.skip_endless ran] at run
        cases run
        exact .inr ⟨_, rfl, rfl, .endless steps site.memory (by rw [found])⟩
      · rw [Task.skip_engine endless ran] at run
        cases run
        have ended : (Except.error cause : Finding) ≠ .error .endless :=
          fun same => endless (Except.error.inj same)
        exact .inl ⟨none, [steps], _, [], rfl, .quiet loaded found ended rfl, rfl⟩
    · simp only [found] at ran
      rw [Task.skip_ok ran] at run
      cases run
      exact .inl ⟨none, [steps], _, [], rfl, .quiet loaded found nofun rfl, rfl⟩
    · simp only [found] at ran
      rcases storeSolved_step rooted within isName loaded model with
        ⟨number, content, written, stored, solution, creates⟩ | ⟨fault, stored, noRoom⟩
      · simp only [stored] at ran
        rw [Task.skip_ok ran] at run
        cases run
        exact .inl ⟨some _, [steps], _, [(number, content)], rfl,
          .single loaded found nofun creates (.cons solution .nil), rfl⟩
      · simp only [stored] at ran
        rw [Task.skip_internal (.storeSolved loaded model) stored ran] at run
        cases run
        exact .inr ⟨fault, rfl, rfl, .full noRoom⟩

end FuzzBridge
