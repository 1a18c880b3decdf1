import FuzzBridge.Proofs.Campaign.Solving
import FuzzBridge.Proofs.Corpus.Variables

/-!
Any number of passes of a solver over a folder. All that passes do to the storage is that they make
solutions, one after the other, and solutions are not presented again; so every pass presents the
entries that were there at first.
-/

namespace FuzzBridge

open Corpus (entryEnding entryNames isEntryName loadEntry namesAt readEntry solvedStem)
open Storage (Creates childKey numbered)

variable {σ : Type} {solve : List Step → σ → Finding × σ} {folder key name : String}
  {names others : List String} {before middle after site : Site σ}
  {presented sequences : List (List Step)} {findings later : List Finding}
  {created files : List (Nat × Bytes)}

/-! What is read of an entry. -/

theorem loadEntry_congr {left right : Storage} {path : String}
    (same : ∀ node, left.find path = .ok node ↔ right.find path = .ok node) {steps : List Step} :
    loadEntry left path = .ok steps ↔ loadEntry right path = .ok steps := by
  simp only [loadEntry, Result.bind_eq_ok, Corpus.readEntry_congr same]

theorem IsSolution.congr {left right : Storage} {path : String}
    (same : ∀ node, left.find path = .ok node ↔ right.find path = .ok node) {model : Assignment}
    {content : Bytes} (solution : IsSolution left path model content) :
    IsSolution right path model content := by
  obtain ⟨records, filled, read, each, bytes⟩ := solution
  exact ⟨records, filled, (Corpus.readEntry_congr same).1 read, each, bytes⟩

theorem isSolvedName_numbered (number : Nat) :
    isSolvedName (numbered solvedStem entryEnding number) := by
  rw [isSolvedName, String.startsWith_string_iff, Storage.toList_numbered]
  exact List.prefix_append _ _

theorem find_of_solutions {left right : Storage} (rooted : left.IsRooted)
    (within : left.IsFolderAt folder key)
    (creates : Creates (Path.join (Path.trimmed folder) solvedStem) entryEnding left created right)
    (isName : Path.IsName name) (unsolved : isSolvedName name = false) (node : StoredNode) :
    right.find (Path.join folder name) = .ok node ↔ left.find (Path.join folder name) = .ok node :=
  creates.find_join isStem_solvedStem rooted (within.trimmed rooted) within isName
    fun number same => by rw [← same, isSolvedName_numbered] at unsolved; cases unsolved

theorem fst_mem_of_mem_answers {answer : String × Assignment}
    (member : answer ∈ answers names findings) : answer.1 ∈ names := by
  obtain ⟨⟨name, finding⟩, pair, kept⟩ := List.mem_filterMap.1 member
  split at kept
  · next same =>
    obtain rfl := Option.some.inj kept
    obtain ⟨rfl, -⟩ := Prod.mk.inj same
    exact (List.of_mem_zip pair).1
  · cases kept

namespace IsPass

theorem nil (site : Site σ) : IsPass solve folder [] site site [] [] [] :=
  ⟨.nil, rfl, nofun, .done _, nofun, .nil⟩

theorem append (left : IsPass solve folder names before middle presented findings created)
    (right : IsPass solve folder others middle after sequences later files)
    (same : ∀ name ∈ others, ∀ node, middle.storage.find (Path.join folder name) = .ok node ↔
      before.storage.find (Path.join folder name) = .ok node) :
    IsPass solve folder (names ++ others) before after (presented ++ sequences) (findings ++ later)
      (created ++ files) := by
  have length : names.length = findings.length := by
    have consulted := congrArg (List.length ∘ Prod.fst) left.consulted
    rw [Function.comp_apply, length_consult] at consulted
    exact left.loaded.length_eq.trans consulted
  have creates := left.creates.append right.creates
  refine ⟨?_, ?_, ?_, creates, creates.read_new, ?_⟩
  · have loaded := (List.forall₂_and_left _ _).2 ⟨same, right.loaded⟩
    exact List.rel_append left.loaded (loaded.imp fun name steps ⟨same, loaded⟩ =>
      (loadEntry_congr same).1 loaded)
  · rw [consult_append, left.consulted, right.consulted]
  · rw [List.mem_append, not_or]
    exact ⟨left.ended, right.ended⟩
  · rw [answers_append length]
    have solutions := (List.forall₂_and_left _ _).2
      ⟨fun answer member => same answer.1 (fst_mem_of_mem_answers member), right.solutions⟩
    exact List.rel_append left.solutions (solutions.imp fun answer file ⟨same, solution⟩ =>
      solution.congr same)

end IsPass

/-! One pass. -/

/-- How a pass over some entries ends: all of them are done, or one of them stops it. -/
inductive PassOutcome (solve : List Step → σ → Finding × σ) (folder : String) (names : List String)
    (before : Site σ) : Except Fault (List String) × Site σ → Prop
  | done {after : Site σ} {presented : List (List Step)} {findings : List Finding}
      {created : List (Nat × Bytes)}
      (pass : IsPass solve folder names before after presented findings created) :
      PassOutcome solve folder names before
        (.ok (created.map fun file => solvedPath folder file.1), after)
  | stopped {fault : Fault} (front : List String) {back : List String} {name : String}
      {middle after : Site σ} {presented : List (List Step)} {findings : List Finding}
      {created : List (Nat × Bytes)}
      (split : names = front ++ name :: back)
      (pass : IsPass solve folder front before middle presented findings created)
      (blocked : IsBlocked solve folder middle.storage name)
      (kept : after.storage = middle.storage) :
      PassOutcome solve folder names before (.error fault, after)

theorem solveEntries_cons_run (solver : Solver σ) (path : String) (rest : List String)
    (site : Site σ) :
    solveEntries solver (path :: rest) site =
      match Task.skipEngineFault (solveEntry solver path) site with
      | (.error fault, middle) => (.error fault, middle)
      | (.ok solved, middle) => match solveEntries solver rest middle with
        | (.error fault, after) => (.error fault, after)
        | (.ok others, after) => (.ok (solved.toList ++ others), after) := by
  rw [solveEntries, Task.bind_run]
  rcases Task.skipEngineFault (solveEntry solver path) site with ⟨fault | solved, middle⟩
  · rfl
  · dsimp only
    rw [Task.bind_run]
    rcases solveEntries solver rest middle with ⟨fault | others, after⟩ <;> rfl

theorem solveEntries_run (rooted : before.storage.IsRooted)
    (within : before.storage.IsFolderAt folder key)
    (each : ∀ name ∈ names, Path.IsName name ∧ isSolvedName name = false) :
    PassOutcome solve folder names before
      (solveEntries (Solver.ofMemory solve) (names.map (Path.join folder)) before) := by
  induction names generalizing before with
  | nil => exact .done (.nil before)
  | cons name rest ih =>
    rw [List.forall_mem_cons] at each
    rw [List.map_cons, solveEntries_cons_run]
    rcases run : Task.skipEngineFault
      (solveEntry (Solver.ofMemory solve) (Path.join folder name)) before with ⟨outcome, middle⟩
    rcases entry_step rooted within each.1.1 run with
      ⟨solved, presented, findings, created, rfl, first, paths⟩ | ⟨fault, rfl, kept, blocked⟩
    · have same (name : String) (member : name ∈ rest) :=
        find_of_solutions rooted within first.creates (each.2 name member).1 (each.2 name member).2
      have keeps := first.creates.keeps
      have remaining := ih (keeps.isRooted rooted) (keeps.isFolderAt within) each.2
      rcases others : solveEntries (Solver.ofMemory solve) (rest.map (Path.join folder)) middle
        with ⟨outcome, after⟩
      rw [others] at remaining
      simp only [others]
      cases remaining with
      | done pass =>
        have whole := PassOutcome.done (first.append pass same)
        rw [List.map_append, ← paths] at whole
        exact whole
      | @stopped _ front _ _ _ _ _ _ _ split pass blocked kept =>
        subst split
        have before := first.append pass fun name member =>
          same name (List.mem_append_left _ member)
        exact .stopped (name :: front) rfl before blocked kept
    · exact .stopped [] rfl (.nil before) blocked kept

/-! Any number of passes. -/

/-- What a pass leaves behind, however it ends. -/
def afterPass (solve : List Step → σ → Finding × σ) (folder : String) (site : Site σ) : Site σ :=
  (solveFolder (Solver.ofMemory solve) folder site).2

theorem solveFolder_run (solver : Solver σ) (listed : entryNames site.storage folder = .ok names) :
    solveFolder solver folder site =
      solveEntries solver ((names.filter (!isSolvedName ·)).map (Path.join folder)) site := by
  rw [solveFolder, Task.bind_run]
  simp only [Task.look, listed]

/-- However a pass ends, it has only made solutions. -/
theorem PassOutcome.exists_creates {outcome : Except Fault (List String) × Site σ}
    (ended : PassOutcome solve folder names before outcome) :
    ∃ created, Creates (Path.join (Path.trimmed folder) solvedStem) entryEnding before.storage
      created outcome.2.storage := by
  cases ended with
  | done pass => exact ⟨_, pass.creates⟩
  | stopped _ _ pass _ kept => exact ⟨_, by rw [kept]; exact pass.creates⟩

variable {start : Site σ}

theorem entryNames_of_solutions (rooted : start.storage.IsRooted)
    (listed : entryNames start.storage folder = .ok names)
    (creates : Creates (Path.join (Path.trimmed folder) solvedStem) entryEnding start.storage
      created site.storage) :
    ∃ others, entryNames site.storage folder = .ok others ∧
      others.filter (!isSolvedName ·) = names.filter (!isSolvedName ·) := by
  have keeps := creates.keeps
  rcases Corpus.entryNames_eq_ok.1 listed with ⟨key, within, rfl⟩ | ⟨⟨asksFolder, outside⟩, rfl⟩
  · have leftOut (number : Nat) :
        (!isSolvedName (numbered solvedStem entryEnding number)) = false := by
      rw [isSolvedName_numbered]
      rfl
    have same := creates.children_filter isStem_solvedStem rooted (within.trimmed rooted)
      (fun name => !isSolvedName name) leftOut
    refine ⟨_, Corpus.entryNames_of_isFolderAt (keeps.isFolderAt within), ?_⟩
    rw [Corpus.filter_namesAt site.storage, same, Corpus.filter_namesAt start.storage]
  · have outside := keeps.folders.locate_eq_ok.1 outside
    exact ⟨[], Corpus.entryNames_eq_ok.2 (.inr ⟨⟨asksFolder, outside⟩, rfl⟩), rfl⟩

theorem isName_of_mem_entryNames (listed : entryNames site.storage folder = .ok names)
    (member : name ∈ names) :
    Path.IsName name ∧ ∃ key, site.storage.IsFolderAt folder key := by
  rcases Corpus.entryNames_eq_ok.1 listed with ⟨key, within, rfl⟩ | ⟨-, rfl⟩
  · obtain ⟨⟨plain, isEntry⟩, -⟩ := Corpus.mem_namesAt.1 member
    exact ⟨Corpus.isName_of_isEntryName plain isEntry, key, within⟩
  · cases member

theorem solveFolder_outcome (solve : List Step → σ → Finding × σ) (rooted : site.storage.IsRooted)
    (listed : entryNames site.storage folder = .ok names) :
    PassOutcome solve folder (names.filter (!isSolvedName ·)) site
      (solveFolder (Solver.ofMemory solve) folder site) := by
  rw [solveFolder_run _ listed]
  by_cases none : names.filter (!isSolvedName ·) = []
  · rw [none]
    exact .done (.nil site)
  · obtain ⟨name, member⟩ := List.exists_mem_of_ne_nil _ none
    obtain ⟨-, key, within⟩ := isName_of_mem_entryNames listed (List.mem_filter.1 member).1
    refine solveEntries_run rooted within fun name member => ?_
    obtain ⟨member, unsolved⟩ := List.mem_filter.1 member
    exact ⟨(isName_of_mem_entryNames listed member).1, by simpa using unsolved⟩

theorem exists_creates_iterate (solve : List Step → σ → Finding × σ)
    (rooted : start.storage.IsRooted) (listed : entryNames start.storage folder = .ok names)
    (rounds : Nat) :
    ∃ created, Creates (Path.join (Path.trimmed folder) solvedStem) entryEnding start.storage
      created ((afterPass solve folder)^[rounds] start).storage := by
  induction rounds with
  | zero => exact ⟨[], .done _⟩
  | succ rounds ih =>
    obtain ⟨created, creates⟩ := ih
    obtain ⟨others, again, -⟩ := entryNames_of_solutions rooted listed creates
    obtain ⟨files, more⟩ :=
      (solveFolder_outcome solve (creates.keeps.isRooted rooted) again).exists_creates
    rw [Function.iterate_succ_apply']
    exact ⟨created ++ files, creates.append more⟩

theorem IsPass.length_created
    (pass : IsPass solve folder names before after presented findings created) :
    created.length ≤ names.length := by
  rw [← pass.solutions.length_eq]
  refine Nat.le_trans (List.length_filterMap_le _ _) ?_
  rw [List.length_zip]
  exact Nat.min_le_left _ _

theorem solveFolder_succeeds (rooted : site.storage.IsRooted)
    (listed : entryNames site.storage folder = .ok names)
    (readable : ∀ name ∈ names.filter (!isSolvedName ·),
      ∃ steps, loadEntry site.storage (Path.join folder name) = .ok steps)
    (ends : ∀ steps memory, (solve steps memory).1 ≠ .error .endless)
    (room : site.storage.HasRoom (Path.trimmed folder) solvedStem entryEnding
      (names.filter (!isSolvedName ·)).length) :
    ∃ solved, (solveFolder (Solver.ofMemory solve) folder site).1 = .ok solved := by
  have outcome := solveFolder_outcome solve rooted listed
  generalize solveFolder (Solver.ofMemory solve) folder site = ended at outcome
  cases outcome with
  | done pass => exact ⟨_, rfl⟩
  | @stopped _ front back name middle _ _ _ created split pass blocked kept =>
    have member : name ∈ names.filter (!isSolvedName ·) := by simp [split]
    obtain ⟨isEntry, unsolved⟩ := List.mem_filter.1 member
    obtain ⟨isName, key, within⟩ := isName_of_mem_entryNames listed isEntry
    cases blocked with
    | unreadable unread =>
      have same := find_of_solutions rooted within pass.creates isName (by simpa using unsolved)
      obtain ⟨steps, loaded⟩ := readable name member
      exact absurd ((loadEntry_congr same).2 loaded) (unread steps)
    | endless steps memory stuck => exact absurd stuck (ends steps memory)
    | full noRoom =>
      have fewer := pass.length_created
      rw [split, List.length_append, List.length_cons] at room
      exact absurd (pass.creates.hasRoom isStem_solvedStem rooted (within.trimmed rooted)
        (room.mono (by omega))) noRoom

/-- Passes only add files, and never present what they have added. Every pass presents the entries
of the folder that are no solutions, in the order of their names; these are the same, with the same
steps, as before the first pass. It ends as `PassOutcome` says, so that every file it has made can
be read; everything that stood before is left as it was; and it succeeds unless an entry cannot be
read, the solver does not end, or there is no room for another file. -/
theorem solveFolder_adds_solutions (solve : List Step → σ → Finding × σ) {start : Site σ}
    {folder : String} {names : List String} (rooted : start.storage.IsRooted)
    (listed : entryNames start.storage folder = .ok names) (rounds : Nat) :
    let site := (afterPass solve folder)^[rounds] start
    let unsolved := names.filter (!isSolvedName ·)
    start.storage.Keeps site.storage ∧
      site.storage.Keeps (afterPass solve folder site).storage ∧
      (unsolved.Pairwise (· < ·) ∧
        ∀ key, site.storage.IsFolderAt folder key → ∀ name, name ∈ unsolved ↔
          ('/' ∉ name.toList ∧ isEntryName name ∧ isSolvedName name = false) ∧
            ∃ content, site.storage.node? (childKey key name) = some (.file content)) ∧
      (∀ name ∈ unsolved, ∀ steps, loadEntry site.storage (Path.join folder name) = .ok steps ↔
        loadEntry start.storage (Path.join folder name) = .ok steps) ∧
      PassOutcome solve folder unsolved site (solveFolder (Solver.ofMemory solve) folder site) ∧
      ((∀ name ∈ unsolved, ∃ steps, loadEntry start.storage (Path.join folder name) = .ok steps) →
        (∀ steps memory, (solve steps memory).1 ≠ .error .endless) →
        site.storage.HasRoom (Path.trimmed folder) solvedStem entryEnding unsolved.length →
        ∃ solved, (solveFolder (Solver.ofMemory solve) folder site).1 = .ok solved) := by
  intro site unsolved
  obtain ⟨created, creates⟩ := exists_creates_iterate solve rooted listed rounds
  obtain ⟨others, again, same⟩ := entryNames_of_solutions rooted listed creates
  have rootedSite := creates.keeps.isRooted rooted
  have outcome := solveFolder_outcome solve rootedSite again
  rw [same] at outcome
  obtain ⟨files, more⟩ := outcome.exists_creates
  have loads : ∀ name ∈ unsolved, ∀ steps,
      loadEntry site.storage (Path.join folder name) = .ok steps ↔
        loadEntry start.storage (Path.join folder name) = .ok steps := by
    intro name member steps
    obtain ⟨member, unsolved⟩ := List.mem_filter.1 member
    obtain ⟨isName, key, within⟩ := isName_of_mem_entryNames listed member
    exact loadEntry_congr (find_of_solutions rooted within creates isName (by simpa using unsolved))
  refine ⟨creates.keeps, more.keeps, ⟨(Corpus.entryNames_sorted listed).filter _,
    fun key within name => ?_⟩, loads, outcome, fun readable ends room => ?_⟩
  · obtain rfl := Except.ok.inj ((Corpus.entryNames_of_isFolderAt within).symm.trans again)
    change name ∈ names.filter _ ↔ _
    rw [← same, List.mem_filter, Corpus.mem_namesAt, Bool.not_eq_true']
    constructor
    · rintro ⟨⟨⟨plain, isEntry⟩, there⟩, unsolved⟩
      exact ⟨⟨plain, isEntry, unsolved⟩, there⟩
    · rintro ⟨⟨plain, isEntry, unsolved⟩, there⟩
      exact ⟨⟨⟨plain, isEntry⟩, there⟩, unsolved⟩
  · refine solveFolder_succeeds rootedSite again ?_ ends (same ▸ room)
    rw [same]
    intro name member
    obtain ⟨steps, loaded⟩ := readable name member
    exact ⟨steps, (loads name member steps).2 loaded⟩

/-- A solver that counts the sequences it is given and has the same model for each. -/
def eager (_ : List Step) (count : Nat) : Finding × Nat :=
  (.ok (some Record.depositModel), count + 1)

theorem entryNames_twice : entryNames Corpus.twice "." = .ok ["twice.txt"] := by
  have within : Corpus.twice.IsFolderAt "." "" := ⟨⟨false, rfl⟩, rfl⟩
  have isEntry : isEntryName "twice.txt" := Corpus.isEntryName_iff.2 ⟨by decide, by decide⟩
  have children : Corpus.twice.children "" = [("twice.txt", .file _)] := rfl
  rw [Corpus.entryNames_of_isFolderAt within, namesAt, children,
    List.filterMap_cons_some (Corpus.entryName?_eq_some.2 ⟨isEntry, _, rfl⟩)]
  rfl

theorem solveFolder_adds_solutions_twice :
    (∃ solved,
      (solveFolder (Solver.ofMemory eager) "." (Site.start Corpus.twice 0)).1 = .ok solved) ∧
      Corpus.twice.Keeps ((afterPass eager ".")^[2] (Site.start Corpus.twice 0)).storage := by
  have rooted : (Site.start Corpus.twice 0).storage.IsRooted := ⟨by decide, by decide⟩
  have names : ["twice.txt"].filter (!isSolvedName ·) = ["twice.txt"] := by
    have unsolved : isSolvedName "twice.txt" = false :=
      String.startsWith_string_eq_false_iff.2 (by decide)
    rw [List.filter_cons_of_pos (by rw [unsolved]; rfl), List.filter_nil]
  have loaded : loadEntry Corpus.twice "./twice.txt" = loadEntry Corpus.twice "twice.txt" := by
    have read : Corpus.twice.read "./twice.txt" = Corpus.twice.read "twice.txt" := by rfl
    rw [loadEntry, loadEntry, readEntry, readEntry, read]
  rw [Corpus.loadEntry_twice] at loaded
  have room : Corpus.twice.HasRoom "." solvedStem entryEnding 1 :=
    .of_short isStem_solvedStem (by decide) ⟨[0], by decide, by decide, by decide⟩
  obtain ⟨-, -, -, -, -, succeeds⟩ :=
    solveFolder_adds_solutions eager rooted entryNames_twice 0
  obtain ⟨kept, -⟩ :=
    solveFolder_adds_solutions eager rooted entryNames_twice 2
  refine ⟨succeeds ?_ ?_ ?_, kept⟩
  · rw [names]
    intro name member
    obtain rfl := List.mem_singleton.1 member
    exact ⟨_, loaded⟩
  · intro steps count stuck
    cases stuck
  · rw [names]
    exact room

end FuzzBridge
