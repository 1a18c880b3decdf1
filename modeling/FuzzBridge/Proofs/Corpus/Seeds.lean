import FuzzBridge.Corpus.Seeds
import FuzzBridge.Proofs.Corpus.Entry
import FuzzBridge.Proofs.Corpus.RoundTrip
import FuzzBridge.Proofs.Corpus.Templates

/-!
Seeds are the templated sequences of a frontier, one new file each.
-/

namespace FuzzBridge.Corpus

open Storage (Creates numbered)
open Templates (calls)

variable {storage after : Storage} {folder key : String}

theorem isStem_seedStem : Storage.IsStem seedStem entryEnding := ⟨by decide, by decide, by decide⟩

theorem writeSeeds_eq_ok {seeds : List (List Record)} {paths : List String} :
    writeSeeds folder seeds storage = .ok (paths, after) ↔
      ∃ created, Creates (Path.join folder seedStem) entryEnding storage created after ∧
        created.map (·.2) = seeds.map entryBytes ∧
        (created.map fun file => numbered (Path.join folder seedStem) entryEnding file.1) =
          paths := by
  induction seeds generalizing storage paths with
  | nil =>
    constructor
    · intro h
      cases h
      exact ⟨[], .done _, rfl, rfl⟩
    · rintro ⟨created, creates, none, rfl⟩
      obtain rfl := List.map_eq_nil_iff.1 none
      cases creates
      rfl
  | cons records rest ih =>
    rw [writeSeeds, Result.bind_eq_ok]
    constructor
    · rintro ⟨path, free, h⟩
      obtain ⟨number, first, rfl⟩ := Storage.freeName_eq_ok.1 free
      obtain ⟨written, write, h⟩ := Result.bind_eq_ok.1 h
      obtain ⟨⟨others, last⟩, more, same⟩ := Result.bind_eq_ok.1 h
      cases same
      obtain ⟨created, creates, contents, rfl⟩ := ih.1 more
      exact ⟨(number, entryBytes records) :: created, .next first (access_eq_ok.1 write) creates,
        by rw [List.map_cons, List.map_cons, contents], rfl⟩
    · rintro ⟨created, creates, contents, rfl⟩
      cases creates with
      | done => cases contents
      | @next _ written _ number content others first write more =>
        obtain ⟨rfl, same⟩ := List.cons.inj contents
        refine ⟨_, Storage.freeName_eq_ok.2 ⟨number, first, rfl⟩, ?_⟩
        refine Result.bind_eq_ok.2 ⟨written, access_eq_ok.2 write, ?_⟩
        exact Result.bind_eq_ok.2 ⟨_, ih.2 ⟨others, more, same, rfl⟩, rfl⟩

/-- Whether each call of a sequence is one that some record makes. -/
def isTemplated (added : List Record) (graph : Graph) (sequence : List Nat) : Bool :=
  sequence.all fun node => (added.find? (calls (graph.signature node))).isSome

theorem isSome_records? (templates : Templates) (graph : Graph) (sequence : List Nat) :
    (templates.records? graph sequence).isSome =
      sequence.all fun node => (templates.find? (graph.signature node)).isSome := by
  rw [Templates.records?]
  induction sequence with
  | nil => rfl
  | cons node rest ih =>
    rw [List.mapM_cons, List.all_cons, ← ih]
    cases templates.find? (graph.signature node) with
    | none => rfl
    | some record => cases rest.mapM fun node => templates.find? (graph.signature node) <;> rfl

theorem forall₂_filterMap {α β : Type} (f : α → Option β) (list : List α) :
    List.Forall₂ (fun item value => f item = some value) (list.filter fun item => (f item).isSome)
      (list.filterMap f) := by
  induction list with
  | nil => exact .nil
  | cons item rest ih =>
    cases found : f item with
    | none => simpa [found] using ih
    | some value => simpa [found] using ih

def vault : Frontier where
  graph := ⟨"Vault", [⟨"deposit(uint8,bool[],bytes)", []⟩, ⟨"burn()", []⟩]⟩
  sequences := [[0], [1, 0], [0, 0]]

theorem unused_isRooted : unused.IsRooted := ⟨by decide, by decide⟩

theorem unused_isFolderAt : unused.IsFolderAt "." "" := ⟨⟨false, rfl⟩, rfl⟩

end FuzzBridge.Corpus
