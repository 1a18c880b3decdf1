import Mathlib.Algebra.Order.BigOperators.Group.List
import FuzzBridge.Proofs.Dataflow.Graph

/-!
Which sequences go on growing. A function that can be put before a sequence can be put before the
longer one again, so only sequences of one call are ever lost.
-/

namespace FuzzBridge.Frontier

variable {contract : String} {dependencies : List Dependency} {graph : Graph} {rounds : Nat}

theorem growBy_add (frontier : Frontier) (rounds more : Nat) :
    frontier.growBy (rounds + more) = (frontier.growBy rounds).growBy more := by
  induction rounds generalizing frontier with
  | zero => rw [Nat.zero_add, growBy]
  | succ rounds ih => rw [Nat.add_right_comm, growBy, ih, growBy]

theorem sequences_grow (graph : Graph) (rounds : Nat) :
    ((start graph).growBy (rounds + 1)).sequences =
      ((start graph).growBy rounds).sequences.flatMap (successors graph) := by
  rw [growBy_add, growBy, growBy, grow, graph_growBy]
  rfl

theorem mem_sequences_iff {sequence : List Nat} :
    sequence ∈ ((start graph).growBy rounds).sequences ↔ graph.IsGrown rounds sequence := by
  have begun : IsComplete (start graph).graph 0 (start graph).sequences := isComplete_start graph
  have complete := isComplete_growBy begun rounds
  rw [Nat.zero_add] at complete
  exact complete.mem_iff sequence

/-- What could be put before a sequence still can when it has been. -/
theorem impacting_cons_of_mem {first : Nat} {sequence : List Nat}
    (impacts : first ∈ impacting graph sequence) :
    first ∈ impacting graph (first :: sequence) := by
  obtain ⟨valid, node, member, parent⟩ := mem_impacting.1 impacts
  exact mem_impacting.2 ⟨valid, node, List.mem_cons_of_mem _ member, parent⟩

theorem isGrown_again {first : Nat} {rest : List Nat}
    (grown : graph.IsGrown (rounds + 1) (first :: rest)) :
    graph.IsGrown (rounds + 2) (first :: first :: rest) :=
  isGrown_cons.2 ⟨impacting_cons_of_mem (isGrown_cons.1 grown).1, grown⟩

theorem exists_successor {sequence : List Nat} (grown : graph.IsGrown (rounds + 1) sequence) :
    ∃ longer ∈ successors graph sequence, graph.IsGrown (rounds + 2) longer := by
  obtain ⟨first, rest, rfl⟩ := List.exists_cons_of_length_eq_add_one grown.length
  have again := isGrown_again grown
  exact ⟨_, List.mem_map_of_mem (isGrown_cons.1 again).1, again⟩

theorem exists_isGrown_iff (closed : graph.IsClosed) :
    (∃ sequence, graph.IsGrown (rounds + 1) sequence) ↔
      ∃ node ∈ graph.nodes, node.parents ≠ [] := by
  constructor
  · rintro ⟨sequence, grown⟩
    obtain ⟨first, rest, rfl⟩ := List.exists_cons_of_length_eq_add_one grown.length
    obtain ⟨-, node, -, parent⟩ := mem_impacting.1 (isGrown_cons.1 grown).1
    unfold Graph.parents at parent
    split at parent
    · next entry known =>
      exact ⟨entry, List.mem_of_getElem? known, List.ne_nil_of_mem parent⟩
    · cases parent
  · rintro ⟨entry, listed, some⟩
    obtain ⟨node, known⟩ := List.getElem?_of_mem listed
    obtain ⟨parent, member⟩ := List.exists_mem_of_ne_nil _ some
    have member : parent ∈ graph.parents node := by rwa [Graph.parents, known]
    induction rounds with
    | zero =>
      have valid : node < graph.size := (List.getElem?_eq_some_iff.1 known).1
      have impacts : parent ∈ impacting graph [node] :=
        mem_impacting.2 ⟨closed node parent member, node, by simp, member⟩
      exact ⟨[parent, node], isGrown_cons.2 ⟨impacts, isGrown_zero.2 ⟨node, valid, rfl⟩⟩⟩
    | succ rounds ih =>
      obtain ⟨sequence, grown⟩ := ih
      obtain ⟨longer, -, grown⟩ := exists_successor grown
      exact ⟨longer, grown⟩

theorem length_sequences_le (later : 1 ≤ rounds) :
    ((start graph).growBy rounds).sequences.length ≤
      ((start graph).growBy (rounds + 1)).sequences.length := by
  obtain ⟨rounds, rfl⟩ := Nat.exists_eq_add_of_le' later
  rw [sequences_grow graph (rounds + 1), List.length_flatMap]
  refine (List.length_map _).symm.trans_le (List.length_le_sum_of_one_le _ ?_)
  intro count counted
  obtain ⟨sequence, member, rfl⟩ := List.mem_map.1 counted
  obtain ⟨longer, successor, -⟩ := exists_successor (mem_sequences_iff.1 member)
  exact List.length_pos_of_mem successor

theorem sequences_stay_empty (frontier : Frontier) (lost : frontier.sequences = []) (more : Nat) :
    (frontier.growBy more).sequences = [] := by
  induction more generalizing frontier with
  | zero => exact lost
  | succ more ih => exact ih frontier.grow (by rw [grow, lost, List.flatMap_nil])

/-- From the first round on, a sequence is never lost: there are some exactly if a function has a
parent, each of them has a successor, and their number does not fall. What is empty stays so. -/
theorem sequences_lost_first (contract : String) (dependencies : List Dependency) (graph : Graph)
    (built : Graph.ofDependencies? contract dependencies = .ok graph) (rounds : Nat)
    (later : 1 ≤ rounds) :
    let sequences := fun rounds => ((start graph).growBy rounds).sequences
    (sequences rounds = [] ↔ ∀ node ∈ graph.nodes, node.parents = []) ∧
      (∀ sequence ∈ sequences rounds,
        ∃ longer ∈ successors graph sequence, longer ∈ sequences (rounds + 1)) ∧
      (∀ more, (sequences rounds).length ≤ (sequences (rounds + more)).length) ∧
      ∀ earlier more, sequences earlier = [] → sequences (earlier + more) = [] := by
  intro sequences
  have closed := Graph.isClosed_of_ofDependencies? built
  refine ⟨?_, ?_, fun more => ?_, fun earlier more lost => ?_⟩
  · obtain ⟨rounds, rfl⟩ := Nat.exists_eq_add_of_le' later
    rw [List.eq_nil_iff_forall_not_mem]
    simp only [sequences, mem_sequences_iff]
    rw [← not_exists, exists_isGrown_iff closed]
    simp
  · intro sequence member
    obtain ⟨rounds, rfl⟩ := Nat.exists_eq_add_of_le' later
    obtain ⟨longer, successor, grown⟩ := exists_successor (mem_sequences_iff.1 member)
    exact ⟨longer, successor, mem_sequences_iff.2 grown⟩
  · induction more with
    | zero => exact Nat.le_refl _
    | succ more ih => exact ih.trans (length_sequences_le (Nat.le_add_right_of_le later))
  · simp only [sequences, growBy_add (start graph) earlier more]
    exact sequences_stay_empty _ lost more

theorem sequences_lost_first_vault :
    Graph.ofDependencies? "Vault" Graph.vault = .ok Graph.vaultGraph ∧ 1 ≤ 2 ∧
      ((start Graph.vaultGraph).growBy 2).sequences ≠ [] ∧
      ∀ more, ((start Graph.vaultGraph).growBy 2).sequences.length ≤
        ((start Graph.vaultGraph).growBy (2 + more)).sequences.length := by
  have built : Graph.ofDependencies? "Vault" Graph.vault = .ok Graph.vaultGraph := rfl
  obtain ⟨empty, -, longer, -⟩ :=
    sequences_lost_first "Vault" Graph.vault Graph.vaultGraph built 2 (by decide)
  refine ⟨built, by decide, fun none => ?_, longer⟩
  exact absurd (empty.1 none ⟨"get()", [2]⟩ List.mem_cons_self) (List.cons_ne_nil _ _)

end FuzzBridge.Frontier
