import Mathlib.Algebra.GroupWithZero.Nat
import Mathlib.Data.List.Nodup
import FuzzBridge.Dataflow.Frontier

/-!
The sequences that a frontier holds after some rounds: those in which every call but the last may
change what a later call reads, each of them once, in the order of their reversals.
-/

namespace FuzzBridge

/-- A sequence of one call more than `rounds`, in which each of the first `rounds` calls is a parent
of a later one. -/
structure Graph.IsGrown (graph : Graph) (rounds : Nat) (sequence : List Nat) : Prop where
  length : sequence.length = rounds + 1
  valid : ∀ node ∈ sequence, node < graph.size
  feeds : ∀ i < rounds, ∃ j node later, i < j ∧ sequence[i]? = some node ∧
    sequence[j]? = some later ∧ node ∈ graph.parents later

namespace Frontier

variable {graph : Graph} {rounds : Nat}

theorem mem_impacting {sequence : List Nat} {parent : Nat} :
    parent ∈ impacting graph sequence ↔
      parent < graph.size ∧ ∃ node ∈ sequence, parent ∈ graph.parents node := by
  simp [impacting]

theorem isGrown_zero {sequence : List Nat} :
    graph.IsGrown 0 sequence ↔ ∃ node < graph.size, sequence = [node] := by
  constructor
  · intro grown
    obtain ⟨node, rfl⟩ := List.length_eq_one_iff.1 grown.length
    exact ⟨node, grown.valid node List.mem_cons_self, rfl⟩
  · rintro ⟨node, valid, rfl⟩
    exact ⟨rfl, by simpa using valid, fun i none => absurd none (Nat.not_lt_zero i)⟩

/-- A round puts a parent of some call before a sequence, and no other call. -/
theorem isGrown_cons {first : Nat} {rest : List Nat} :
    graph.IsGrown (rounds + 1) (first :: rest) ↔
      first ∈ impacting graph rest ∧ graph.IsGrown rounds rest := by
  rw [mem_impacting]
  constructor
  · intro grown
    have valid := List.forall_mem_cons.1 grown.valid
    refine ⟨⟨valid.1, ?_⟩, by simpa using grown.length, valid.2, ?_⟩
    · obtain ⟨j, node, later, after, at_first, at_later, parent⟩ :=
        grown.feeds 0 (Nat.succ_pos rounds)
      obtain ⟨j, rfl⟩ := Nat.exists_eq_add_of_lt after
      obtain rfl := Option.some.inj at_first
      exact ⟨later, List.mem_of_getElem? at_later, parent⟩
    · intro i lt
      obtain ⟨j, node, later, after, at_node, at_later, parent⟩ :=
        grown.feeds (i + 1) (Nat.succ_lt_succ lt)
      obtain ⟨j, rfl⟩ := Nat.exists_eq_add_of_lt after
      exact ⟨i + j + 1, node, later, by omega, at_node, by
        rwa [show i + 1 + j + 1 = i + j + 1 + 1 by omega, List.getElem?_cons_succ] at at_later,
        parent⟩
  · rintro ⟨⟨valid, later, member, parent⟩, grown⟩
    refine ⟨by simp [grown.length], List.forall_mem_cons.2 ⟨valid, grown.valid⟩, ?_⟩
    intro i lt
    cases i with
    | zero =>
      obtain ⟨j, at_later⟩ := List.getElem?_of_mem member
      exact ⟨j + 1, first, later, Nat.succ_pos j, rfl, at_later, parent⟩
    | succ i =>
      obtain ⟨j, node, later, after, at_node, at_later, parent⟩ :=
        grown.feeds i (Nat.lt_of_succ_lt_succ lt)
      exact ⟨j + 1, node, later, Nat.succ_lt_succ after, at_node, at_later, parent⟩

theorem append_lt_append {left right : List Nat} (length : left.length = right.length)
    (lt : left < right) (leftRest rightRest : List Nat) :
    left ++ leftRest < right ++ rightRest := by
  induction left generalizing right with
  | nil =>
    obtain rfl := List.length_eq_zero_iff.1 length.symm
    exact absurd lt (List.not_lt_nil [])
  | cons a left ih =>
    cases right with
    | nil => simp at length
    | cons b right =>
      rw [List.cons_append, List.cons_append, List.cons_lt_cons_iff]
      rcases List.cons_lt_cons_iff.1 lt with less | ⟨same, less⟩
      · exact .inl less
      · exact .inr ⟨same, ih (by simpa using length) less⟩

/-- The sequences are those that can be grown in so many rounds, in the order of their reversals. -/
structure IsComplete (graph : Graph) (rounds : Nat) (sequences : List (List Nat)) : Prop where
  mem_iff : ∀ sequence, sequence ∈ sequences ↔ graph.IsGrown rounds sequence
  sorted : sequences.Pairwise fun left right => left.reverse < right.reverse

theorem isComplete_start (graph : Graph) : IsComplete graph 0 (start graph).sequences where
  mem_iff sequence := by
    rw [isGrown_zero]
    simp [start, eq_comm]
  sorted := by
    rw [start, List.pairwise_map]
    exact List.pairwise_lt_range.imp fun less => List.cons_lt_cons_iff.2 (.inl less)

theorem isComplete_grow {sequences : List (List Nat)}
    (complete : IsComplete graph rounds sequences) :
    IsComplete graph (rounds + 1) (sequences.flatMap (successors graph)) where
  mem_iff sequence := by
    simp only [List.mem_flatMap, successors, List.mem_map]
    constructor
    · rintro ⟨rest, member, first, impacts, rfl⟩
      exact isGrown_cons.2 ⟨impacts, (complete.mem_iff rest).1 member⟩
    · intro grown
      obtain ⟨first, rest, rfl⟩ := List.exists_cons_of_length_eq_add_one grown.length
      obtain ⟨impacts, grown⟩ := isGrown_cons.1 grown
      exact ⟨rest, (complete.mem_iff rest).2 grown, first, impacts, rfl⟩
  sorted := by
    rw [List.pairwise_flatMap]
    constructor
    · intro rest _
      rw [successors, List.pairwise_map]
      refine (List.pairwise_lt_range.filter _).imp fun less => ?_
      rw [List.reverse_cons, List.reverse_cons]
      exact List.append_left_lt (List.cons_lt_cons_iff.2 (.inl less))
    · refine complete.sorted.imp_of_mem fun {left right} hleft hright less => ?_
      have leftLength := ((complete.mem_iff left).1 hleft).length
      have rightLength := ((complete.mem_iff right).1 hright).length
      simp only [successors, List.mem_map]
      rintro _ ⟨first, -, rfl⟩ _ ⟨other, -, rfl⟩
      rw [List.reverse_cons, List.reverse_cons]
      exact append_lt_append (by simp [leftLength, rightLength]) less _ _

@[simp] theorem graph_grow (frontier : Frontier) : frontier.grow.graph = frontier.graph := rfl

@[simp] theorem graph_growBy (frontier : Frontier) (rounds : Nat) :
    (frontier.growBy rounds).graph = frontier.graph := by
  induction rounds generalizing frontier with
  | zero => rfl
  | succ rounds ih => rw [growBy, ih, graph_grow]

theorem isComplete_growBy {frontier : Frontier}
    (complete : IsComplete frontier.graph rounds frontier.sequences) (more : Nat) :
    IsComplete frontier.graph (rounds + more) (frontier.growBy more).sequences := by
  induction more generalizing frontier rounds with
  | zero => exact complete
  | succ more ih =>
    have once : IsComplete frontier.grow.graph (rounds + 1) frontier.grow.sequences :=
      isComplete_grow complete
    have grown := ih once
    rw [graph_grow, Nat.add_right_comm, Nat.add_assoc] at grown
    exact grown

theorem isComplete_calls {frontier : Frontier}
    (complete : IsComplete frontier.graph rounds frontier.sequences) (calls : List Nat) :
    IsComplete frontier.graph (rounds + calls.sum) (calls.foldl growBy frontier).sequences := by
  induction calls generalizing frontier rounds with
  | nil => exact complete
  | cons call calls ih =>
    have first : IsComplete (frontier.growBy call).graph (rounds + call)
        (frontier.growBy call).sequences := by
      rw [graph_growBy]
      exact isComplete_growBy complete call
    have grown := ih first
    rw [graph_growBy, Nat.add_assoc] at grown
    rwa [List.foldl_cons, List.sum_cons]

theorem nodup_of_isComplete {sequences : List (List Nat)}
    (complete : IsComplete graph rounds sequences) : sequences.Nodup := by
  refine complete.sorted.imp ?_
  rintro left _ less rfl
  exact List.lt_irrefl _ less

theorem length_of_isComplete {frontier : Frontier}
    (complete : IsComplete graph rounds frontier.sequences) :
    frontier.length = if frontier.sequences = [] then 0 else rounds + 1 := by
  unfold length
  split
  · next empty => simp [empty]
  · next first rest sequences =>
    have grown := (complete.mem_iff first).1 (by simp [sequences])
    simp [sequences, grown.length]

/-- After any calls that make up so many rounds, the frontier holds exactly the sequences that can
be grown in these rounds, each of them once, in the order of their reversals. -/
theorem sequences_foldl_growBy (graph : Graph) (calls : List Nat) :
    let frontier := calls.foldl growBy (start graph)
    (∀ sequence, sequence ∈ frontier.sequences ↔ graph.IsGrown calls.sum sequence) ∧
      (∀ sequence, graph.IsGrown calls.sum sequence → frontier.sequences.count sequence = 1) ∧
      frontier.sequences.Pairwise (fun left right => left.reverse < right.reverse) ∧
      (∀ sequence ∈ frontier.sequences, sequence.length = calls.sum + 1) ∧
      frontier.length = if frontier.sequences = [] then 0 else calls.sum + 1 := by
  have begun : IsComplete (start graph).graph 0 (start graph).sequences := isComplete_start graph
  have complete := isComplete_calls begun calls
  rw [Nat.zero_add] at complete
  refine ⟨complete.mem_iff, fun sequence grown => ?_, complete.sorted, fun sequence member => ?_,
    length_of_isComplete complete⟩
  · exact List.count_eq_one_of_mem (nodup_of_isComplete complete)
      ((complete.mem_iff sequence).2 grown)
  · exact ((complete.mem_iff sequence).1 member).length

example :
    ((start ⟨"Vault", [⟨"init()", []⟩, ⟨"set()", [0]⟩, ⟨"get()", [1]⟩]⟩).growBy 2).sequences =
      [[0, 0, 1], [0, 1, 2], [1, 1, 2]] := by decide

end Frontier

end FuzzBridge
