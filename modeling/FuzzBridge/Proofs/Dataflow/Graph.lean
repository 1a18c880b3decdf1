import Mathlib.Data.List.Forall2
import FuzzBridge.Proofs.Dataflow.Frontier
import FuzzBridge.Proofs.Result

/-!
Graphs from lists of dependencies. A list makes no graph exactly where a function is listed twice or
a parent is not listed; otherwise the nodes are the functions in their order, and the parents of a
node are the places that its parents have in the list. No number that comes out of such a graph, by
its parents or by the sequences that grow on it, leads out of the graph.
-/

namespace FuzzBridge.Graph

variable {contract : String} {signatures : List String} {dependency : Dependency}
  {dependencies : List Dependency} {graph : Graph} {fault : GraphFault}

/-! Functions listed twice. -/

/-- The function stands a second time where the ones before it are all different. -/
def IsFirstRepeated (signatures : List String) (signature : String) : Prop :=
  ∃ before after, signatures = before ++ signature :: after ∧ before.Nodup ∧ signature ∈ before

theorem firstRepeated?_eq_none {seen : List String} :
    firstRepeated? seen signatures = none ↔
      signatures.Nodup ∧ ∀ signature ∈ signatures, signature ∉ seen := by
  induction signatures generalizing seen with
  | nil => simp [firstRepeated?]
  | cons first rest ih =>
    rw [firstRepeated?, List.nodup_cons, List.forall_mem_cons]
    by_cases known : first ∈ seen
    · simp [known]
    · rw [if_neg (by simpa using known), ih]
      simp only [List.mem_cons, not_or]
      grind

theorem exists_of_firstRepeated? {seen : List String} {signature : String}
    (h : firstRepeated? seen signatures = some signature) :
    ∃ before after, signatures = before ++ signature :: after ∧ before.Nodup ∧
      (∀ earlier ∈ before, earlier ∉ seen) ∧ (signature ∈ seen ∨ signature ∈ before) := by
  induction signatures generalizing seen with
  | nil => cases h
  | cons first rest ih =>
    rw [firstRepeated?] at h
    split at h
    · next known =>
      obtain rfl := Option.some.inj h
      exact ⟨[], rest, rfl, .nil, by simp, .inl (by simpa using known)⟩
    · next new =>
      obtain ⟨before, after, rfl, nodup, fresh, repeated⟩ := ih h
      have differs : first ∉ before := fun member => fresh first member List.mem_cons_self
      refine ⟨first :: before, after, rfl, List.nodup_cons.2 ⟨differs, nodup⟩, ?_, ?_⟩
      · exact List.forall_mem_cons.2 ⟨by simpa using new,
          fun earlier member old => fresh earlier member (List.mem_cons_of_mem _ old)⟩
      · rcases repeated with repeated | repeated
        · rcases List.mem_cons.1 repeated with rfl | old
          · exact .inr List.mem_cons_self
          · exact .inl old
        · exact .inr (List.mem_cons_of_mem _ repeated)

/-! Parents. -/

def ParentsListed (signatures : List String) (dependency : Dependency) : Prop :=
  ∀ parent ∈ dependency.2, parent ∈ signatures

/-- The first parent that is not listed, and the entry in which it stands. -/
structure IsFirstUnknown (signatures : List String) (dependencies : List Dependency)
    (dependency : Dependency) (parent : String) : Prop where
  entry : ∃ before after, dependencies = before ++ dependency :: after ∧
    ∀ earlier ∈ before, ParentsListed signatures earlier
  place : ∃ before after, dependency.2 = before ++ parent :: after ∧
    ∀ earlier ∈ before, earlier ∈ signatures
  unknown : parent ∉ signatures

theorem mem_positions {parents : List String} {place : Nat} :
    place ∈ positions signatures parents ↔
      ∃ parent ∈ parents, signatures[place]? = some parent := by
  unfold positions
  rw [List.mem_filter, List.mem_range]
  cases known : signatures[place]? with
  | none => simp
  | some signature => simp [(List.getElem?_eq_some_iff.1 known).1]

theorem positions_sorted (signatures parents : List String) :
    (positions signatures parents).Pairwise (· < ·) :=
  List.pairwise_lt_range.filter _

theorem positions_congr {left right : List String} (same : ∀ parent, parent ∈ left ↔ parent ∈ right)
    (signatures : List String) : positions signatures left = positions signatures right := by
  unfold positions
  congr
  funext place
  cases signatures[place]? with
  | none => rfl
  | some signature => simp [same signature]

/-- The node of a function whose parents are all listed. -/
def entryOf (signatures : List String) (dependency : Dependency) : Node :=
  ⟨dependency.1, positions signatures dependency.2⟩

theorem nodeOf_eq_ok {node : Node} :
    nodeOf contract signatures dependency = .ok node ↔
      ParentsListed signatures dependency ∧ entryOf signatures dependency = node := by
  unfold nodeOf
  split
  · next parent found =>
    have unknown : parent ∉ signatures := by simpa using List.find?_some found
    have listed := List.mem_of_find?_eq_some found
    exact ⟨nofun, fun known => absurd (known.1 parent listed) unknown⟩
  · next known =>
    have known : ParentsListed signatures dependency := by
      simpa [ParentsListed] using List.find?_eq_none.1 known
    exact Result.ok_eq_ok_iff known

theorem exists_of_nodeOf (h : nodeOf contract signatures dependency = .error fault) :
    ∃ parent, fault = .unknownParent dependency.1 parent contract ∧ parent ∉ signatures ∧
      ∃ before after, dependency.2 = before ++ parent :: after ∧
        ∀ earlier ∈ before, earlier ∈ signatures := by
  unfold nodeOf at h
  split at h
  · next parent found =>
    obtain rfl := Except.error.inj h
    obtain ⟨unknown, before, after, split, known⟩ := List.find?_eq_some_iff_append.1 found
    exact ⟨parent, rfl, by simpa using unknown, before, after, split, by simpa using known⟩
  · cases h

theorem nodesOf_eq_ok {nodes : List Node} :
    nodesOf contract signatures dependencies = .ok nodes ↔
      (∀ dependency ∈ dependencies, ParentsListed signatures dependency) ∧
        dependencies.map (entryOf signatures) = nodes := by
  induction dependencies generalizing nodes with
  | nil => exact Result.ok_eq_ok_iff (by simp)
  | cons first rest ih =>
    rw [nodesOf, Result.bind_eq_ok, List.forall_mem_cons, List.map_cons]
    constructor
    · rintro ⟨node, hnode, h⟩
      obtain ⟨others, hothers, h⟩ := Result.bind_eq_ok.1 h
      obtain rfl := Result.pure_eq_ok.1 h
      obtain ⟨known, rfl⟩ := nodeOf_eq_ok.1 hnode
      obtain ⟨restKnown, rfl⟩ := ih.1 hothers
      exact ⟨⟨known, restKnown⟩, rfl⟩
    · rintro ⟨⟨known, restKnown⟩, rfl⟩
      exact ⟨_, nodeOf_eq_ok.2 ⟨known, rfl⟩,
        Result.bind_eq_ok.2 ⟨_, ih.2 ⟨restKnown, rfl⟩, rfl⟩⟩

theorem exists_of_nodesOf (h : nodesOf contract signatures dependencies = .error fault) :
    ∃ dependency parent, IsFirstUnknown signatures dependencies dependency parent ∧
      fault = .unknownParent dependency.1 parent contract := by
  induction dependencies with
  | nil => cases h
  | cons first rest ih =>
    rw [nodesOf] at h
    cases hfirst : nodeOf contract signatures first with
    | error cause =>
      rw [hfirst] at h
      obtain rfl : cause = fault := Except.error.inj h
      obtain ⟨parent, rfl, unknown, place⟩ := exists_of_nodeOf hfirst
      exact ⟨first, parent, ⟨⟨[], rest, rfl, by simp⟩, place, unknown⟩, rfl⟩
    | ok node =>
      have known := (nodeOf_eq_ok.1 hfirst).1
      rw [hfirst] at h
      cases hrest : nodesOf contract signatures rest with
      | ok nodes =>
        simp [hrest, bind, Except.bind, pure, Except.pure] at h
      | error cause =>
        simp only [hrest, bind, Except.bind, Except.error.injEq] at h
        subst h
        obtain ⟨dependency, parent, ⟨⟨before, after, rfl, earlier⟩, place, unknown⟩, rfl⟩ :=
          ih hrest
        exact ⟨dependency, parent, ⟨⟨first :: before, after, rfl,
          List.forall_mem_cons.2 ⟨known, earlier⟩⟩, place, unknown⟩, rfl⟩

/-! Whole graphs. -/

theorem ofDependencies?_of_small (small : dependencies.length ≤ nodeLimit) :
    ofDependencies? contract dependencies =
      match firstRepeated? [] (dependencies.map (·.1)) with
      | some signature => .error (.repeated signature contract)
      | none => do return ⟨contract, ← nodesOf contract (dependencies.map (·.1)) dependencies⟩ := by
  have length : (dependencies.map (·.1)).length ≤ nodeLimit := by simpa using small
  have all := List.take_of_length_le length
  cases repeated : firstRepeated? [] (dependencies.map (·.1)) with
  | some signature => simp only [ofDependencies?, all, repeated]
  | none => simp only [ofDependencies?, all, repeated, if_neg (Nat.not_lt.2 length)]

theorem ofDependencies?_eq_ok :
    ofDependencies? contract dependencies = .ok graph ↔
      dependencies.length ≤ nodeLimit ∧ (dependencies.map (·.1)).Nodup ∧
        (∀ dependency ∈ dependencies, ParentsListed (dependencies.map (·.1)) dependency) ∧
        ⟨contract, dependencies.map (entryOf (dependencies.map (·.1)))⟩ = graph := by
  by_cases small : dependencies.length ≤ nodeLimit
  · rw [ofDependencies?_of_small small]
    cases repeated : firstRepeated? [] (dependencies.map (·.1)) with
    | some signature =>
      refine ⟨nofun, fun ⟨_, nodup, _⟩ => ?_⟩
      rw [firstRepeated?_eq_none.2 ⟨nodup, by simp⟩] at repeated
      cases repeated
    | none =>
      have nodup := (firstRepeated?_eq_none.1 repeated).1
      simp only [small, nodup, true_and, Result.bind_eq_ok, Result.pure_eq_ok, nodesOf_eq_ok]
      grind
  · refine ⟨fun built => ?_, fun ⟨within, _⟩ => absurd within small⟩
    unfold ofDependencies? at built
    simp only [List.length_map, Nat.not_le.1 small, if_true] at built
    split at built <;> cases built

theorem ofDependencies?_of_repeated (small : dependencies.length ≤ nodeLimit)
    (repeated : ¬ (dependencies.map (·.1)).Nodup) :
    ∃ signature, IsFirstRepeated (dependencies.map (·.1)) signature ∧
      ofDependencies? contract dependencies = .error (.repeated signature contract) := by
  cases found : firstRepeated? [] (dependencies.map (·.1)) with
  | none => exact absurd (firstRepeated?_eq_none.1 found).1 repeated
  | some signature =>
    obtain ⟨before, after, split, nodup, -, again⟩ := exists_of_firstRepeated? found
    refine ⟨signature, ⟨before, after, split, nodup, again.resolve_left List.not_mem_nil⟩, ?_⟩
    rw [ofDependencies?_of_small small, found]

theorem exists_of_ofDependencies? (small : dependencies.length ≤ nodeLimit)
    (nodup : (dependencies.map (·.1)).Nodup)
    (failed : ofDependencies? contract dependencies = .error fault) :
    ∃ dependency parent,
      IsFirstUnknown (dependencies.map (·.1)) dependencies dependency parent ∧
        fault = .unknownParent dependency.1 parent contract := by
  rw [ofDependencies?_of_small small, firstRepeated?_eq_none.2 ⟨nodup, by simp⟩] at failed
  cases built : nodesOf contract (dependencies.map (·.1)) dependencies with
  | ok nodes => simp [built, bind, Except.bind, pure, Except.pure] at failed
  | error cause =>
    simp only [built, bind, Except.bind, Except.error.injEq] at failed
    exact exists_of_nodesOf (failed ▸ built)

theorem exists_fault_iff (small : dependencies.length ≤ nodeLimit) :
    (∃ fault, ofDependencies? contract dependencies = .error fault) ↔
      ¬ (dependencies.map (·.1)).Nodup ∨
        ∃ dependency ∈ dependencies, ∃ parent ∈ dependency.2,
          parent ∉ dependencies.map (·.1) := by
  cases built : ofDependencies? contract dependencies with
  | ok graph =>
    obtain ⟨-, nodup, known, -⟩ := ofDependencies?_eq_ok.1 built
    refine ⟨nofun, ?_⟩
    rintro (repeated | ⟨dependency, listed, parent, member, unknown⟩)
    · exact absurd nodup repeated
    · exact absurd (known dependency listed parent member) unknown
  | error fault =>
    refine iff_of_true ⟨fault, rfl⟩ ?_
    by_cases nodup : (dependencies.map (·.1)).Nodup
    · obtain ⟨dependency, parent, ⟨⟨_, _, split, -⟩, ⟨_, _, place, -⟩, unknown⟩, -⟩ :=
        exists_of_ofDependencies? small nodup built
      exact .inr ⟨dependency, by simp [split], parent, by simp [place], unknown⟩
    · exact .inl nodup

theorem getElem?_of_ofDependencies? (built : ofDependencies? contract dependencies = .ok graph)
    {place : Nat} {dependency : Dependency} (listed : dependencies[place]? = some dependency) :
    ∃ parents : List Nat, graph.nodes[place]? = some ⟨dependency.1, parents⟩ ∧
      parents.Pairwise (· < ·) ∧ ∀ parent, parent ∈ parents ↔
        ∃ name ∈ dependency.2, (dependencies.map (·.1))[parent]? = some name := by
  obtain ⟨-, -, -, rfl⟩ := ofDependencies?_eq_ok.1 built
  refine ⟨positions _ dependency.2, ?_, positions_sorted _ _, fun _ => mem_positions⟩
  rw [List.getElem?_map, listed]
  rfl

/-! What a graph gives out. -/

/-- Every parent is a node. -/
def IsClosed (graph : Graph) : Prop :=
  ∀ node, ∀ parent ∈ graph.parents node, parent < graph.size

theorem isClosed_of_ofDependencies? (built : ofDependencies? contract dependencies = .ok graph) :
    graph.IsClosed := by
  obtain ⟨-, -, -, rfl⟩ := ofDependencies?_eq_ok.1 built
  intro node parent member
  unfold parents at member
  split at member
  · next entry known =>
    obtain ⟨dependency, -, rfl⟩ := List.mem_map.1 (List.mem_of_getElem? known)
    obtain ⟨signature, -, placed⟩ := mem_positions.1 member
    simpa [size] using (List.getElem?_eq_some_iff.1 placed).1
  · cases member

/-- The numbers that a graph can be asked for: those of its nodes, and those that stand among the
parents of what it was asked for. -/
inductive Offers (graph : Graph) : Nat → Prop
  | node {number : Nat} : number < graph.size → Offers graph number
  | parent {number parent : Nat} : Offers graph number → parent ∈ graph.parents number →
    Offers graph parent

theorem Offers.lt (closed : graph.IsClosed) {number : Nat} (offered : graph.Offers number) :
    number < graph.size := by
  cases offered with
  | node valid => exact valid
  | parent _ member => exact closed _ _ member

/-- The sequences that come about by putting a parent of some call before them, whatever number it
has. -/
inductive Grows (graph : Graph) : Nat → List Nat → Prop
  | start {node : Nat} : node < graph.size → Grows graph 0 [node]
  | before {rounds node parent : Nat} {sequence : List Nat} : Grows graph rounds sequence →
    node ∈ sequence → parent ∈ graph.parents node → Grows graph (rounds + 1) (parent :: sequence)

/-- In a closed graph no parent is left out because of its number. -/
theorem isGrown_iff_grows (closed : graph.IsClosed) {rounds : Nat} {sequence : List Nat} :
    graph.IsGrown rounds sequence ↔ graph.Grows rounds sequence := by
  constructor
  · intro grown
    induction rounds generalizing sequence with
    | zero =>
      obtain ⟨node, valid, rfl⟩ := Frontier.isGrown_zero.1 grown
      exact .start valid
    | succ rounds ih =>
      obtain ⟨first, rest, rfl⟩ := List.exists_cons_of_length_eq_add_one grown.length
      obtain ⟨impacts, grown⟩ := Frontier.isGrown_cons.1 grown
      obtain ⟨-, node, member, parent⟩ := Frontier.mem_impacting.1 impacts
      exact .before (ih grown) member parent
  · intro grows
    induction grows with
    | start valid => exact Frontier.isGrown_zero.2 ⟨_, valid, rfl⟩
    | before _ member parent ih =>
      exact Frontier.isGrown_cons.2
        ⟨Frontier.mem_impacting.2 ⟨closed _ _ parent, _, member, parent⟩, ih⟩

/-- Two entries for one function whose parents are the same, in any order and number. -/
def SameParents (left right : Dependency) : Prop :=
  left.1 = right.1 ∧ ∀ parent, parent ∈ left.2 ↔ parent ∈ right.2

theorem map_congr_of_sameParents {β : Type} {others : List Dependency} {f : Dependency → β}
    (respects : ∀ left right, SameParents left right → f left = f right)
    (same : List.Forall₂ SameParents dependencies others) :
    dependencies.map f = others.map f := by
  induction same with
  | nil => rfl
  | cons first _ ih => rw [List.map_cons, List.map_cons, ih, respects _ _ first]

theorem parentsListed_of_sameParents {others : List Dependency}
    (same : List.Forall₂ SameParents dependencies others)
    (known : ∀ dependency ∈ dependencies, ParentsListed signatures dependency) :
    ∀ other ∈ others, ParentsListed signatures other := by
  induction same with
  | nil => exact known
  | cons first _ ih =>
    rw [List.forall_mem_cons] at known ⊢
    exact ⟨fun parent inside => known.1 parent ((first.2 parent).2 inside), ih known.2⟩

theorem ofDependencies?_congr {others : List Dependency}
    (same : List.Forall₂ SameParents dependencies others)
    (built : ofDependencies? contract dependencies = .ok graph) :
    ofDependencies? contract others = .ok graph := by
  obtain ⟨small, nodup, known, rfl⟩ := ofDependencies?_eq_ok.1 built
  have names : dependencies.map (·.1) = others.map (·.1) :=
    map_congr_of_sameParents (fun _ _ alike => alike.1) same
  rw [names] at nodup known
  have entries : dependencies.map (entryOf (others.map (·.1))) =
      others.map (entryOf (others.map (·.1))) :=
    map_congr_of_sameParents
      (fun _ _ alike => by rw [entryOf, entryOf, alike.1, positions_congr alike.2]) same
  have known := parentsListed_of_sameParents same known
  exact ofDependencies?_eq_ok.2 ⟨same.length_eq ▸ small, nodup, known, by rw [names, entries]⟩

theorem getElem?_isSome_iff {number : Nat} :
    (graph.nodes[number]?).isSome ↔ number < graph.size := by
  simp [size]

/-- A list of functions makes no graph exactly if one is listed twice, which is said first, or has a
parent that is not listed. A graph that it makes has the functions for nodes, and for the parents of
a node the places of its parents, whatever their order and number in the list. What the graph gives
out is the number of a node, also in every sequence that grows on it. -/
theorem ofDependencies?_exact (contract : String) (dependencies : List Dependency)
    (small : dependencies.length < nodeLimit) :
    let signatures := dependencies.map (·.1)
    ((∃ fault, ofDependencies? contract dependencies = .error fault) ↔
      ¬ signatures.Nodup ∨
        ∃ dependency ∈ dependencies, ∃ parent ∈ dependency.2, parent ∉ signatures) ∧
    (¬ signatures.Nodup → ∃ signature, IsFirstRepeated signatures signature ∧
      ofDependencies? contract dependencies = .error (.repeated signature contract)) ∧
    (signatures.Nodup → ∀ fault, ofDependencies? contract dependencies = .error fault →
      ∃ dependency parent, IsFirstUnknown signatures dependencies dependency parent ∧
        fault = .unknownParent dependency.1 parent contract) ∧
    ∀ graph : Graph, ofDependencies? contract dependencies = .ok graph →
      (graph.contract = contract ∧ graph.size = dependencies.length) ∧
      (∀ (place : Nat) (dependency : Dependency), dependencies[place]? = some dependency →
        ∃ parents : List Nat, graph.nodes[place]? = some ⟨dependency.1, parents⟩ ∧
          parents.Pairwise (· < ·) ∧
          ∀ parent, parent ∈ parents ↔ ∃ name ∈ dependency.2, signatures[parent]? = some name) ∧
      (∀ others, List.Forall₂ SameParents dependencies others →
        ofDependencies? contract others = .ok graph) ∧
      (∀ number, graph.Offers number → (graph.nodes[number]?).isSome) ∧
      ∀ (calls sequence : List Nat),
        (sequence ∈ (calls.foldl Frontier.growBy (Frontier.start graph)).sequences ↔
          graph.Grows calls.sum sequence) ∧
        (graph.Grows calls.sum sequence →
          ∀ number ∈ sequence, (graph.nodes[number]?).isSome) := by
  intro signatures
  have within := Nat.le_of_lt small
  refine ⟨exists_fault_iff within, ofDependencies?_of_repeated within,
    fun nodup _ => exists_of_ofDependencies? within nodup, fun graph built => ?_⟩
  have closed := isClosed_of_ofDependencies? built
  refine ⟨?_, fun _ _ => getElem?_of_ofDependencies? built,
    fun others same => ofDependencies?_congr same built,
    fun number offered => getElem?_isSome_iff.2 (offered.lt closed), fun calls sequence => ?_⟩
  · obtain ⟨-, -, -, rfl⟩ := ofDependencies?_eq_ok.1 built
    exact ⟨rfl, List.length_map _⟩
  · obtain ⟨members, -⟩ := Frontier.sequences_foldl_growBy graph calls
    rw [members, isGrown_iff_grows closed]
    refine ⟨.rfl, fun grows number inside => ?_⟩
    exact getElem?_isSome_iff.2 (((isGrown_iff_grows closed).2 grows).valid number inside)

def vault : List Dependency :=
  [("get()", ["set(uint256)"]), ("init()", []),
    ("set(uint256)", ["set(uint256)", "init()", "set(uint256)"])]

def vaultGraph : Graph := ⟨"Vault", [⟨"get()", [2]⟩, ⟨"init()", []⟩, ⟨"set(uint256)", [1, 2]⟩]⟩

theorem ofDependencies?_exact_vault :
    vault.length < nodeLimit ∧ ofDependencies? "Vault" vault = .ok vaultGraph ∧
      ofDependencies? "Vault" [("get()", ["set(uint256)"]), ("init()", []),
        ("set(uint256)", ["init()", "set(uint256)"])] = .ok vaultGraph ∧
      ∀ number, vaultGraph.Offers number → (vaultGraph.nodes[number]?).isSome := by
  have small : vault.length < nodeLimit := by decide
  have built : ofDependencies? "Vault" vault = .ok vaultGraph := rfl
  obtain ⟨-, -, -, success⟩ := ofDependencies?_exact "Vault" vault small
  obtain ⟨-, -, congr, offered, -⟩ := success vaultGraph built
  refine ⟨small, built, congr _ ?_, offered⟩
  exact .cons ⟨rfl, fun _ => .rfl⟩ (.cons ⟨rfl, fun _ => .rfl⟩ (.cons ⟨rfl, by grind⟩ .nil))

end FuzzBridge.Graph
