import FuzzBridge.Dataflow.Graph

/-!
Call sequences that grow backwards along the edges of a graph: a round puts before each sequence
every function that may change what some call of the sequence reads.
-/

namespace FuzzBridge

/-- The sequences that are still growing, each in the order of execution. -/
structure Frontier where
  graph : Graph
  sequences : List (List Nat)

namespace Frontier

def start (graph : Graph) : Frontier := ⟨graph, (List.range graph.size).map fun node => [node]⟩

/-- The parents of the calls of a sequence, in increasing order. -/
def impacting (graph : Graph) (sequence : List Nat) : List Nat :=
  (List.range graph.size).filter fun parent =>
    sequence.any fun node => (graph.parents node).contains parent

def successors (graph : Graph) (sequence : List Nat) : List (List Nat) :=
  (impacting graph sequence).map (· :: sequence)

def grow (frontier : Frontier) : Frontier :=
  { frontier with sequences := frontier.sequences.flatMap (successors frontier.graph) }

def growBy (frontier : Frontier) : Nat → Frontier
  | 0 => frontier
  | rounds + 1 => frontier.grow.growBy rounds

/-- The common length of the sequences; 0 once none is left. -/
def length (frontier : Frontier) : Nat :=
  match frontier.sequences with
  | [] => 0
  | first :: _ => first.length

def sequenceText (frontier : Frontier) (sequence : List Nat) : String :=
  " -> ".intercalate (sequence.map frontier.graph.name)

def sequenceLine (frontier : Frontier) (entry : List Nat × Nat) : String :=
  toString entry.2 ++ ": " ++ frontier.sequenceText entry.1 ++ "\n"

def shown (frontier : Frontier) : String :=
  "Dataflow graph:\n" ++ frontier.graph.shown ++ "Current tx sequences:\n" ++
    String.join (frontier.sequences.zipIdx.map frontier.sequenceLine)

end Frontier

end FuzzBridge
