import FuzzBridge.Fault

/-!
Which functions of a contract can change state that another one reads. Nodes are numbered in the
order in which the functions are listed.
-/

namespace FuzzBridge

/-- A function and the functions that can change what it reads, by number, in increasing order. -/
structure Node where
  signature : String
  parents : List Nat
  deriving DecidableEq

structure Graph where
  contract : String
  nodes : List Node
  deriving DecidableEq

abbrev Dependency := String × List String

/-- The signature up to its first parenthesis. -/
def Node.name (node : Node) : String :=
  String.ofList (node.signature.toList.takeWhile (· ≠ '('))

namespace Graph

def firstRepeated? (seen : List String) : List String → Option String
  | [] => none
  | text :: rest => if seen.contains text then some text else firstRepeated? (text :: seen) rest

/-- The parents that are listed functions, in the order of the list. -/
def positions (signatures parents : List String) : List Nat :=
  (List.range signatures.length).filter fun index =>
    match signatures[index]? with
    | some signature => parents.contains signature
    | none => false

def nodeOf (contract : String) (signatures : List String) (dependency : Dependency) :
    Except GraphFault Node :=
  match dependency.2.find? (fun parent => !signatures.contains parent) with
  | some parent => .error (.unknownParent dependency.1 parent contract)
  | none => .ok ⟨dependency.1, positions signatures dependency.2⟩

def nodesOf (contract : String) (signatures : List String) :
    List Dependency → Except GraphFault (List Node)
  | [] => .ok []
  | dependency :: rest => do
    let node ← nodeOf contract signatures dependency
    return node :: (← nodesOf contract signatures rest)

/-- Nodes are numbered by words of 32 bits. -/
def nodeLimit : Nat := Nat.pow 2 32

/-- No function may be listed twice, as far as there are numbers for them, there has to be a number
for each of them, and every parent has to be listed. -/
def ofDependencies? (contract : String) (dependencies : List Dependency) :
    Except GraphFault Graph :=
  let signatures := dependencies.map (·.1)
  match firstRepeated? [] (signatures.take nodeLimit) with
  | some signature => .error (.repeated signature contract)
  | none =>
    if nodeLimit < signatures.length then .error (.tooMany contract)
    else do return ⟨contract, ← nodesOf contract signatures dependencies⟩

def size (graph : Graph) : Nat := graph.nodes.length

def parents (graph : Graph) (node : Nat) : List Nat :=
  match graph.nodes[node]? with
  | some node => node.parents
  | none => []

def signature (graph : Graph) (node : Nat) : String :=
  match graph.nodes[node]? with
  | some node => node.signature
  | none => ""

def name (graph : Graph) (node : Nat) : String :=
  match graph.nodes[node]? with
  | some node => node.name
  | none => ""

def nodeLine (graph : Graph) (node : Node) : String :=
  "  " ++ node.signature ++ " <- [" ++ ", ".intercalate (node.parents.map graph.name) ++ "]\n"

def shown (graph : Graph) : String :=
  graph.contract ++ ":\n" ++ String.join (graph.nodes.map graph.nodeLine)

end Graph

end FuzzBridge
