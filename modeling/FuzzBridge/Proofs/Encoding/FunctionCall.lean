import FuzzBridge.Proofs.Encoding.Evaluation

/-!
The call data of a function call: its terms depend on the shape of the arguments only, and it has
bytes under every assignment that gives all its leaves a value.
-/

namespace FuzzBridge

namespace ArgType

mutual

/-- No integer type is wider than a word. -/
def IsNarrow : ArgType → Prop
  | .uint bits | .int bits => bits.toNat ≤ 256
  | .fixedArray _ element | .array element => element.IsNarrow
  | .tuple elements => AllNarrow elements
  | _ => True
termination_by structural type => type

def AllNarrow : List ArgType → Prop
  | [] => True
  | element :: rest => element.IsNarrow ∧ AllNarrow rest
termination_by structural elements => elements

end

theorem allNarrow_iff {types : List ArgType} :
    AllNarrow types ↔ ∀ type ∈ types, type.IsNarrow := by
  induction types with
  | nil => simp [AllNarrow]
  | cons type rest ih => rw [AllNarrow, ih, List.forall_mem_cons]

theorem allNarrow_replicate {element : ArgType} (narrow : element.IsNarrow) (count : Nat) :
    AllNarrow (List.replicate count element) := by
  rw [allNarrow_iff]
  intro type member
  rw [List.eq_of_mem_replicate member]
  exact narrow

end ArgType

namespace Encoding

theorem bits_of_mem_leavesFrom {elements : List Datum}
    (each : ∀ value ∈ elements, ∀ type place, type.IsNarrow → ∀ leaf ∈ leaves type place value,
      leaf.bits ≤ 256)
    {types : List ArgType} (narrow : ArgType.AllNarrow types) {placeOf : Nat → Place} {index : Nat}
    {leaf : Leaf} (member : leaf ∈ leavesFrom types placeOf index elements) : leaf.bits ≤ 256 := by
  induction elements generalizing types index with
  | nil => simp [leavesFrom] at member
  | cons value rest ih =>
    cases types with
    | nil => simp [leavesFrom] at member
    | cons type types =>
      rw [leavesFrom, List.mem_append] at member
      rcases member with member | member
      · exact each value (by simp) type _ narrow.1 leaf member
      · exact ih (fun value member => each value (List.mem_cons_of_mem _ member)) narrow.2 member

theorem bits_of_mem_leaves {type : ArgType} (narrow : type.IsNarrow) {place : Place} {value : Datum}
    {leaf : Leaf} (member : leaf ∈ leaves type place value) : leaf.bits ≤ 256 := by
  induction value using Datum.induction generalizing type place leaf with
  | int value =>
    cases type <;> simp only [leaves, List.mem_singleton] at member <;> subst member
    case uint bits => exact narrow
    case int bits => exact narrow
    all_goals exact (by decide : 160 ≤ 256)
  | bool value =>
    rw [leaves, List.mem_singleton] at member
    subst member
    exact (by decide : 1 ≤ 256)
  | bytes value =>
    obtain ⟨_, -, -, octet⟩ := place_of_mem_byteLeaves member
    omega
  | seq elements ih =>
    have inner {types : List ArgType} (narrow : ArgType.AllNarrow types)
        (member : leaf ∈ leavesFrom types place.element 0 elements) : leaf.bits ≤ 256 :=
      bits_of_mem_leavesFrom (fun value h type place narrow leaf => ih value h narrow) narrow member
    cases type <;> simp only [leaves, List.not_mem_nil] at member
    case fixedArray length element =>
      have narrow : element.IsNarrow := narrow
      exact inner (ArgType.allNarrow_replicate narrow _) member
    case array element =>
      have narrow : element.IsNarrow := narrow
      exact inner (ArgType.allNarrow_replicate narrow _) member
    case tuple types => exact inner narrow member

def argumentPlace (transaction : String) (index : Nat) : Place :=
  .ofField transaction (.argument index)

def callTerms (function : String) (types : List ArgType) (transaction : String)
    (values : List Datum) : List Term :=
  .word 32 ((selector (ArgType.signature function types)).foldl
      (fun value byte => value * 256 + byte.toNat) 0) ::
    layout (items types (argumentPlace transaction) 0 values)

def callLeaves (types : List ArgType) (transaction : String) (values : List Datum) : List Leaf :=
  leavesFrom types (argumentPlace transaction) 0 values

theorem functionCall_of_conform {arguments : List (ArgType × Datum)}
    (conform : List.Forall₂ Conforms (arguments.map (·.1)) (arguments.map (·.2)))
    (function transaction : String) (assignment : Assignment) :
    functionCall function arguments transaction assignment =
      .ok (⟨callTerms function (arguments.map (·.1)) transaction (arguments.map (·.2))⟩,
        assignment.declare
          (callLeaves (arguments.map (·.1)) transaction (arguments.map (·.2)))) := by
  have encoded := encodeItems_of_forall₂ (conform.imp fun _ _ => encode_of_conforms)
    (argumentPlace transaction) 0 assignment
  unfold argumentPlace at encoded
  simp only [functionCall, encoded]
  rfl

theorem conform_of_functionCall {function : String} {arguments : List (ArgType × Datum)}
    {transaction : String} {assignment : Assignment} {result : CallData × Assignment}
    (h : functionCall function arguments transaction assignment = .ok result) :
    List.Forall₂ Conforms (arguments.map (·.1)) (arguments.map (·.2)) := by
  obtain ⟨inner, hinner, -⟩ := Result.bind_eq_ok.1 h
  exact forall₂_of_encodeItems (fun _ _ {_ _ _ _} => conforms_of_encode) (by simp) hinner

theorem isTermOf_callTerms {function : String} {types : List ArgType} {transaction : String}
    {values : List Datum} {term : Term}
    (member : term ∈ callTerms function types transaction values) :
    IsTermOf (callLeaves types transaction values) term := by
  rcases List.mem_cons.1 member with rfl | member
  · exact .constant (by decide) _
  · exact isTermOf_layout (fun item h term inside =>
      isTermOf_items (fun _ _ _ _ _ => isTermOf_terms) h inside) member

theorem bits_of_mem_callLeaves {types : List ArgType} (narrow : ArgType.AllNarrow types)
    {transaction : String} {values : List Datum} {leaf : Leaf}
    (member : leaf ∈ callLeaves types transaction values) : leaf.bits ≤ 256 :=
  bits_of_mem_leavesFrom (fun _ _ _ _ narrow _ => bits_of_mem_leaves narrow) narrow member

theorem concretize_callTerms {types : List ArgType} (narrow : ArgType.AllNarrow types)
    {transaction : String} {values : List Datum} {assignment : Assignment}
    (assigned : ∀ leaf ∈ callLeaves types transaction values,
      (assignment.valueAt? leaf.place).isSome) (function : String) :
    CallData.concretize ⟨callTerms function types transaction values⟩ assignment =
      .ok (CallData.image assignment (callTerms function types transaction values)) :=
  CallData.concretizeParts_of_fits fun _ member =>
    fits_of_isTermOf (isTermOf_callTerms member) assigned fun _ => bits_of_mem_callLeaves narrow

theorem place_of_mem_callLeaves {types : List ArgType} {transaction : String} {values : List Datum}
    {leaf : Leaf} (member : leaf ∈ callLeaves types transaction values) :
    leaf.place.transaction = transaction ∧ ∃ index, leaf.place.field = .argument index := by
  obtain ⟨position, path, -, found⟩ :=
    place_of_mem_leavesFrom (fun _ _ _ _ _ => place_of_mem_leaves) member
  rw [found]
  exact ⟨rfl, position, rfl⟩

theorem nodup_callLeaves (types : List ArgType) (transaction : String) (values : List Datum) :
    ((callLeaves types transaction values).map Leaf.place).Nodup :=
  nodup_leavesFrom (fun _ _ type place => nodup_leaves type place _)
    (isSeparating_argument transaction) types 0

/-! The shape of the arguments decides. -/

theorem callTerms_of_sameShape {left right : List Datum} (same : List.Forall₂ SameShape left right)
    (function : String) (types : List ArgType) (transaction : String) :
    callTerms function types transaction left = callTerms function types transaction right := by
  rw [callTerms, callTerms, items_congr (same.imp fun _ _ => terms_of_sameShape)]

theorem map_place_callLeaves {left right : List Datum} (same : List.Forall₂ SameShape left right)
    (types : List ArgType) (transaction : String) :
    (callLeaves types transaction left).map Leaf.place =
      (callLeaves types transaction right).map Leaf.place := by
  have sites := map_site_leavesFrom (same.imp fun _ _ => map_site_leaves) types
    (argumentPlace transaction) 0
  have places := congrArg (List.map Prod.fst) sites
  rwa [List.map_map, List.map_map] at places

end Encoding

end FuzzBridge
