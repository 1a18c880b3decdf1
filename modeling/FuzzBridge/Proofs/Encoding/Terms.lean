import FuzzBridge.Proofs.Encoding.Conformance
import FuzzBridge.Proofs.Result
import FuzzBridge.Proofs.Solver.Assignment

/-!
The encoder taken apart: the terms of a value, which do not depend on the numbers in it, and the
leaves that it declares. Encoding succeeds on conforming values only, and gives these two.
-/

namespace FuzzBridge.Encoding

def byteSymbols (place : Place) : Nat → List UInt8 → List Term
  | _, [] => []
  | index, _ :: rest => .symbol 8 (place.element index).name :: byteSymbols place (index + 1) rest

mutual

def terms (type : ArgType) (place : Place) : Datum → List Term
  | .int _ => match type with
    | .uint bits => [widen false (.symbol bits.toNat place.name)]
    | .int bits => [widen true (.symbol bits.toNat place.name)]
    | _ => [widen false (.symbol 160 place.name)]
  | .bool _ => [widen false (.symbol 1 place.name)]
  | .bytes value => match type with
    | .fixedBytes _ => byteSymbols place 0 value ++ padding value.length
    | _ => word value.length :: (byteSymbols place 0 value ++ padding value.length)
  | .seq elements => match type with
    | .fixedArray _ element =>
      layout (items (List.replicate elements.length element) place.element 0 elements)
    | .array element =>
      word elements.length ::
        layout (items (List.replicate elements.length element) place.element 0 elements)
    | .tuple types => layout (items types place.element 0 elements)
    | _ => []
termination_by structural value => value

def items (types : List ArgType) (placeOf : Nat → Place) (index : Nat) : List Datum → List Item
  | [] => []
  | value :: rest => match types with
    | [] => []
    | type :: types =>
      ⟨type, terms type (placeOf index) value⟩ :: items types placeOf (index + 1) rest
termination_by structural elements => elements

end

def byteLeaves (place : Place) : Nat → List UInt8 → List Leaf
  | _, [] => []
  | index, byte :: rest =>
    .ofByte (place.element index) byte :: byteLeaves place (index + 1) rest

mutual

/-- The leaves of a value at a place, each with its bit pattern. -/
def leaves (type : ArgType) (place : Place) : Datum → List Leaf
  | .int value => match type with
    | .uint bits | .int bits => [.ofInt place bits.toNat value]
    | _ => [.ofInt place 160 value]
  | .bool value => [.ofBool place value]
  | .bytes value => byteLeaves place 0 value
  | .seq elements => match type with
    | .fixedArray _ element | .array element =>
      leavesFrom (List.replicate elements.length element) place.element 0 elements
    | .tuple types => leavesFrom types place.element 0 elements
    | _ => []
termination_by structural value => value

def leavesFrom (types : List ArgType) (placeOf : Nat → Place) (index : Nat) :
    List Datum → List Leaf
  | [] => []
  | value :: rest => match types with
    | [] => []
    | type :: types =>
      leaves type (placeOf index) value ++ leavesFrom types placeOf (index + 1) rest
termination_by structural elements => elements

end

theorem leaves_address (place : Place) (value : Int) :
    leaves .address place (.int value) = [.ofInt place 160 value] := rfl

theorem byteTerms_eq (place : Place) (index : Nat) (bytes : List UInt8) (assignment : Assignment) :
    byteTerms place index bytes assignment =
      (byteSymbols place index bytes, assignment.declare (byteLeaves place index bytes)) := by
  induction bytes generalizing index assignment with
  | nil => rfl
  | cons byte rest ih =>
    simp only [byteTerms, byteSymbols, byteLeaves, Term.declare, ih, Assignment.declare_cons]
    rfl

theorem paddedBytes_eq (place : Place) (bytes : List UInt8) (assignment : Assignment) :
    paddedBytes place bytes assignment =
      (byteSymbols place 0 bytes ++ padding bytes.length,
        assignment.declare (byteLeaves place 0 bytes)) := by
  simp only [paddedBytes, byteTerms_eq]

theorem encodeItems_all (element : ArgType) (placeOf : Nat → Place) (index : Nat)
    (assignment : Assignment) (elements : List Datum) :
    encodeItems (.all element) placeOf index assignment elements =
      encodeItems (.each (List.replicate elements.length element)) placeOf index assignment
        elements := by
  induction elements generalizing index assignment with
  | nil => rfl
  | cons value rest ih =>
    simp only [encodeItems, ElementTypes.next?, List.length_cons, List.replicate_succ, ih]

theorem encodeItems_of_forall₂ {types : List ArgType} {elements : List Datum}
    (each : List.Forall₂ (fun type value => ∀ place assignment,
      encode type place assignment value =
        .ok (terms type place value, assignment.declare (leaves type place value))) types elements)
    (placeOf : Nat → Place) (index : Nat) (assignment : Assignment) :
    encodeItems (.each types) placeOf index assignment elements =
      .ok (items types placeOf index elements,
        assignment.declare (leavesFrom types placeOf index elements)) := by
  induction each generalizing index assignment with
  | nil => rfl
  | cons first _ ih =>
    simp only [encodeItems, ElementTypes.next?, first, items, leavesFrom,
      Assignment.declare_append]
    simp only [bind, Except.bind, ih, pure, Except.pure]

theorem encode_of_conforms {type : ArgType} {value : Datum} (conforms : Conforms type value)
    (place : Place) (assignment : Assignment) :
    encode type place assignment value =
      .ok (terms type place value, assignment.declare (leaves type place value)) := by
  induction conforms using Conforms.induction generalizing place assignment with
  | uint bits value => rfl
  | int bits value => rfl
  | address value => rfl
  | bool value => rfl
  | fixedBytes length value count short =>
    simp only [encode, count, short, and_self, if_true, paddedBytes_eq, terms, leaves]
  | bytes value => simp only [encode, paddedBytes_eq, terms, leaves]
  | string value => simp only [encode, paddedBytes_eq, terms, leaves]
  | fixedArray length element elements count _ ih =>
    have each := encodeItems_of_forall₂ (ih.imp fun _ _ h => h.2) place.element 0 assignment
    simp only [encode, terms, leaves]
    rw [if_pos count, encodeItems_all, each]
    rfl
  | array element elements _ ih =>
    have each := encodeItems_of_forall₂ (ih.imp fun _ _ h => h.2) place.element 0 assignment
    simp only [encode, encodeItems_all, each, terms, leaves]
    rfl
  | tuple types elements conform ih =>
    have each := encodeItems_of_forall₂ (ih.imp fun _ _ h => h.2) place.element 0 assignment
    simp only [encode, conform.length_eq, if_true, each, terms, leaves]
    rfl

theorem forall₂_of_encodeItems {types : List ArgType} {elements : List Datum}
    (each : ∀ value ∈ elements, ∀ {type place assignment result},
      encode type place assignment value = .ok result → Conforms type value)
    (length : elements.length = types.length) {placeOf : Nat → Place} {index : Nat}
    {assignment : Assignment} {result : List Item × Assignment}
    (h : encodeItems (.each types) placeOf index assignment elements = .ok result) :
    List.Forall₂ Conforms types elements := by
  induction elements generalizing types index assignment result with
  | nil =>
    obtain rfl := List.length_eq_zero_iff.1 length.symm
    exact .nil
  | cons value rest ih =>
    cases types with
    | nil => simp at length
    | cons type types =>
      simp only [encodeItems, ElementTypes.next?] at h
      obtain ⟨first, hfirst, h⟩ := Result.bind_eq_ok.1 h
      obtain ⟨others, hothers, -⟩ := Result.bind_eq_ok.1 h
      exact .cons (each value (by simp) hfirst)
        (ih (fun value member => each value (List.mem_cons_of_mem _ member))
          (by simpa using length) hothers)

theorem conforms_of_encode {type : ArgType} {value : Datum} {place : Place}
    {assignment : Assignment} {result : Declared}
    (h : encode type place assignment value = .ok result) : Conforms type value := by
  induction value using Datum.induction generalizing type place assignment result with
  | int value =>
    cases type <;> simp only [encode, mismatch, reduceCtorEq] at h <;> constructor
  | bool value =>
    cases type <;> simp only [encode, mismatch, reduceCtorEq] at h
    constructor
  | bytes value =>
    cases type <;> simp only [encode, mismatch, reduceCtorEq] at h
    case fixedBytes length =>
      split at h
      · next right => exact .fixedBytes right.1 right.2
      · simp at h
    all_goals constructor
  | seq elements ih =>
    cases type <;> simp only [encode, mismatch, reduceCtorEq] at h
    case array element =>
      obtain ⟨inner, hinner, -⟩ := Result.bind_eq_ok.1 h
      rw [encodeItems_all] at hinner
      exact .array (forall₂_replicate.1 (forall₂_of_encodeItems ih (by simp) hinner))
    case fixedArray length element =>
      split at h
      · next count =>
        obtain ⟨inner, hinner, -⟩ := Result.bind_eq_ok.1 h
        rw [encodeItems_all] at hinner
        exact .fixedArray count (forall₂_replicate.1 (forall₂_of_encodeItems ih (by simp) hinner))
      · simp at h
    case tuple types =>
      split at h
      · next count =>
        obtain ⟨inner, hinner, -⟩ := Result.bind_eq_ok.1 h
        exact .tuple (forall₂_of_encodeItems ih count hinner)
      · simp at h

end FuzzBridge.Encoding
