import FuzzBridge.Proofs.Encoding.FunctionCall

/-!
What the call data of a function call concretizes to. A model decides whether there are bytes, and
the bytes that stand for variables; how many bytes there are, the name of the function, the lengths,
the offsets and the padding are out of its reach.
-/

namespace FuzzBridge.Encoding

variable {function transaction : String} {arguments : List (ArgType × Datum)}
  {assignment seeds : Assignment} {data : CallData}

theorem isPart_of_functionCall (narrow : ∀ argument ∈ arguments, argument.1.IsNarrow)
    (built : functionCall function arguments transaction assignment = .ok (data, seeds)) :
    ∀ part ∈ data.parts, part.IsPart := by
  have conform := conform_of_functionCall built
  rw [functionCall_of_conform conform] at built
  obtain ⟨rfl, -⟩ := Prod.mk.inj (Except.ok.inj built)
  have narrow : ArgType.AllNarrow (arguments.map (·.1)) := by
    rw [ArgType.allNarrow_iff, List.forall_mem_map]
    exact narrow
  intro part member
  exact isPart_of_isTermOf (isTermOf_callTerms member) fun _ => bits_of_mem_callLeaves narrow

/-- The call data of integers of at most a word is made of whole bytes. Under an assignment that
gives all its variables a value it has as many bytes as it takes, and under any other one a variable
without a value is what stops it. Whatever the values are, the bytes of the terms without variables
stay the same. -/
theorem functionCall_concretizes (narrow : ∀ argument ∈ arguments, argument.1.IsNarrow)
    (built : functionCall function arguments transaction assignment = .ok (data, seeds)) :
    (∀ part ∈ data.parts, 8 ∣ part.bits) ∧
      (∀ context,
        ((∃ bytes, data.concretize context = .ok bytes) ↔ context.Assigns data.symbols) ∧
        (∀ bytes, data.concretize context = .ok bytes → bytes.length = data.size) ∧
        ∀ fault, data.concretize context = .error fault →
          ∃ symbol ∈ data.symbols, context.value? symbol.2 = none ∧
            fault = .unassigned symbol.2) ∧
      ∀ left right leftBytes rightBytes, data.concretize left = .ok leftBytes →
        data.concretize right = .ok rightBytes →
        ∀ position, data.IsFrame position → leftBytes[position]? = rightBytes[position]? := by
  have each := isPart_of_functionCall narrow built
  refine ⟨fun part member => (each part member).whole, fun context => ⟨?_, ?_, ?_⟩, ?_⟩
  · simp only [CallData.concretize_eq_ok_iff each, exists_and_left, exists_eq', and_true]
  · intro bytes given
    obtain ⟨-, rfl⟩ := (CallData.concretize_eq_ok_iff each).1 given
    exact CallData.length_image context data.parts
  · intro fault stops
    exact CallData.unassigned_of_concretize each stops
  · intro left right leftBytes rightBytes leftGiven rightGiven position frame
    obtain ⟨-, rfl⟩ := (CallData.concretize_eq_ok_iff each).1 leftGiven
    obtain ⟨-, rfl⟩ := (CallData.concretize_eq_ok_iff each).1 rightGiven
    exact CallData.getElem?_image_of_isFrame frame left right

def pairArguments : List (ArgType × Datum) :=
  [(.tuple [.int 8, .bytes], .seq [.int (-1), .bytes [7, 9]])]

def largeModel : Assignment :=
  ((Assignment.empty.set "tx0_arg0_0" (Nat.pow 2 300) 512).set "tx0_arg0_1_0" (Nat.pow 2 299 + 7)
    512).set "tx0_arg0_1_1" 1000 512

theorem functionCall_concretizes_pair : ∃ data seeds,
    functionCall "set" pairArguments "tx0" .empty = .ok (data, seeds) ∧
    (∀ bytes, data.concretize .empty ≠ .ok bytes) ∧
    ∃ seedBytes bytes, data.concretize seeds = .ok seedBytes ∧
      data.concretize largeModel = .ok bytes ∧ bytes.length = 164 ∧ seedBytes[3]? = bytes[3]? := by
  have conform : List.Forall₂ Conforms (pairArguments.map (·.1)) (pairArguments.map (·.2)) :=
    .cons (.tuple (.cons (.int 8 (-1)) (.cons (.bytes [7, 9]) .nil))) .nil
  have narrow : ∀ argument ∈ pairArguments, argument.1.IsNarrow := by
    have eight : (8 : UInt16).toNat ≤ 256 := by decide
    exact List.forall_mem_singleton.2 ⟨eight, trivial, trivial⟩
  have built := functionCall_of_conform conform "set" "tx0" .empty
  obtain ⟨-, outcome, frame⟩ := functionCall_concretizes narrow built
  refine ⟨_, _, built, ?_, ?_⟩
  · intro bytes given
    exact absurd ((outcome .empty).1.1 ⟨bytes, given⟩) (by decide +kernel)
  · obtain ⟨seedBytes, seedGiven⟩ := (outcome (Assignment.empty.declare
      (callLeaves (pairArguments.map (·.1)) "tx0" (pairArguments.map (·.2))))).1.2
        (by decide +kernel)
    obtain ⟨bytes, given⟩ := (outcome largeModel).1.2 (by decide +kernel)
    -- The last byte of the name of the function.
    exact ⟨seedBytes, bytes, seedGiven, given, (outcome largeModel).2.1 bytes given,
      frame _ _ seedBytes bytes seedGiven given 3
        ⟨[], _, _, rfl, rfl, Nat.zero_le 3, by decide⟩⟩

end FuzzBridge.Encoding
