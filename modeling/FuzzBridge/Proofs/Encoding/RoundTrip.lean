import FuzzBridge.Proofs.Encoding.Decoding

/-!
Encoding a function call and decoding the call data gives the arguments back, with integers reduced
to the widths of their types.
-/

namespace FuzzBridge

open CallData (image)

namespace Encoding

theorem length_selector (signature : String) : (selector signature).length = 4 := rfl

theorem number_selector_lt (signature : String) :
    Decoder.number (selector signature) < Number.wordCount 32 := by
  rw [CallData.wordCount_eq (by decide)]
  exact Decoder.number_lt (selector signature)

theorem image_selector (assignment : Assignment) (signature : String) (rest : List Term) :
    image assignment (.word 32 (Decoder.number (selector signature)) :: rest) =
      selector signature ++ image assignment rest := by
  have value := Term.valueIn_of_eval
    (Term.eval_word assignment 32 (Decoder.number (selector signature)))
  have width : (Term.word 32 (Decoder.number (selector signature))).bits / 8 =
      (selector signature).length := by
    rw [Term.word, Term.bits, length_selector]
  rw [CallData.image_cons, value, Number.mask_of_lt (number_selector_lt signature), width,
    Decoder.bigEndian_number]

/-- A value of the shape of its type, with integers of at most a word and fixed byte strings of at
least one byte. -/
structure IsDecodable (type : ArgType) (value : Datum) : Prop where
  conforms : Conforms type value
  narrow : type.IsNarrow
  sized : type.IsSized

/-- The call data of a function call has bytes, the first four of which name the function. The other
bytes decode to the arguments, as long as a word can hold every length and every offset. -/
theorem functionCall_decodes (function transaction : String) {arguments : List (ArgType × Datum)}
    (decodable : ∀ argument ∈ arguments, IsDecodable argument.1 argument.2) :
    ∃ data seeds body,
      functionCall function arguments transaction .empty = .ok (data, seeds) ∧
      data.concretize seeds =
        .ok (selector (ArgType.signature function (arguments.map (·.1))) ++ body) ∧
      (selector (ArgType.signature function (arguments.map (·.1)))).length = 4 ∧
      (data.size < Number.wordCount 256 → (∀ argument ∈ arguments, argument.2.IsCounted) →
        decodeCall (arguments.map (·.1))
            (selector (ArgType.signature function (arguments.map (·.1))) ++ body) =
          some (.seq (Datum.reduceAll (arguments.map (·.1)) (arguments.map (·.2))))) := by
  have conform : List.Forall₂ Conforms (arguments.map (·.1)) (arguments.map (·.2)) := by
    rw [List.forall₂_map_left_iff, List.forall₂_map_right_iff, List.forall₂_same]
    exact fun argument member => (decodable argument member).conforms
  have narrow : ArgType.AllNarrow (arguments.map (·.1)) := by
    rw [ArgType.allNarrow_iff, List.forall_mem_map]
    exact fun argument member => (decodable argument member).narrow
  have sized : ArgType.AllSized (arguments.map (·.1)) := by
    rw [ArgType.allSized_iff, List.forall_mem_map]
    exact fun argument member => (decodable argument member).sized
  have held := Assignment.holds_declare (Leaf.nodup_name
    (nodup_callLeaves (arguments.map (·.1)) transaction (arguments.map (·.2)))
    fun _ member => (place_of_mem_callLeaves member).1) .empty
  have concrete := concretize_callTerms narrow
    (fun leaf member => by rw [held leaf member]; rfl) function
  refine ⟨_, _, _, functionCall_of_conform conform function transaction .empty,
    concrete.trans (congrArg Except.ok (image_selector _ _ _)), length_selector _, ?_⟩
  intro lt counted
  have counted : Datum.AllCounted (arguments.map (·.2)) := by
    rw [Datum.allCounted_iff, List.forall_mem_map]
    exact counted
  -- Offsets count from behind the name of the function.
  have inner := Nat.lt_of_le_of_lt (Nat.le_add_left _ _) lt
  obtain ⟨left, read, -⟩ := decodes_layout conform
    (conform.imp fun _ _ => decodesAsElement_of_conforms) narrow sized counted held inner []
  rw [List.append_nil] at read
  rw [decodeCall, List.drop_left' (length_selector _), ArgType.decode, ArgType.slots_eq, read]
  rfl

def nestedArguments : List (ArgType × Datum) :=
  [(.tuple [.int 8, .bytes, .fixedBytes 1], .seq [.int 255, .bytes [7], .bytes [9]]),
    (.array (.uint 8), .seq [.int 300, .int (-1)])]

theorem nestedArguments_isDecodable :
    ∀ argument ∈ nestedArguments, IsDecodable argument.1 argument.2 := by
  have eight : (8 : UInt16).toNat ≤ 256 := by decide
  have one : 0 < (1 : UInt64).toNat := by decide
  have mixed : Conforms (.tuple [.int 8, .bytes, .fixedBytes 1])
      (.seq [.int 255, .bytes [7], .bytes [9]]) :=
    .tuple (.cons (.int 8 255) (.cons (.bytes [7]) (.cons (.fixedBytes rfl (by decide)) .nil)))
  have numbers : Conforms (.array (.uint 8)) (.seq [.int 300, .int (-1)]) := by
    refine .array ?_
    simp [Conforms.uint]
  rw [nestedArguments, List.forall_mem_cons, List.forall_mem_singleton]
  exact ⟨⟨mixed, ⟨eight, trivial, trivial, trivial⟩, ⟨trivial, trivial, one, trivial⟩⟩,
    ⟨numbers, eight, trivial⟩⟩

theorem nestedArguments_isCounted : ∀ argument ∈ nestedArguments, argument.2.IsCounted := by
  have two : 2 < Number.wordCount 256 := by decide
  have three : 3 < Number.wordCount 256 := by decide
  rw [nestedArguments, List.forall_mem_cons, List.forall_mem_singleton]
  exact ⟨⟨three, trivial, trivial, trivial, trivial⟩, ⟨two, trivial, trivial, trivial⟩⟩

theorem functionCall_decodes_nested :
    ∃ data seeds body,
      functionCall "send" nestedArguments "tx0" .empty = .ok (data, seeds) ∧
      data.concretize seeds =
        .ok (selector (ArgType.signature "send" (nestedArguments.map (·.1))) ++ body) ∧
      decodeCall (nestedArguments.map (·.1))
          (selector (ArgType.signature "send" (nestedArguments.map (·.1))) ++ body) =
        some (.seq [.seq [.int (-1), .bytes [7], .bytes [9]], .seq [.int 44, .int 255]]) := by
  obtain ⟨data, seeds, body, called, concrete, -, decoded⟩ :=
    functionCall_decodes "send" "tx0" nestedArguments_isDecodable
  have conform : List.Forall₂ Conforms (nestedArguments.map (·.1)) (nestedArguments.map (·.2)) := by
    rw [List.forall₂_map_left_iff, List.forall₂_map_right_iff, List.forall₂_same]
    exact fun argument member => (nestedArguments_isDecodable argument member).conforms
  have small : data.size < Number.wordCount 256 := by
    rw [functionCall_of_conform conform] at called
    rw [← (Prod.mk.inj (Except.ok.inj called)).1]
    decide
  refine ⟨data, seeds, body, called, concrete, (decoded small nestedArguments_isCounted).trans ?_⟩
  rfl

end Encoding

end FuzzBridge
