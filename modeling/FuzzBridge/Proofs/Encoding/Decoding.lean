import FuzzBridge.Proofs.Encoding.Decoder
import FuzzBridge.Proofs.Encoding.FunctionCall
import FuzzBridge.Proofs.Encoding.Layout

/-!
The call data of a function call decodes to its arguments. Where an element of a sequence stands is
settled by one invariant: the head that is left begins with the heads of the elements that are left,
and from the next offset on, their tails follow.
-/

namespace FuzzBridge

open CallData (image byteLength)
open Assignment (holds_cons holds_singleton)

theorem bigEndian_zero (width : Nat) : bigEndian width 0 = List.replicate width 0 := by
  induction width with
  | zero => rfl
  | succ width ih => rw [bigEndian, Nat.zero_div, ih, List.replicate_succ']; rfl

namespace Encoding

variable {assignment : Assignment}

theorem image_padding (length : Nat) :
    image assignment (padding length) =
      List.replicate ((length + 31) / 32 * 32 - length) 0 := by
  unfold padding
  split
  · next whole =>
    rw [CallData.image_nil, show (length + 31) / 32 * 32 - length = 0 by omega, List.replicate_zero]
  · next part =>
    have zero : (Term.word ((32 - length % 32) * 8) 0).valueIn assignment = 0 := by
      rw [Term.valueIn_of_eval (Term.eval_word assignment _ 0), Number.mask, Nat.zero_mod]
    have width : (Term.word ((32 - length % 32) * 8) 0).bits / 8 =
        (length + 31) / 32 * 32 - length := by
      rw [Term.word, Term.bits]
      omega
    rw [CallData.image_cons, zero, width, bigEndian_zero, CallData.image_nil, List.append_nil]

theorem image_byteSymbols {place : Place} {index : Nat} {bytes : List UInt8}
    (held : assignment.Holds (byteLeaves place index bytes)) :
    image assignment (byteSymbols place index bytes) = bytes := by
  induction bytes generalizing index with
  | nil => rfl
  | cons byte rest ih =>
    rw [byteLeaves, holds_cons, Leaf.place_ofByte, Leaf.seed_ofByte] at held
    have lt : byte.toNat < Number.wordCount 8 := byte.toNat_lt
    have value := Term.valueIn_of_eval (Term.eval_symbol held.1 8)
    rw [byteSymbols, CallData.image_cons, value, ih held.2, Number.mask_of_lt lt]
    simp [Term.bits, bigEndian, Nat.mod_eq_of_lt byte.toNat_lt]

theorem filled_image {place : Place} {bytes : List UInt8}
    (held : assignment.Holds (byteLeaves place 0 bytes)) (rest : List UInt8) :
    Decoder.filled bytes.length
        (image assignment (byteSymbols place 0 bytes ++ padding bytes.length) ++ rest) =
      some (.bytes bytes, rest) := by
  have size : (bytes ++ List.replicate ((bytes.length + 31) / 32 * 32 - bytes.length)
      (0 : UInt8)).length = (bytes.length + 31) / 32 * 32 := by
    rw [List.length_append, List.length_replicate]
    omega
  rw [CallData.image_append, image_byteSymbols held, image_padding]
  unfold Decoder.filled
  dsimp only
  rw [List.take_left' size, List.drop_left' size, List.drop_left, List.append_assoc, List.take_left]
  rw [if_pos]
  constructor
  · rw [← List.append_assoc, List.length_append, size]
    omega
  · simp

/-! Scalars and lengths. -/

theorem word_image {number : Nat} (lt : number < Number.wordCount 256) (terms : List Term)
    (rest : List UInt8) :
    Decoder.word (image assignment (word number :: terms) ++ rest) =
      some (number, image assignment terms ++ rest) := by
  have value := Term.valueIn_of_eval (Term.eval_word assignment 256 number)
  have width : (Term.word 256 number).bits / 8 = 32 := by rw [Term.word, Term.bits]
  rw [CallData.image_cons, word, value, width, Number.mask_of_lt lt, List.append_assoc,
    Decoder.word_bigEndian lt]

theorem word_filled_image {place : Place} {bytes : List UInt8}
    (held : assignment.Holds (byteLeaves place 0 bytes))
    (lt : byteLength (word bytes.length :: (byteSymbols place 0 bytes ++ padding bytes.length)) <
      Number.wordCount 256) (rest : List UInt8) :
    ((Decoder.word (image assignment
        (word bytes.length :: (byteSymbols place 0 bytes ++ padding bytes.length)) ++ rest)).bind
      fun read => Decoder.filled read.1 read.2) = some (.bytes bytes, rest) := by
  rw [CallData.byteLength_cons, CallData.byteLength_append, byteLength_byteSymbols] at lt
  rw [word_image (by omega), Option.bind_some]
  exact filled_image held rest

theorem word_widen {place : Place} {bits value : Nat}
    (assigned : assignment.valueAt? place = some value) (narrow : bits ≤ 256) (signed : Bool)
    (rest : List UInt8) :
    Decoder.word (image assignment [widen signed (.symbol bits place.name)] ++ rest) =
      some (if signed then Number.toPattern (Number.toSigned value bits) 256
        else Number.mask value bits, rest) := by
  have evaluated := eval_widen assigned narrow signed
  have lt : (if signed then Number.toPattern (Number.toSigned value bits) 256
      else Number.mask value bits) < Number.wordCount 256 := by
    split
    · exact Number.toPattern_lt _ 256
    · exact Nat.lt_of_lt_of_le (Number.mask_lt value bits) (Number.wordCount_le narrow)
  rw [CallData.image_cons, CallData.image_nil, List.append_nil, bits_widen,
    Term.valueIn_of_eval evaluated]
  exact Decoder.word_bigEndian lt rest

theorem unsigned_widen {place : Place} {bits : Nat} {value : Int}
    (assigned : assignment.valueAt? place = some (Number.toPattern value bits))
    (narrow : bits ≤ 256) (rest : List UInt8) :
    Decoder.unsigned bits (image assignment [widen false (.symbol bits place.name)] ++ rest) =
      some (.int (value % Number.wordCount bits), rest) := by
  have read := word_widen assigned narrow false rest
  rw [if_neg (by decide), Number.mask_toPattern] at read
  rw [Decoder.unsigned_of_word read (Number.toPattern_lt value bits), Number.natCast_toPattern]

theorem signed_widen {place : Place} {bits : Nat} {value : Int}
    (assigned : assignment.valueAt? place = some (Number.toPattern value bits))
    (narrow : bits ≤ 256) (rest : List UInt8) :
    Decoder.signed bits (image assignment [widen true (.symbol bits place.name)] ++ rest) =
      some (.int (value.bmod (Number.wordCount bits)), rest) := by
  have whole : ((Number.toPattern (value.bmod (Number.wordCount bits)) 256 : Nat) : Int).bmod
      (Number.wordCount 256) = value.bmod (Number.wordCount bits) := by
    rw [Number.natCast_toPattern, Int.emod_bmod, Number.bmod_wordCount_wider value narrow]
  have read := word_widen assigned narrow true rest
  rw [if_pos rfl, Number.toSigned_toPattern] at read
  refine Decoder.signed_of_word read ?_
  rw [whole, Decoder.inRange, if_pos (Number.bmod_wordCount_range value bits)]

theorem flag_widen {place : Place} {value : Bool}
    (assigned : assignment.valueAt? place = some value.toNat) (rest : List UInt8) :
    Decoder.flag (image assignment [widen false (.symbol 1 place.name)] ++ rest) =
      some (.bool value, rest) := by
  rw [Decoder.flag, word_widen assigned (by decide)]
  cases value <;> rfl

/-! Sequences. -/

/-- The terms of an item decode to a value, whatever follows them. -/
def Decodes (assignment : Assignment) (item : Item) (value : Datum) : Prop :=
  ∀ rest, ∃ left, item.type.decode (image assignment item.terms ++ rest) = some (value, left) ∧
    (item.type.isDynamic = false → left = rest)

theorem Decodes.of_exact {item : Item} {value : Datum}
    (read : ∀ rest, item.type.decode (image assignment item.terms ++ rest) = some (value, rest)) :
    Decodes assignment item value :=
  fun rest => ⟨rest, read rest, fun _ => rfl⟩

theorem sequence_heads {items : List Item} {values : List Datum}
    (each : List.Forall₂ (Decodes assignment) items values) {start tail : List UInt8} {offset : Nat}
    (found : start.drop offset = image assignment (tails items) ++ tail)
    (lt : offset + byteLength (tails items) < Number.wordCount 256) (head : List UInt8) :
    Decoder.sequence start ((items.map (·.type)).map ArgType.slot)
        (image assignment (heads offset items) ++ head) = some (values, head) := by
  induction each generalizing offset with
  | nil => rfl
  | @cons item value rest values first _ ih =>
    rw [tails_cons] at found lt
    rw [List.map_cons, List.map_cons, Decoder.sequence, heads]
    by_cases dynamic : item.type.isDynamic = true
    -- The tail of the item is at `offset`, and the other tails are right behind it.
    · rw [if_pos dynamic] at found lt ⊢
      rw [CallData.byteLength_append] at lt
      rw [CallData.image_append, List.append_assoc] at found
      obtain ⟨left, read, -⟩ := first (image assignment (tails rest) ++ tail)
      have after : start.drop (offset + byteLength item.terms) =
          image assignment (tails rest) ++ tail := by
        rw [← List.drop_drop, found, List.drop_left' (CallData.length_image _ _)]
      have others := ih after (by omega)
      have here : Decoder.word (image assignment
          (word offset :: heads (offset + byteLength item.terms) rest) ++ head) = _ :=
        word_image (by omega) _ head
      rw [← found] at read
      rw [ArgType.readFrom_slot_of_dynamic dynamic here read, Option.bind_eq_bind, Option.bind_some]
      dsimp only
      rw [others]
      rfl
    -- The item has no tail, so the tails stay where they are.
    · rw [if_neg dynamic] at found lt ⊢
      have static : item.type.isDynamic = false := Bool.eq_false_iff.2 dynamic
      obtain ⟨left, read, consumed⟩ := first (image assignment (heads offset rest) ++ head)
      obtain rfl := consumed static
      have others := ih found lt
      rw [ArgType.readFrom_slot_of_static static, CallData.image_append, List.append_assoc, read,
        Option.bind_eq_bind, Option.bind_some]
      dsimp only
      rw [others]
      rfl

/-- The elements of a sequence decode from its layout, of which the tails are then left. -/
theorem elements_layout {items : List Item} {values : List Datum}
    (each : List.Forall₂ (Decodes assignment) items values) (fit : ∀ item ∈ items, item.FitsHead)
    (lt : byteLength (layout items) < Number.wordCount 256) (rest : List UInt8) :
    Decoder.elements ((items.map (·.type)).map ArgType.slot)
        (image assignment (layout items) ++ rest) =
      some (.seq values, image assignment (tails items) ++ rest) := by
  have headLength := byteLength_heads fit (ArgType.headSizes (items.map (·.type)))
  rw [layout, CallData.byteLength_append, headLength] at lt
  have found : (image assignment (layout items) ++ rest).drop
      (ArgType.headSizes (items.map (·.type))) = image assignment (tails items) ++ rest := by
    rw [layout, CallData.image_append, List.append_assoc,
      List.drop_left' ((CallData.length_image _ _).trans headLength)]
  have read := sequence_heads each found lt (image assignment (tails items) ++ rest)
  rw [Decoder.elements]
  rw [← List.append_assoc, ← CallData.image_append, ← layout] at read
  rw [read]
  rfl

theorem decodes_elements {items : List Item} {values : List Datum}
    (each : List.Forall₂ (Decodes assignment) items values) (fit : ∀ item ∈ items, item.FitsHead)
    (lt : byteLength (layout items) < Number.wordCount 256) (rest : List UInt8) :
    ∃ left, Decoder.elements ((items.map (·.type)).map ArgType.slot)
        (image assignment (layout items) ++ rest) = some (.seq values, left) ∧
      (ArgType.anyDynamic (items.map (·.type)) = false → left = rest) := by
  refine ⟨_, elements_layout each fit lt rest, ?_⟩
  intro static
  have none_dynamic : ∀ item ∈ items, item.type.isDynamic = false := fun item member =>
    ArgType.anyDynamic_eq_false_iff.1 static item.type (List.mem_map_of_mem member)
  rw [tails_of_static none_dynamic, CallData.image_nil, List.nil_append]

/-- The value decodes wherever it is encoded, if no length or offset exceeds a word. -/
def DecodesAsElement (assignment : Assignment) (type : ArgType) (value : Datum) : Prop :=
  type.IsNarrow → type.IsSized → value.IsCounted → ∀ place,
    assignment.Holds (leaves type place value) →
    byteLength (terms type place value) < Number.wordCount 256 →
    Decodes assignment ⟨type, terms type place value⟩ (value.reduce type)

theorem decodes_items {types : List ArgType} {elements : List Datum}
    (each : List.Forall₂ (DecodesAsElement assignment) types elements)
    (narrow : ArgType.AllNarrow types) (sized : ArgType.AllSized types)
    (counted : Datum.AllCounted elements) {placeOf : Nat → Place} {index : Nat}
    (held : assignment.Holds (leavesFrom types placeOf index elements))
    (lt : ∀ item ∈ items types placeOf index elements,
      byteLength item.terms < Number.wordCount 256) :
    List.Forall₂ (Decodes assignment) (items types placeOf index elements)
      (Datum.reduceAll types elements) := by
  induction each generalizing index with
  | nil => exact .nil
  | cons first _ ih =>
    rw [leavesFrom, Assignment.holds_append] at held
    rw [items, List.forall_mem_cons] at lt
    exact .cons (first narrow.1 sized.1 counted.1 _ held.1 lt.1)
      (ih narrow.2 sized.2 counted.2 held.2 lt.2)

theorem decodes_layout {types : List ArgType} {elements : List Datum}
    (conform : List.Forall₂ Conforms types elements)
    (each : List.Forall₂ (DecodesAsElement assignment) types elements)
    (narrow : ArgType.AllNarrow types) (sized : ArgType.AllSized types)
    (counted : Datum.AllCounted elements) {placeOf : Nat → Place}
    (held : assignment.Holds (leavesFrom types placeOf 0 elements))
    (lt : byteLength (layout (items types placeOf 0 elements)) < Number.wordCount 256)
    (rest : List UInt8) :
    ∃ left, Decoder.elements (types.map ArgType.slot)
        (image assignment (layout (items types placeOf 0 elements)) ++ rest) =
          some (.seq (Datum.reduceAll types elements), left) ∧
      (ArgType.anyDynamic types = false → left = rest) := by
  have inside : ∀ item ∈ items types placeOf 0 elements,
      byteLength item.terms < Number.wordCount 256 := fun item member =>
    Nat.lt_of_le_of_lt (byteLength_le_layout member) lt
  have fit : ∀ item ∈ items types placeOf 0 elements, item.FitsHead := fun item member =>
    fitsHead_items conform sized member
  have read := decodes_elements (decodes_items each narrow sized counted held inside) fit lt rest
  rwa [map_type_items conform.length_eq placeOf 0] at read

theorem decodesAsElement_of_conforms {type : ArgType} {value : Datum}
    (conforms : Conforms type value) : DecodesAsElement assignment type value := by
  induction conforms using Conforms.induction with
  | uint bits value =>
    intro narrow _ _ place held _
    exact .of_exact fun rest => unsigned_widen (holds_singleton.1 held) narrow rest
  | int bits value =>
    intro narrow _ _ place held _
    exact .of_exact fun rest => signed_widen (holds_singleton.1 held) narrow rest
  | address value =>
    intro _ _ _ place held _
    exact .of_exact fun rest => unsigned_widen (holds_singleton.1 held) (by decide) rest
  | bool value =>
    intro _ _ _ place held _
    exact .of_exact fun rest => flag_widen (holds_singleton.1 held) rest
  | fixedBytes length value count short =>
    intro _ _ _ place held _
    refine .of_exact fun rest => ?_
    dsimp only
    rw [ArgType.decode, terms, ← count]
    exact filled_image held rest
  | bytes value =>
    intro _ _ _ place held lt
    exact .of_exact fun rest => word_filled_image held lt rest
  | string value =>
    intro _ _ _ place held lt
    exact .of_exact fun rest => word_filled_image held lt rest
  | fixedArray length element elements count each ih =>
    intro narrow sized counted place held lt rest
    have narrow : element.IsNarrow := narrow
    have sized : element.IsSized := sized
    obtain ⟨left, read, consumed⟩ := decodes_layout (forall₂_replicate.2 each)
      (ih.imp fun _ _ h => h.2) (ArgType.allNarrow_replicate narrow _)
      (ArgType.allSized_replicate sized _) counted.2 held lt rest
    rw [List.map_replicate] at read
    refine ⟨left, ?_, ?_⟩
    · dsimp only
      rw [ArgType.decode, terms, ← count]
      exact read
    · intro static
      have static : element.isDynamic = false := static
      exact consumed (ArgType.anyDynamic_replicate_of_static static _)
  | array element elements each ih =>
    intro narrow sized counted place held lt rest
    have narrow : element.IsNarrow := narrow
    have sized : element.IsSized := sized
    have inner : byteLength (layout
        (items (List.replicate elements.length element) place.element 0 elements)) <
        Number.wordCount 256 := Nat.lt_of_le_of_lt (Nat.le_add_left _ _) lt
    obtain ⟨left, read, -⟩ := decodes_layout (forall₂_replicate.2 each)
      (ih.imp fun _ _ h => h.2) (ArgType.allNarrow_replicate narrow _)
      (ArgType.allSized_replicate sized _) counted.2 held inner rest
    rw [List.map_replicate] at read
    refine ⟨left, ?_, fun static => Bool.noConfusion static⟩
    dsimp only
    rw [terms, ArgType.decode, word_image counted.1]
    exact read
  | tuple types elements each ih =>
    intro narrow sized counted place held lt rest
    obtain ⟨left, read, consumed⟩ := decodes_layout each (ih.imp fun _ _ h => h.2) narrow sized
      counted.2 held lt rest
    refine ⟨left, ?_, consumed⟩
    dsimp only
    rw [ArgType.decode, ArgType.slots_eq]
    exact read

end Encoding

end FuzzBridge
