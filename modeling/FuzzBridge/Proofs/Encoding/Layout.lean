import FuzzBridge.Proofs.Encoding.Evaluation

/-!
How long the parts of a layout are. A value of a static type is as long as its place in a head, but
for fixed byte strings of no bytes: they have a place of one word and take nothing of it. Where
there are none, the heads of a sequence take the bytes that its types are given.
-/

namespace FuzzBridge

open CallData (byteLength)

namespace ArgType

mutual

/-- Every fixed byte string has at least one byte. -/
def IsSized : ArgType → Prop
  | .fixedBytes length => 0 < length.toNat
  | .fixedArray _ element | .array element => element.IsSized
  | .tuple elements => AllSized elements
  | _ => True
termination_by structural type => type

def AllSized : List ArgType → Prop
  | [] => True
  | element :: rest => element.IsSized ∧ AllSized rest
termination_by structural elements => elements

end

mutual

/-- The bytes that a value of a static type lacks of its place in a head: a word for each fixed byte
string of no bytes. -/
def shortage : ArgType → Nat
  | .fixedBytes length => if length.toNat = 0 then 32 else 0
  | .fixedArray length element =>
    if element.isDynamic then 0 else length.toNat * element.shortage
  | .tuple elements => if anyDynamic elements then 0 else shortages elements
  | _ => 0
termination_by structural type => type

def shortages : List ArgType → Nat
  | [] => 0
  | element :: rest => element.shortage + shortages rest
termination_by structural elements => elements

end

theorem headSize_of_isDynamic {type : ArgType} (h : type.isDynamic = true) :
    type.headSize = 32 := by
  cases type with
  | fixedArray length element =>
    have dynamic : element.isDynamic = true := h
    rw [headSize, if_pos dynamic]
  | tuple types =>
    have dynamic : anyDynamic types = true := h
    rw [headSize, if_pos dynamic]
  | _ => rfl

theorem shortage_of_isDynamic {type : ArgType} (h : type.isDynamic = true) : type.shortage = 0 := by
  cases type with
  | fixedBytes length => cases h
  | fixedArray length element =>
    have dynamic : element.isDynamic = true := h
    rw [shortage, if_pos dynamic]
  | tuple types =>
    have dynamic : anyDynamic types = true := h
    rw [shortage, if_pos dynamic]
  | _ => rfl

mutual

theorem shortage_of_isSized : ∀ {type : ArgType}, type.IsSized → type.shortage = 0
  | .fixedBytes _, sized => if_neg (Nat.pos_iff_ne_zero.1 sized)
  | .fixedArray length element, sized => by
    have sized : element.IsSized := sized
    rw [shortage, shortage_of_isSized sized, Nat.mul_zero, ite_self]
  | .tuple types, sized => by
    have sized : AllSized types := sized
    rw [shortage, shortages_of_allSized sized, ite_self]
  | .uint _, _ | .int _, _ | .address, _ | .bool, _ | .bytes, _ | .string, _ | .array _, _ => rfl

theorem shortages_of_allSized : ∀ {types : List ArgType}, AllSized types → shortages types = 0
  | [], _ => rfl
  | type :: rest, sized => by
    rw [shortages, shortage_of_isSized sized.1, shortages_of_allSized sized.2]

end

theorem shortages_eq (types : List ArgType) :
    shortages types = (types.map shortage).foldr (· + ·) 0 := by
  induction types with
  | nil => rfl
  | cons type rest ih => rw [shortages, ih, List.map_cons, List.foldr_cons]

theorem shortages_replicate (count : Nat) (element : ArgType) :
    shortages (List.replicate count element) = count * element.shortage := by
  induction count with
  | zero => simp [shortages]
  | succ count ih => rw [List.replicate_succ, shortages, ih, Nat.succ_mul, Nat.add_comm]

theorem headSizes_replicate (count : Nat) (element : ArgType) :
    headSizes (List.replicate count element) = count * element.headSize := by
  induction count with
  | zero => simp [headSizes]
  | succ count ih => rw [List.replicate_succ, headSizes, ih, Nat.succ_mul, Nat.add_comm]

theorem anyDynamic_eq_false_iff {types : List ArgType} :
    anyDynamic types = false ↔ ∀ type ∈ types, type.isDynamic = false := by
  induction types with
  | nil => simp [anyDynamic]
  | cons type rest ih => rw [anyDynamic, Bool.or_eq_false_iff, ih, List.forall_mem_cons]

theorem anyDynamic_replicate_of_static {element : ArgType} (static : element.isDynamic = false)
    (count : Nat) : anyDynamic (List.replicate count element) = false := by
  rw [anyDynamic_eq_false_iff]
  intro type member
  rw [List.eq_of_mem_replicate member]
  exact static

theorem allSized_iff {types : List ArgType} : AllSized types ↔ ∀ type ∈ types, type.IsSized := by
  induction types with
  | nil => simp [AllSized]
  | cons type rest ih => rw [AllSized, ih, List.forall_mem_cons]

theorem allSized_replicate {element : ArgType} (sized : element.IsSized) (count : Nat) :
    AllSized (List.replicate count element) := by
  rw [allSized_iff]
  intro type member
  rw [List.eq_of_mem_replicate member]
  exact sized

end ArgType

namespace Encoding

/-- An item of a static type is as long as its place in a head. -/
def Item.FitsHead (item : Item) : Prop :=
  item.type.isDynamic = false → byteLength item.terms = item.type.headSize

/-- An item of a static type lacks the shortage of its type. -/
def Item.FallsShort (item : Item) : Prop :=
  item.type.isDynamic = false →
    byteLength item.terms + item.type.shortage = item.type.headSize

theorem byteLength_word (value : Nat) : byteLength [word value] = 32 := by
  rw [CallData.byteLength_cons, CallData.byteLength_nil, word, Term.word, Term.bits]

/-- The heads lack what the static items lack of their places. -/
theorem byteLength_heads_add (lack : ArgType → Nat)
    (none : ∀ type, type.isDynamic = true → lack type = 0) {items : List Item}
    (each : ∀ item ∈ items, item.type.isDynamic = false →
      byteLength item.terms + lack item.type = item.type.headSize) (offset : Nat) :
    byteLength (heads offset items) + ((items.map (·.type)).map lack).foldr (· + ·) 0 =
      ArgType.headSizes (items.map (·.type)) := by
  induction items generalizing offset with
  | nil => rfl
  | cons item rest ih =>
    rw [List.forall_mem_cons] at each
    simp only [List.map_cons, List.foldr_cons, ArgType.headSizes, heads]
    split
    · next dynamic =>
      have others := ih each.2 (offset + byteLength item.terms)
      have length := byteLength_word offset
      rw [CallData.byteLength_cons, CallData.byteLength_nil] at length
      rw [CallData.byteLength_cons, ArgType.headSize_of_isDynamic dynamic, none _ dynamic]
      omega
    · next static =>
      have others := ih each.2 offset
      have first := each.1 (Bool.eq_false_iff.2 static)
      rw [CallData.byteLength_append]
      omega

theorem byteLength_heads {items : List Item} (fit : ∀ item ∈ items, item.FitsHead) (offset : Nat) :
    byteLength (heads offset items) = ArgType.headSizes (items.map (·.type)) := by
  have total := byteLength_heads_add (fun _ => 0) (fun _ _ => rfl) fit offset
  have nothing (types : List ArgType) : (types.map fun _ => 0).foldr (· + ·) 0 = 0 := by
    induction types <;> simp_all
  rwa [nothing] at total

theorem byteLength_heads_add_shortages {items : List Item}
    (short : ∀ item ∈ items, item.FallsShort) (offset : Nat) :
    byteLength (heads offset items) + ArgType.shortages (items.map (·.type)) =
      ArgType.headSizes (items.map (·.type)) := by
  rw [ArgType.shortages_eq]
  exact byteLength_heads_add ArgType.shortage (fun _ => ArgType.shortage_of_isDynamic) short offset

theorem tails_cons (item : Item) (rest : List Item) :
    tails (item :: rest) = (if item.type.isDynamic then item.terms else []) ++ tails rest := rfl

theorem tails_of_static {items : List Item} (static : ∀ item ∈ items, item.type.isDynamic = false) :
    tails items = [] := by
  induction items with
  | nil => rfl
  | cons item rest ih =>
    rw [List.forall_mem_cons] at static
    rw [tails_cons, static.1, ih static.2]
    rfl

theorem byteLength_le_layout {items : List Item} {item : Item} (member : item ∈ items) :
    byteLength item.terms ≤ byteLength (layout items) := by
  have split (offset : Nat) :
      byteLength item.terms ≤ byteLength (heads offset items) + byteLength (tails items) := by
    induction items generalizing offset with
    | nil => simp at member
    | cons first rest ih =>
      rw [heads, tails_cons]
      by_cases dynamic : first.type.isDynamic = true
      · simp only [if_pos dynamic, CallData.byteLength_cons, CallData.byteLength_append]
        rcases List.mem_cons.1 member with rfl | later
        · omega
        · have := ih later (offset + byteLength first.terms)
          omega
      · simp only [if_neg dynamic, CallData.byteLength_append, CallData.byteLength_nil]
        rcases List.mem_cons.1 member with rfl | later
        · omega
        · have := ih later offset
          omega
  rw [layout, CallData.byteLength_append]
  exact split _

theorem map_type_items {types : List ArgType} {elements : List Datum}
    (length : types.length = elements.length) (placeOf : Nat → Place) (index : Nat) :
    (items types placeOf index elements).map (·.type) = types := by
  induction elements generalizing types index with
  | nil => rw [List.length_eq_zero_iff.1 length, items, List.map_nil]
  | cons value rest ih =>
    cases types with
    | nil => simp at length
    | cons type types => rw [items, List.map_cons, ih (by simpa using length)]

/-! The length of a value. -/

theorem byteLength_byteSymbols (place : Place) (index : Nat) (bytes : List UInt8) :
    byteLength (byteSymbols place index bytes) = bytes.length := by
  induction bytes generalizing index with
  | nil => rfl
  | cons byte rest ih =>
    rw [byteSymbols, CallData.byteLength_cons, ih, List.length_cons, Term.bits]
    omega

theorem byteLength_padding (length : Nat) :
    byteLength (padding length) = (length + 31) / 32 * 32 - length := by
  unfold padding
  split
  · rw [CallData.byteLength_nil]
    omega
  · rw [CallData.byteLength_cons, CallData.byteLength_nil, Term.word, Term.bits]
    omega

theorem byteLength_widen (signed : Bool) (term : Term) : byteLength [widen signed term] = 32 := by
  rw [CallData.byteLength_cons, bits_widen, CallData.byteLength_nil]

theorem forall_mem_items {holds : Item → Prop} {types : List ArgType} {elements : List Datum}
    (each : List.Forall₂ (fun type value => ∀ place, holds ⟨type, terms type place value⟩) types
      elements) {placeOf : Nat → Place} {index : Nat} {item : Item}
    (member : item ∈ items types placeOf index elements) : holds item := by
  induction each generalizing index with
  | nil => simp [items] at member
  | cons first _ ih =>
    rcases List.mem_cons.1 member with rfl | later
    · exact first _
    · exact ih later

theorem byteLength_layout_of_static {types : List ArgType} {elements : List Datum}
    (each : List.Forall₂ (fun type value => ∀ place,
      Item.FallsShort ⟨type, terms type place value⟩) types elements)
    (static : ArgType.anyDynamic types = false) (placeOf : Nat → Place) :
    byteLength (layout (items types placeOf 0 elements)) + ArgType.shortages types =
      ArgType.headSizes types := by
  have types_eq := map_type_items each.length_eq placeOf 0
  have no_tails : tails (items types placeOf 0 elements) = [] := by
    apply tails_of_static
    intro item member
    apply ArgType.anyDynamic_eq_false_iff.1 static
    rw [← types_eq]
    exact List.mem_map_of_mem member
  have short : ∀ item ∈ items types placeOf 0 elements, item.FallsShort :=
    fun _ => forall_mem_items each
  have total := byteLength_heads_add_shortages short (ArgType.headSizes types)
  rw [types_eq] at total
  rw [layout, no_tails, List.append_nil, types_eq, total]

/-- A value of a static type is as long as its place in a head, less its shortage. -/
theorem fallsShort_of_conforms {type : ArgType} {value : Datum} (conforms : Conforms type value)
    (place : Place) : Item.FallsShort ⟨type, terms type place value⟩ := by
  induction conforms using Conforms.induction generalizing place with
  | uint bits value => exact fun _ => byteLength_widen false _
  | int bits value => exact fun _ => byteLength_widen true _
  | address value => exact fun _ => byteLength_widen false _
  | bool value => exact fun _ => byteLength_widen false _
  | fixedBytes length value count short =>
    intro _
    simp only [terms, CallData.byteLength_append, byteLength_byteSymbols, byteLength_padding,
      ArgType.headSize, ArgType.shortage]
    split <;> omega
  | bytes value => exact fun static => Bool.noConfusion static
  | string value => exact fun static => Bool.noConfusion static
  | fixedArray length element elements count each ih =>
    intro static
    have static : element.isDynamic = false := static
    have inner := byteLength_layout_of_static (ih.imp fun _ _ h => h.2)
      (ArgType.anyDynamic_replicate_of_static static _) place.element
    rw [ArgType.shortages_replicate, ArgType.headSizes_replicate, count] at inner
    simp only [terms, ArgType.shortage, ArgType.headSize, static, Bool.false_eq_true, if_false]
    rw [count]
    exact inner
  | array element elements each ih => exact fun static => Bool.noConfusion static
  | tuple types elements each ih =>
    intro static
    have static : ArgType.anyDynamic types = false := static
    have inner := byteLength_layout_of_static (ih.imp fun _ _ h => h.2) static place.element
    simp only [terms, ArgType.shortage, ArgType.headSize, static, Bool.false_eq_true, if_false]
    exact inner

theorem fallsShort_items {types : List ArgType} {elements : List Datum}
    (conform : List.Forall₂ Conforms types elements) {placeOf : Nat → Place} {index : Nat}
    {item : Item} (member : item ∈ items types placeOf index elements) : item.FallsShort :=
  forall_mem_items (conform.imp fun _ _ => fallsShort_of_conforms) member

theorem fitsHead_items {types : List ArgType} {elements : List Datum}
    (conform : List.Forall₂ Conforms types elements) (sized : ArgType.AllSized types)
    {placeOf : Nat → Place} {index : Nat} {item : Item}
    (member : item ∈ items types placeOf index elements) : item.FitsHead := by
  have inside : item.type ∈ types := by
    rw [← map_type_items conform.length_eq placeOf index]
    exact List.mem_map_of_mem member
  have none := ArgType.shortage_of_isSized (ArgType.allSized_iff.1 sized _ inside)
  intro static
  have short := fallsShort_items conform member static
  rwa [none] at short

end Encoding

end FuzzBridge
