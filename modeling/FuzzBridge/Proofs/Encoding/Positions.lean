import FuzzBridge.Proofs.Encoding.Layout

/-!
Where the items of a sequence stand. The head has one slot for each item, in order: a static item
itself, or a word with the offset of a dynamic one. The dynamic items follow it, in order and
without gaps. Offsets are computed from the types, which give a word to a fixed byte string of no
bytes, so every offset is too high by the words that such strings do not take.
-/

namespace FuzzBridge

open CallData (byteLength)

namespace Encoding

theorem tails_append (left right : List Item) : tails (left ++ right) = tails left ++ tails right :=
  List.flatMap_append

def dynamicTerms (items : List Item) : List Term :=
  (items.filter (·.type.isDynamic)).flatMap (·.terms)

/-- What stands for an item in the head: the item itself, or the byte at which it begins. -/
def Item.slot (item : Item) (start : Nat) : List Term :=
  if item.type.isDynamic then [word start] else item.terms

theorem tails_eq (items : List Item) : tails items = dynamicTerms items := by
  unfold dynamicTerms
  induction items with
  | nil => rfl
  | cons item rest ih =>
    rw [tails_cons, ih]
    by_cases dynamic : item.type.isDynamic = true <;> simp [dynamic]

theorem heads_cons (offset : Nat) (item : Item) (rest : List Item) :
    heads offset (item :: rest) =
      item.slot offset ++ heads (offset + byteLength (tails [item])) rest := by
  rw [heads, tails_cons, Item.slot]
  split
  · simp [tails]
  · simp [tails]

theorem heads_append (offset : Nat) (left right : List Item) :
    heads offset (left ++ right) =
      heads offset left ++ heads (offset + byteLength (tails left)) right := by
  induction left generalizing offset with
  | nil => rfl
  | cons item rest ih =>
    have first : tails (item :: rest) = tails [item] ++ tails rest := tails_append [item] rest
    rw [List.cons_append, heads_cons, heads_cons, ih, first, CallData.byteLength_append,
      List.append_assoc, Nat.add_assoc]

theorem heads_split (offset : Nat) (before : List Item) (item : Item) (after : List Item) :
    ∃ right, heads offset (before ++ item :: after) =
      heads offset before ++ item.slot (offset + byteLength (dynamicTerms before)) ++ right := by
  rw [heads_append, heads_cons, tails_eq, ← List.append_assoc]
  exact ⟨_, rfl⟩

theorem dynamicTerms_split (before : List Item) {item : Item}
    (dynamic : item.type.isDynamic = true) (after : List Item) :
    dynamicTerms (before ++ item :: after) =
      dynamicTerms before ++ item.terms ++ dynamicTerms after := by
  simp [dynamicTerms, dynamic]

/-- The item is the encoding of the argument, at some place. -/
def IsEncodingOf (argument : ArgType × Datum) (item : Item) : Prop :=
  item.type = argument.1 ∧ ∃ place before after,
    encode argument.1 place before argument.2 = .ok (item.terms, after)

theorem isEncodingOf_of_encodeItems {arguments : List (ArgType × Datum)} {placeOf : Nat → Place}
    {index : Nat} {assignment : Assignment} {items : List Item} {seeds : Assignment}
    (encoded : encodeItems (.each (arguments.map (·.1))) placeOf index assignment
      (arguments.map (·.2)) = .ok (items, seeds)) :
    List.Forall₂ IsEncodingOf arguments items := by
  induction arguments generalizing index assignment items with
  | nil =>
    cases encoded
    exact .nil
  | cons argument rest ih =>
    simp only [List.map_cons, encodeItems, ElementTypes.next?] at encoded
    obtain ⟨⟨terms, after⟩, first, encoded⟩ := Result.bind_eq_ok.1 encoded
    obtain ⟨⟨others, after'⟩, later, encoded⟩ := Result.bind_eq_ok.1 encoded
    cases Result.pure_eq_ok.1 encoded
    exact .cons ⟨rfl, _, _, _, first⟩ (ih later)

theorem IsEncodingOf.fallsShort {argument : ArgType × Datum} {item : Item}
    (encodes : IsEncodingOf argument item) : item.FallsShort := by
  obtain ⟨same, place, before, after, encoded⟩ := encodes
  have conforms := conforms_of_encode encoded
  rw [encode_of_conforms conforms] at encoded
  have terms_eq := (Prod.mk.inj (Except.ok.inj encoded)).1
  have short := fallsShort_of_conforms conforms place
  rw [terms_eq, ← same] at short
  exact short

theorem map_type_of_isEncodingOf {arguments : List (ArgType × Datum)} {items : List Item}
    (each : List.Forall₂ IsEncodingOf arguments items) :
    items.map (·.type) = arguments.map (·.1) := by
  induction each with
  | nil => rfl
  | cons first _ ih => rw [List.map_cons, List.map_cons, ih, first.1]

theorem fallsShort_of_isEncodingOf {arguments : List (ArgType × Datum)} {items : List Item}
    (each : List.Forall₂ IsEncodingOf arguments items) : ∀ item ∈ items, item.FallsShort := by
  induction each with
  | nil => simp
  | cons first _ ih => exact List.forall_mem_cons.2 ⟨first.fallsShort, ih⟩

/-- The slots of the items, one after the other, and then the dynamic items. The slot of a static
item is the item itself, which is as long as its type says, less the shortage of the type. The slot
of a dynamic item is a word that says where the item begins, too high by the shortage of all
types. Types without empty fixed byte strings have none. -/
theorem layout_offsets {arguments : List (ArgType × Datum)} {placeOf : Nat → Place}
    {index : Nat} {assignment seeds : Assignment} {items : List Item}
    (encoded : encodeItems (.each (arguments.map (·.1))) placeOf index assignment
      (arguments.map (·.2)) = .ok (items, seeds)) :
    List.Forall₂ IsEncodingOf arguments items ∧
      (∀ item ∈ items, item.type.isDynamic = false →
        byteLength item.terms + item.type.shortage = item.type.headSize) ∧
      (∃ head, layout items = head ++ dynamicTerms items ∧
        byteLength head + ArgType.shortages (arguments.map (·.1)) =
          ArgType.headSizes (arguments.map (·.1)) ∧
        ∀ before item after, items = before ++ item :: after →
          (∃ left right,
            head = left ++ item.slot (byteLength (head ++ dynamicTerms before) +
              ArgType.shortages (arguments.map (·.1))) ++ right ∧
            byteLength left + ArgType.shortages (before.map (·.type)) =
              ArgType.headSizes (before.map (·.type))) ∧
          (item.type.isDynamic = true →
            layout items = head ++ dynamicTerms before ++ item.terms ++ dynamicTerms after)) ∧
      ((∀ argument ∈ arguments, argument.1.IsSized) →
        ArgType.shortages (arguments.map (·.1)) = 0) := by
  have each := isEncodingOf_of_encodeItems encoded
  have types_eq := map_type_of_isEncodingOf each
  have short := fallsShort_of_isEncodingOf each
  rw [← types_eq]
  -- The encoder writes the head as if it had the length that the types give it.
  have length := byteLength_heads_add_shortages short (ArgType.headSizes (items.map (·.type)))
  have laid : layout items =
      heads (ArgType.headSizes (items.map (·.type))) items ++ dynamicTerms items := by
    rw [layout, tails_eq]
  refine ⟨each, short, ⟨_, laid, length, ?_⟩, ?_⟩
  · intro before item after split
    constructor
    · obtain ⟨right, slots⟩ :=
        heads_split (ArgType.headSizes (items.map (·.type))) before item after
      refine ⟨heads (ArgType.headSizes (items.map (·.type))) before, right, ?_, ?_⟩
      · rw [CallData.byteLength_append, Nat.add_right_comm, length]
        rw [← split] at slots
        exact slots
      · apply byteLength_heads_add_shortages
        intro other member
        exact short other (split ▸ List.mem_append_left _ member)
    · intro dynamic
      have dynamics := dynamicTerms_split before dynamic after
      rw [← split] at dynamics
      simp only [laid, dynamics, List.append_assoc]
  · intro sized
    rw [types_eq]
    exact ArgType.shortages_of_allSized (ArgType.allSized_iff.2 (List.forall_mem_map.2 sized))

theorem layout_offsets_bytes_between : ∃ first second third seeds,
    encodeItems (.each [.uint 8, .bytes, .fixedBytes 1]) (Place.element ⟨"tx0", .argument 0, []⟩) 0
      .empty [.int 5, .bytes [7], .bytes [9]] = .ok ([first, second, third], seeds) ∧
    byteLength first.terms = 32 ∧
    ∃ head left right, layout [first, second, third] = head ++ second.terms ∧
      byteLength head = 96 ∧ head = left ++ [word 96] ++ right ∧ byteLength left = 32 := by
  refine ⟨_, _, _, _, rfl, ?_⟩
  obtain ⟨-, short, ⟨head, -, length, position⟩, none⟩ :=
    @layout_offsets [(.uint 8, .int 5), (.bytes, .bytes [7]), (.fixedBytes 1, .bytes [9])]
      (Place.element ⟨"tx0", .argument 0, []⟩) 0 .empty _ _ rfl
  have sized := none (by simp [ArgType.IsSized])
  have total : byteLength head = 96 := by rwa [sized] at length
  obtain ⟨⟨left, right, slots, first⟩, placed⟩ := position [_] _ [_] rfl
  refine ⟨short _ List.mem_cons_self rfl, head, left, right, ?_, total, ?_, first⟩
  · have laid : layout _ = head ++ [] ++ _ ++ [] := placed rfl
    rwa [List.append_nil, List.append_nil] at laid
  · rw [sized, CallData.byteLength_append, total] at slots
    exact slots

/-- An empty fixed byte string takes none of its word in the head, so the byte string behind it
begins at byte 32 and not at byte 64, as its offset says. -/
theorem offset_past_empty_fixedBytes : ∃ first second seeds,
    encodeItems (.each [.fixedBytes 0, .bytes]) (Place.element ⟨"tx0", .argument 0, []⟩) 0 .empty
      [.bytes [], .bytes [7]] = .ok ([first, second], seeds) ∧
    first.type.isDynamic = false ∧ first.type.headSize = 32 ∧ byteLength first.terms = 0 ∧
    second.type.isDynamic = true ∧ layout [first, second] = [word 64] ++ second.terms ∧
    byteLength [word 64] = 32 :=
  ⟨_, _, _, rfl, rfl, rfl, rfl, rfl, rfl, rfl⟩

end Encoding

end FuzzBridge
