import FuzzBridge.Proofs.Encoding.Terms

/-!
Which places and terms a value has. Places and terms depend on its shape only, no two leaves have
the same place, and a term is a constant or stands for one of the leaves.
-/

namespace FuzzBridge.Encoding

/-! The shape of a value decides. -/

theorem byteSymbols_congr (place : Place) (index : Nat) {left right : List UInt8}
    (length : left.length = right.length) :
    byteSymbols place index left = byteSymbols place index right := by
  induction left generalizing index right with
  | nil => rw [List.length_eq_zero_iff.1 length.symm]
  | cons byte rest ih =>
    cases right with
    | nil => simp at length
    | cons other others => rw [byteSymbols, byteSymbols, ih (index + 1) (by simpa using length)]

theorem map_site_byteLeaves (place : Place) (index : Nat) {left right : List UInt8}
    (length : left.length = right.length) :
    (byteLeaves place index left).map Leaf.site =
      (byteLeaves place index right).map Leaf.site := by
  induction left generalizing index right with
  | nil => rw [List.length_eq_zero_iff.1 length.symm]
  | cons byte rest ih =>
    cases right with
    | nil => simp at length
    | cons other others =>
      rw [byteLeaves, byteLeaves, List.map_cons, List.map_cons, Leaf.site_ofByte,
        Leaf.site_ofByte, ih (index + 1) (by simpa using length)]

theorem items_congr {left right : List Datum}
    (each : List.Forall₂ (fun left right => ∀ type place,
      terms type place left = terms type place right) left right)
    (types : List ArgType) (placeOf : Nat → Place) (index : Nat) :
    items types placeOf index left = items types placeOf index right := by
  induction each generalizing types index with
  | nil => rfl
  | cons first _ ih =>
    cases types with
    | nil => simp [items]
    | cons type types => rw [items, items, first, ih]

theorem terms_of_sameShape {left right : Datum} (same : SameShape left right) (type : ArgType)
    (place : Place) : terms type place left = terms type place right := by
  induction same using SameShape.induction generalizing type place with
  | int left right => cases type <;> rfl
  | bool left right => rfl
  | bytes left right count =>
    cases type <;> simp only [terms, byteSymbols_congr place 0 count, count]
  | seq left right _ ih =>
    have each := items_congr (ih.imp fun _ _ h => h.2)
    cases type <;> simp only [terms, ih.length_eq, each]

theorem map_site_leavesFrom {left right : List Datum}
    (each : List.Forall₂ (fun left right => ∀ type place,
      (leaves type place left).map Leaf.site = (leaves type place right).map Leaf.site)
      left right)
    (types : List ArgType) (placeOf : Nat → Place) (index : Nat) :
    (leavesFrom types placeOf index left).map Leaf.site =
      (leavesFrom types placeOf index right).map Leaf.site := by
  induction each generalizing types index with
  | nil => rfl
  | cons first _ ih =>
    cases types with
    | nil => simp [leavesFrom]
    | cons type types => rw [leavesFrom, leavesFrom, List.map_append, List.map_append, first, ih]

theorem map_site_leaves {left right : Datum} (same : SameShape left right) (type : ArgType)
    (place : Place) :
    (leaves type place left).map Leaf.site = (leaves type place right).map Leaf.site := by
  induction same using SameShape.induction generalizing type place with
  | int left right => cases type <;> rfl
  | bool left right => rfl
  | bytes left right count => exact map_site_byteLeaves place 0 count
  | seq left right _ ih =>
    have each := map_site_leavesFrom (ih.imp fun _ _ h => h.2)
    cases type <;> simp only [leaves, ih.length_eq, each]

/-! No place occurs twice. -/

/-- Elements that differ in their index have nothing below them in common. -/
def IsSeparating (placeOf : Nat → Place) : Prop :=
  ∀ left right path path', (placeOf left).extend path = (placeOf right).extend path' → left = right

theorem isSeparating_element (place : Place) : IsSeparating place.element := by
  intro left right path path' h
  rw [Place.extend_element, Place.extend_element] at h
  have indices := List.append_cancel_left (congrArg Place.indices h)
  exact (List.cons.inj indices).1

theorem isSeparating_argument (transaction : String) :
    IsSeparating fun index => Place.ofField transaction (.argument index) := by
  intro left right path path' h
  have field := congrArg Place.field h
  exact Field.argument.inj field

theorem place_of_mem_byteLeaves {place : Place} {index : Nat} {bytes : List UInt8} {leaf : Leaf}
    (member : leaf ∈ byteLeaves place index bytes) :
    ∃ position, index ≤ position ∧ leaf.place = place.extend [position] ∧ leaf.bits = 8 := by
  induction bytes generalizing index with
  | nil => simp [byteLeaves] at member
  | cons byte rest ih =>
    rcases List.mem_cons.1 member with rfl | member
    · exact ⟨index, Nat.le_refl index, rfl, rfl⟩
    · obtain ⟨position, after, found⟩ := ih member
      exact ⟨position, by omega, found⟩

theorem place_of_mem_leavesFrom {types : List ArgType} {placeOf : Nat → Place} {index : Nat}
    {elements : List Datum}
    (each : ∀ value ∈ elements, ∀ type place, ∀ leaf ∈ leaves type place value,
      ∃ path, leaf.place = place.extend path)
    {leaf : Leaf} (member : leaf ∈ leavesFrom types placeOf index elements) :
    ∃ position path, index ≤ position ∧ leaf.place = (placeOf position).extend path := by
  induction elements generalizing types index with
  | nil => simp [leavesFrom] at member
  | cons value rest ih =>
    cases types with
    | nil => simp [leavesFrom] at member
    | cons type types =>
      rw [leavesFrom, List.mem_append] at member
      rcases member with member | member
      · obtain ⟨path, found⟩ := each value (by simp) type _ leaf member
        exact ⟨index, path, Nat.le_refl index, found⟩
      · obtain ⟨position, path, after, found⟩ :=
          ih (fun value member => each value (List.mem_cons_of_mem _ member)) member
        exact ⟨position, path, by omega, found⟩

theorem place_of_mem_leaves {type : ArgType} {place : Place} {value : Datum} {leaf : Leaf}
    (member : leaf ∈ leaves type place value) : ∃ path, leaf.place = place.extend path := by
  induction value using Datum.induction generalizing type place leaf with
  | int value =>
    refine ⟨[], ?_⟩
    cases type <;> simp only [leaves, List.mem_singleton] at member <;> simp [member]
  | bool value =>
    rw [leaves, List.mem_singleton] at member
    exact ⟨[], by simp [member]⟩
  | bytes value =>
    obtain ⟨position, -, found, -⟩ := place_of_mem_byteLeaves member
    exact ⟨[position], found⟩
  | seq elements ih =>
    have below {types : List ArgType} (member : leaf ∈ leavesFrom types place.element 0 elements) :
        ∃ path, leaf.place = place.extend path := by
      obtain ⟨position, path, -, found⟩ :=
        place_of_mem_leavesFrom (fun value h type place leaf => ih value h) member
      exact ⟨position :: path, by rw [found, Place.extend_element]⟩
    cases type <;> simp only [leaves, List.not_mem_nil] at member <;> exact below member

theorem nodup_byteLeaves (place : Place) (index : Nat) (bytes : List UInt8) :
    ((byteLeaves place index bytes).map Leaf.place).Nodup := by
  induction bytes generalizing index with
  | nil => simp [byteLeaves]
  | cons byte rest ih =>
    rw [byteLeaves, List.map_cons, List.nodup_cons]
    refine ⟨?_, ih (index + 1)⟩
    intro member
    obtain ⟨leaf, hleaf, same⟩ := List.mem_map.1 member
    obtain ⟨position, after, found, -⟩ := place_of_mem_byteLeaves hleaf
    have : index = position := isSeparating_element place index position [] [] (by
      rw [Place.extend_nil, Place.extend_element, ← found]
      exact same.symm)
    omega

theorem nodup_leavesFrom {elements : List Datum}
    (each : ∀ value ∈ elements, ∀ type place, ((leaves type place value).map Leaf.place).Nodup)
    {placeOf : Nat → Place} (separating : IsSeparating placeOf) (types : List ArgType)
    (index : Nat) : ((leavesFrom types placeOf index elements).map Leaf.place).Nodup := by
  induction elements generalizing types index with
  | nil => simp [leavesFrom]
  | cons value rest ih =>
    cases types with
    | nil => simp [leavesFrom]
    | cons type types =>
      rw [leavesFrom, List.map_append, List.nodup_append]
      refine ⟨each value (by simp) type _,
        ih (fun value member => each value (List.mem_cons_of_mem _ member)) types _, ?_⟩
      intro place first other later same
      obtain ⟨leaf, hleaf, rfl⟩ := List.mem_map.1 first
      obtain ⟨leaf', hleaf', rfl⟩ := List.mem_map.1 later
      obtain ⟨path, found⟩ := place_of_mem_leaves hleaf
      obtain ⟨position, path', after, found'⟩ :=
        place_of_mem_leavesFrom (fun _ _ _ _ _ => place_of_mem_leaves) hleaf'
      have := separating index position path path' (by rw [← found, ← found', same])
      omega

theorem nodup_leaves (type : ArgType) (place : Place) (value : Datum) :
    ((leaves type place value).map Leaf.place).Nodup := by
  induction value using Datum.induction generalizing type place with
  | int value => cases type <;> simp [leaves]
  | bool value => simp [leaves]
  | bytes value => exact nodup_byteLeaves place 0 value
  | seq elements ih =>
    have each := nodup_leavesFrom (fun value h type place => ih value h type place)
      (isSeparating_element place)
    cases type <;> simp only [leaves, List.map_nil, List.nodup_nil, each]

end FuzzBridge.Encoding
