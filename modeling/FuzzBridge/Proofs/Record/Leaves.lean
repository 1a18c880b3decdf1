import FuzzBridge.Proofs.Record.Reading

/-!
The leaves of a record have different names. Which names there are depends on the shape of its
arguments and on whether it is a call that sends something.
-/

namespace FuzzBridge

theorem CallReading.place_of_mem_coreLeaves {call : CallReading} {transaction : String}
    {leaf : Leaf} (member : leaf ∈ call.coreLeaves transaction) :
    leaf.place.transaction = transaction ∧
      (leaf.place.field = .sender ∨ ∃ index, leaf.place.field = .argument index) := by
  rcases List.mem_append.1 member with member | member
  · obtain ⟨same, argument⟩ := Encoding.place_of_mem_callLeaves member
    exact ⟨same, .inr argument⟩
  · rw [List.mem_singleton.1 member]
    exact ⟨rfl, .inl rfl⟩

theorem CallReading.nodup_coreLeaves (call : CallReading) (transaction : String) :
    ((call.coreLeaves transaction).map Leaf.place).Nodup := by
  rw [coreLeaves, List.map_append, List.nodup_append]
  refine ⟨Encoding.nodup_callLeaves call.types transaction call.values, by simp, ?_⟩
  intro place first other last same
  obtain ⟨leaf, member, rfl⟩ := List.mem_map.1 first
  obtain ⟨-, index, field⟩ := Encoding.place_of_mem_callLeaves member
  obtain rfl : other = .ofField transaction .sender := by
    simpa [senderLeaf, Leaf.ofValue] using last
  rw [same] at field
  simp [Place.ofField] at field

namespace Reading

variable {reading : Reading} {transaction : String} {leaf : Leaf}

theorem mem_valueLeaves :
    leaf ∈ reading.valueLeaves transaction ↔
      ∃ call, reading.call = some call ∧ call.value ≠ 0 ∧ leaf = call.valueLeaf transaction := by
  unfold valueLeaves
  cases reading.call with
  | none => simp
  | some call =>
    unfold CallReading.valueLeaves
    split
    · next zero => simp [zero]
    · next nonzero => simp [nonzero]

theorem place_of_mem_coreLeaves (member : leaf ∈ reading.coreLeaves transaction) :
    leaf.place.transaction = transaction ∧ leaf.place.field ≠ .value := by
  unfold coreLeaves at member
  rcases List.mem_cons.1 member with rfl | member
  · exact ⟨rfl, nofun⟩
  · rcases List.mem_cons.1 member with rfl | member
    · exact ⟨rfl, nofun⟩
    · split at member
      · obtain ⟨same, field | ⟨index, field⟩⟩ := CallReading.place_of_mem_coreLeaves member
        · exact ⟨same, by simp [field]⟩
        · exact ⟨same, by simp [field]⟩
      · simp at member

theorem nodup_coreLeaves (reading : Reading) (transaction : String) :
    ((reading.coreLeaves transaction).map Leaf.place).Nodup := by
  unfold coreLeaves
  rw [List.map_cons, List.map_cons, List.nodup_cons, List.nodup_cons, List.mem_cons]
  cases reading.call with
  | none => simp [blockLeaf, timeLeaf, Leaf.ofValue, Place.ofField]
  | some call =>
    have other {place : Place} (member : place ∈ (call.coreLeaves transaction).map Leaf.place) :
        place.field ≠ .blockDelay ∧ place.field ≠ .timeDelay := by
      obtain ⟨leaf, hleaf, rfl⟩ := List.mem_map.1 member
      obtain ⟨-, field | ⟨index, field⟩⟩ := CallReading.place_of_mem_coreLeaves hleaf <;>
        simp [field]
    refine ⟨?_, ?_, call.nodup_coreLeaves transaction⟩
    · rintro (same | member)
      · have field : Field.blockDelay = Field.timeDelay := congrArg Place.field same
        simp at field
      · exact (other member).1 rfl
    · intro member
      exact (other member).2 rfl

theorem nodup_place_leaves (reading : Reading) (transaction : String) :
    ((reading.leaves transaction).map Leaf.place).Nodup := by
  rw [leaves, List.map_append, List.nodup_append]
  refine ⟨nodup_coreLeaves reading transaction, ?_, ?_⟩
  · unfold valueLeaves CallReading.valueLeaves
    split
    · split <;> simp
    · simp
  · intro place first other last same
    obtain ⟨leaf, member, rfl⟩ := List.mem_map.1 first
    obtain ⟨_, sends, rfl⟩ := List.mem_map.1 last
    obtain ⟨call, -, -, rfl⟩ := mem_valueLeaves.1 sends
    exact (place_of_mem_coreLeaves member).2 (congrArg Place.field same)

theorem coreLeaves_subset (member : leaf ∈ reading.coreLeaves transaction) :
    leaf ∈ reading.leaves transaction := List.mem_append_left _ member

theorem blockLeaf_mem : reading.blockLeaf transaction ∈ reading.coreLeaves transaction :=
  List.mem_cons_self

theorem timeLeaf_mem : reading.timeLeaf transaction ∈ reading.coreLeaves transaction :=
  List.mem_cons_of_mem _ List.mem_cons_self

theorem callLeaf_mem {call : CallReading} (isCall : reading.call = some call)
    (member : leaf ∈ call.coreLeaves transaction) : leaf ∈ reading.coreLeaves transaction := by
  unfold coreLeaves
  rw [isCall]
  exact List.mem_cons_of_mem _ (List.mem_cons_of_mem _ member)

theorem valueLeaf_mem {call : CallReading} (isCall : reading.call = some call)
    (sends : call.value ≠ 0) : call.valueLeaf transaction ∈ reading.leaves transaction :=
  List.mem_append_right _ (mem_valueLeaves.2 ⟨call, isCall, sends, rfl⟩)

theorem transaction_of_mem_leaves (member : leaf ∈ reading.leaves transaction) :
    leaf.place.transaction = transaction := by
  rcases List.mem_append.1 member with member | member
  · exact (place_of_mem_coreLeaves member).1
  · obtain ⟨call, -, -, rfl⟩ := mem_valueLeaves.1 member
    rfl

theorem nodup_leaves (reading : Reading) (transaction : String) :
    ((reading.leaves transaction).map Leaf.name).Nodup :=
  Leaf.nodup_name (nodup_place_leaves reading transaction) fun _ => transaction_of_mem_leaves

theorem mem_names_step (name : String) :
    name ∈ (reading.step transaction).seeds.names ↔
      name ∈ (reading.leaves transaction).map Leaf.name := by
  rw [step, Assignment.mem_names_declare]
  exact or_iff_left List.not_mem_nil

theorem value_mem_names_step :
    (Place.ofField transaction .value).name ∈ (reading.step transaction).seeds.names ↔
      ∃ call, reading.call = some call ∧ call.value ≠ 0 := by
  rw [mem_names_step]
  constructor
  · intro member
    obtain ⟨leaf, hleaf, same⟩ := List.mem_map.1 member
    have place := Place.name_injective (transaction_of_mem_leaves hleaf) same
    rcases List.mem_append.1 hleaf with core | value
    · exact absurd (congrArg Place.field place) (place_of_mem_coreLeaves core).2
    · obtain ⟨call, isCall, sends, -⟩ := mem_valueLeaves.1 value
      exact ⟨call, isCall, sends⟩
  · rintro ⟨call, isCall, sends⟩
    rw [← CallReading.name_valueLeaf call transaction]
    exact List.mem_map_of_mem (valueLeaf_mem isCall sends)

theorem mem_names_step_of_ne {name : String} (h : name ≠ (Place.ofField transaction .value).name) :
    name ∈ (reading.step transaction).seeds.names ↔
      name ∈ ((reading.coreLeaves transaction).map Leaf.place).map Place.name := by
  have core : (reading.coreLeaves transaction).map Leaf.name =
      ((reading.coreLeaves transaction).map Leaf.place).map Place.name := by
    rw [List.map_map]
    rfl
  rw [mem_names_step, leaves, List.map_append, List.mem_append, ← core, or_iff_left]
  intro member
  obtain ⟨leaf, hleaf, same⟩ := List.mem_map.1 member
  obtain ⟨call, -, -, rfl⟩ := mem_valueLeaves.1 hleaf
  rw [CallReading.name_valueLeaf] at same
  exact h same.symm

end Reading

end FuzzBridge
