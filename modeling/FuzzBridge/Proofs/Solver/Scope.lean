import FuzzBridge.Proofs.Solver.Place
import FuzzBridge.Proofs.Table
import FuzzBridge.Proofs.Text.Order
import FuzzBridge.Solver.Assignment

/-!
What a model has under a place. The search along the names of the model finds a value exactly if
some name that belongs to the place has one, so it depends on the values of the model only, and a
place has whatever its elements have.
-/

namespace FuzzBridge

/-- The name of the place, or a name that goes on after it with an underscore. -/
def Place.Covers (place : Place) (name : String) : Prop :=
  name = place.name ∨ place.chars ++ ['_'] <+: name.toList

theorem Place.toList_name (place : Place) : place.name.toList = place.chars :=
  String.toList_ofList

theorem Place.Covers.begins {place : Place} {name : String} (covers : place.Covers name) :
    place.chars <+: name.toList := by
  rcases covers with rfl | longer
  · exact place.toList_name ▸ List.prefix_rfl
  · exact (List.prefix_append _ _).trans longer

theorem Place.covers_extend (place : Place) (path : List Nat) :
    place.Covers (place.extend path).name := by
  cases path with
  | nil =>
    rw [extend_nil]
    exact .inl rfl
  | cons index rest =>
    right
    rw [toList_name, chars_extend]
    exact ⟨Nat.toDigits 10 index ++ indexChars rest, by simp [indexChars]⟩

theorem Place.Covers.of_element {place : Place} {index : Nat} {name : String}
    (covers : (place.element index).Covers name) : place.Covers name := by
  have below : place.chars ++ ['_'] <+: (place.element index).chars := by
    rw [chars_element]
    exact ⟨Nat.toDigits 10 index, by simp⟩
  exact .inr (below.trans covers.begins)

namespace Assignment

theorem value?_isSome_iff {model : Assignment} {name : String} :
    (model.value? name).isSome ↔
      ∃ entry, (name, entry) ∈ model.table.entries ∧ entry.value.isSome := by
  unfold value?
  constructor
  · intro assigned
    obtain ⟨value, h⟩ := Option.isSome_iff_exists.1 assigned
    obtain ⟨entry, found, given⟩ := Option.bind_eq_some_iff.1 h
    exact ⟨entry, Table.mem_of_find? found, by rw [given]; rfl⟩
  · rintro ⟨entry, member, assigned⟩
    rw [Table.find?_of_mem member]
    exact assigned

theorem assignsUnder_iff {model : Assignment} {place : Place} :
    model.assignsUnder place = true ↔
      ∃ name, place.Covers name ∧ (model.value? name).isSome := by
  have range := Table.mem_range_begins model.table.sorted place.name
  rw [Place.toList_name] at range
  unfold assignsUnder
  rw [List.any_eq_true]
  constructor
  · rintro ⟨⟨name, entry⟩, inRange, found⟩
    rw [Bool.and_eq_true, Bool.or_eq_true, beq_iff_eq, List.isPrefixOf_iff_prefix] at found
    exact ⟨name, found.2, value?_isSome_iff.2 ⟨entry, ((range _).1 inRange).1, found.1⟩⟩
  · rintro ⟨name, covers, assigned⟩
    obtain ⟨entry, member, given⟩ := value?_isSome_iff.1 assigned
    refine ⟨(name, entry), (range _).2 ⟨member, covers.begins⟩, ?_⟩
    rw [Bool.and_eq_true, Bool.or_eq_true, beq_iff_eq, List.isPrefixOf_iff_prefix]
    exact ⟨given, covers⟩

theorem names_in_byte_order (assignment : Assignment) :
    (assignment.names.map Text.encode).Pairwise (· < ·) := by
  unfold names Table.keys
  rw [List.pairwise_map, List.pairwise_map]
  exact assignment.table.sorted.imp Text.encode_lt_encode.2

/-- The search goes through names in the order of their bytes, from the name of the place on and as
long as they begin with it. It finds a value exactly if any entry has one whose name is that of the
place or goes on after it with an underscore. -/
theorem assignsUnder_eq_full_search (assignment : Assignment) (place : Place) :
    (assignment.names.map Text.encode).Pairwise (· < ·) ∧
      (assignment.assignsUnder place = true ↔
        ∃ entry ∈ assignment.table.entries, entry.2.value.isSome ∧
          (entry.1 = place.name ∨ (place.name ++ "_").toList <+: entry.1.toList)) := by
  have below : (place.name ++ "_").toList = place.chars ++ ['_'] := by
    simp [Place.toList_name]
  refine ⟨names_in_byte_order assignment, ?_⟩
  rw [assignsUnder_iff, below]
  constructor
  · rintro ⟨name, covers, assigned⟩
    obtain ⟨entry, member, given⟩ := value?_isSome_iff.1 assigned
    exact ⟨(name, entry), member, given, covers⟩
  · rintro ⟨⟨name, entry⟩, member, given, covers⟩
    exact ⟨name, covers, value?_isSome_iff.2 ⟨entry, member, given⟩⟩

/-- Names that go on with a hyphen or with another digit are of other places. -/
example : ((empty.set "tx1_arg1-x" 1 8).set "tx1_arg10_2" 1 8).assignsUnder
    ⟨"tx1", .argument 1, []⟩ = false := by decide

theorem assignsUnder_element {model : Assignment} {place : Place}
    (closed : model.assignsUnder place = false) (index : Nat) :
    model.assignsUnder (place.element index) = false := by
  rw [← Bool.not_eq_true] at closed ⊢
  intro opened
  obtain ⟨name, covers, assigned⟩ := assignsUnder_iff.1 opened
  exact closed (assignsUnder_iff.2 ⟨name, covers.of_element, assigned⟩)

/-- `merged` has the values of `second`, and those of `first` where `second` has none. -/
def IsMerge (merged first second : Assignment) : Prop :=
  ∀ name, merged.value? name = (second.value? name).or (first.value? name)

theorem isMerge_self (model : Assignment) : model.IsMerge model model := by
  intro name
  cases model.value? name <;> rfl

theorem isMerge_set (model : Assignment) (name : String) (value bits : Nat) :
    (model.set name value bits).IsMerge model (empty.set name value bits) := by
  intro other
  by_cases same : other = name
  · rw [same, value?_set_self, value?_set_self, Option.some_or]
  · rw [value?_set_of_ne _ same, value?_set_of_ne _ same, value?_empty, Option.none_or]

theorem IsMerge.assignsUnder {merged first second : Assignment}
    (merge : merged.IsMerge first second) (place : Place) :
    merged.assignsUnder place = true ↔
      first.assignsUnder place = true ∨ second.assignsUnder place = true := by
  simp only [assignsUnder_iff, merge _, Option.isSome_or, Bool.or_eq_true]
  constructor
  · rintro ⟨name, covers, later | earlier⟩
    · exact .inr ⟨name, covers, later⟩
    · exact .inl ⟨name, covers, earlier⟩
  · rintro (⟨name, covers, earlier⟩ | ⟨name, covers, later⟩)
    · exact ⟨name, covers, .inr earlier⟩
    · exact ⟨name, covers, .inl later⟩

end Assignment

end FuzzBridge
