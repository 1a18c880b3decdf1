import FuzzBridge.Proofs.Json.Printer
import FuzzBridge.Proofs.Table

/-!
When two JSON texts give one value. Of a key that an object has several times only the last value
counts, and the order of the members does not. Sorting decides it: two values are the same exactly
if they are sorted alike.
-/

namespace FuzzBridge.Json

open Table (IsLast)

/-- Values that differ in nothing but the order of members and in values that a later one of their
key replaces. -/
inductive Same : Json → Json → Prop
  | null : Same .null .null
  | bool (value : Bool) : Same (.bool value) (.bool value)
  | number (value : Numeral) : Same (.number value) (.number value)
  | text (value : String) : Same (.text value) (.text value)
  | array {left right : List Json} (items : List.Forall₂ Same left right) :
      Same (.array left) (.array right)
  | object {left right : List (String × Json)}
      (keys : ∀ key, (∃ value, IsLast left key value) ↔ ∃ value, IsLast right key value)
      (values : ∀ key value value',
        IsLast left key value → IsLast right key value' → Same value value') :
      Same (.object left) (.object right)

/-- A double is in the value; what a later value of its key replaces is not. -/
inductive HasDouble : Json → Prop
  | number (value : Number.Double) : HasDouble (.number (.double value))
  | item {items : List Json} {item : Json} (member : item ∈ items) (inner : HasDouble item) :
      HasDouble (.array items)
  | member {members : List (String × Json)} {key : String} {value : Json}
      (last : IsLast members key value) (inner : HasDouble value) : HasDouble (.object members)

theorem not_hasDouble_object {members : List (String × Json)}
    (each : ∀ member ∈ members, ¬ member.2.HasDouble) : ¬ (object members).HasDouble := by
  intro double
  cases double with
  | member last inner => exact each _ last.mem inner

theorem sortedItems_eq_map (items : List Json) : sortedItems items = items.map sorted := by
  induction items with
  | nil => rfl
  | cons item rest ih => rw [sortedItems, ih, List.map_cons]

theorem sortedMembers_eq_map (members : List (String × Json)) :
    sortedMembers members = members.map fun member => (member.1, member.2.sorted) := by
  induction members with
  | nil => rfl
  | cons member rest ih => rw [sortedMembers, ih, List.map_cons]

theorem find?_sortedMembers {members : List (String × Json)} {key : String} {value : Json} :
    (Table.ofList (sortedMembers members)).find? key = some value ↔
      ∃ given, IsLast members key given ∧ given.sorted = value := by
  rw [Table.find?_ofList, sortedMembers_eq_map, Table.isLast_map]

/-! Equality. -/

/-- The value is sorted like exactly those that are the same. -/
def IsSettled (left : Json) : Prop := ∀ right, left.sorted = right.sorted ↔ left.Same right

theorem sortedItems_eq_iff {left right : List Json} (each : ∀ item ∈ left, item.IsSettled) :
    sortedItems left = sortedItems right ↔ List.Forall₂ Same left right := by
  induction left generalizing right with
  | nil => cases right <;> simp [sortedItems]
  | cons item left ih =>
    rw [List.forall_mem_cons] at each
    cases right with
    | nil => simp [sortedItems]
    | cons other right =>
      rw [sortedItems, sortedItems, List.cons.injEq, List.forall₂_cons, each.1 other, ih each.2]

theorem sortedMembers_eq_iff {left right : List (String × Json)}
    (each : ∀ member ∈ left, member.2.IsSettled) :
    Table.ofList (sortedMembers left) = Table.ofList (sortedMembers right) ↔
      (object left).Same (.object right) := by
  constructor
  · intro alike
    have found (key : String) (value : Json) :
        (∃ given, IsLast left key given ∧ given.sorted = value) ↔
          ∃ given, IsLast right key given ∧ given.sorted = value := by
      rw [← find?_sortedMembers, ← find?_sortedMembers, alike]
    refine .object (fun key => ⟨?_, ?_⟩) fun key value value' last last' => ?_
    · rintro ⟨value, last⟩
      obtain ⟨given, last', -⟩ := (found key value.sorted).1 ⟨value, last, rfl⟩
      exact ⟨given, last'⟩
    · rintro ⟨value, last⟩
      obtain ⟨given, last', -⟩ := (found key value.sorted).2 ⟨value, last, rfl⟩
      exact ⟨given, last'⟩
    · obtain ⟨given, also, same⟩ := (found key value.sorted).1 ⟨value, last, rfl⟩
      obtain rfl := also.unique last'
      exact (each (key, value) last.mem given).1 same.symm
  · intro same
    cases same with
    | object keys values =>
      have sorts {key : String} {value value' : Json} (last : IsLast left key value)
          (last' : IsLast right key value') : value.sorted = value'.sorted :=
        (each (key, value) last.mem value').2 (values key value value' last last')
      refine Table.ext_find? fun key => Option.ext fun value => ?_
      rw [find?_sortedMembers, find?_sortedMembers]
      constructor
      · rintro ⟨given, last, rfl⟩
        obtain ⟨other, last'⟩ := (keys key).1 ⟨given, last⟩
        exact ⟨other, last', (sorts last last').symm⟩
      · rintro ⟨given, last', rfl⟩
        obtain ⟨other, last⟩ := (keys key).2 ⟨given, last'⟩
        exact ⟨other, last, sorts last last'⟩

theorem isSettled (left : Json) : left.IsSettled := by
  induction left using Json.induction with
  | null | bool value | number value | text value =>
    intro right
    constructor
    · intro alike
      cases right <;> cases alike
      constructor
    · intro same
      cases same
      rfl
  | array items ih =>
    intro right
    constructor
    · intro alike
      cases right with
      | array others => exact .array ((sortedItems_eq_iff ih).1 (Json.array.inj alike))
      | _ => cases alike
    · intro same
      cases same with
      | array alike => rw [sorted, sorted, (sortedItems_eq_iff ih).2 alike]
  | object members ih =>
    intro right
    constructor
    · intro alike
      cases right with
      | object others =>
        exact (sortedMembers_eq_iff ih).1 (Table.ext_entries (Json.object.inj alike))
      | _ => cases alike
    · intro same
      cases right with
      | object others => rw [sorted, sorted, (sortedMembers_eq_iff ih).2 same]
      | _ => cases same

theorem sorted_eq_iff {left right : Json} : left.sorted = right.sorted ↔ left.Same right :=
  isSettled left right

instance sameSetoid : Setoid Json where
  r := Same
  iseqv :=
    ⟨fun _ => sorted_eq_iff.1 rfl, fun same => sorted_eq_iff.1 (sorted_eq_iff.2 same).symm,
      fun first second =>
        sorted_eq_iff.1 ((sorted_eq_iff.2 first).trans (sorted_eq_iff.2 second))⟩

/-- Sorting leaves out what is replaced, so a value without doubles is sorted to a whole one. -/
theorem isWhole_sorted {value : Json} (exact : ¬ value.HasDouble) : value.sorted.IsWhole := by
  induction value using Json.induction with
  | null => exact .null
  | bool value => exact .bool value
  | number value =>
    cases value with
    | natural value => exact .natural value
    | negative magnitude => exact .negative magnitude
    | double value => exact absurd (.number value) exact
  | text value => exact .text value
  | array items ih =>
    refine .array fun item member => ?_
    rw [sortedItems_eq_map] at member
    obtain ⟨given, listed, rfl⟩ := List.mem_map.1 member
    exact ih given listed fun inner => exact (.item listed inner)
  | object members ih =>
    refine .object fun member inside => ?_
    obtain ⟨given, last, sorts⟩ := find?_sortedMembers.1 (Table.find?_eq_some.2 inside)
    rw [← sorts]
    exact ih (member.1, given) last.mem fun inner => exact (.member last inner)

end FuzzBridge.Json
