import Mathlib.Data.List.Induction
import Mathlib.Data.List.Sort
import FuzzBridge.Table

/-!
Tables are determined by their sorted entries, and the keys that begin with a text stand together,
from that text on.
-/

namespace FuzzBridge.Table

variable {β : Type}

theorem mem_keys_iff (table : Table β) (key : String) :
    key ∈ table.keys ↔ (table.find? key).isSome := by
  simp [keys, find?]

theorem mem_of_find? {table : Table β} {key : String} {value : β}
    (h : table.find? key = some value) : (key, value) ∈ table.entries := by
  obtain ⟨⟨found, _⟩, hfound, rfl⟩ := Option.map_eq_some_iff.1 h
  have same : found = key := by simpa using List.find?_some hfound
  rw [← same]
  exact List.mem_of_find?_eq_some hfound

theorem find?_of_mem {table : Table β} {key : String} {value : β}
    (member : (key, value) ∈ table.entries) : table.find? key = some value := by
  obtain ⟨entries, sorted⟩ := table
  unfold find?
  induction entries with
  | nil => simp at member
  | cons head rest ih =>
    rw [List.pairwise_cons] at sorted
    rcases List.mem_cons.1 member with rfl | member
    · simp
    · have differ : head.1 ≠ key := String.ne_of_lt (sorted.1 _ member)
      simpa [differ] using ih sorted.2 member

theorem find?_eq_some {table : Table β} {key : String} {value : β} :
    table.find? key = some value ↔ (key, value) ∈ table.entries :=
  ⟨mem_of_find?, find?_of_mem⟩

theorem ext_entries {left right : Table β} (same : left.entries = right.entries) :
    left = right := by
  obtain ⟨_, _⟩ := left
  obtain ⟨_, _⟩ := right
  cases same
  rfl

theorem ext_find? {left right : Table β} (same : ∀ key, left.find? key = right.find? key) :
    left = right := by
  have antisymm : Std.Antisymm fun left right : String × β => left.1 < right.1 :=
    ⟨fun _ _ less more => absurd more (String.lt_asymm less)⟩
  have irrefl : Std.Irrefl fun left right : String × β => left.1 < right.1 :=
    ⟨fun entry => String.lt_irrefl entry.1⟩
  have members (entry : String × β) : entry ∈ left.entries ↔ entry ∈ right.entries := by
    rw [← find?_eq_some, same, find?_eq_some]
  exact ext_entries (left.sorted.eq_of_mem_iff right.sorted members)

theorem place_of_forall_lt {list : List (String × β)} {key : String}
    (below : ∀ entry ∈ list, entry.1 < key) (value : β) :
    place key value list = list ++ [(key, value)] := by
  induction list with
  | nil => rfl
  | cons head rest ih =>
    rw [List.forall_mem_cons] at below
    have differ : key ≠ head.1 := (String.ne_of_lt below.1).symm
    have after : ¬ key < head.1 := String.lt_asymm below.1
    rw [place, if_neg differ, if_neg after, ih below.2, List.cons_append]

theorem exists_insert {table : Table β} {key : String} (fresh : table.find? key = none)
    (value : β) :
    ∃ before after, table.entries = before ++ after ∧
      (table.insert key value).entries = before ++ (key, value) :: after := by
  obtain ⟨entries, sorted⟩ := table
  simp only [insert]
  simp only [find?, Option.map_eq_none_iff] at fresh
  clear sorted
  induction entries with
  | nil => exact ⟨[], [], rfl, rfl⟩
  | cons head rest ih =>
    obtain ⟨other, old⟩ := head
    rw [List.find?_cons] at fresh
    split at fresh
    · cases fresh
    next differ =>
      have differ : key ≠ other := fun same => by simp [same] at differ
      simp only [place, if_neg differ]
      split
      · exact ⟨[], _, rfl, rfl⟩
      · obtain ⟨before, after, split, placed⟩ := ih fresh
        exact ⟨(other, old) :: before, after, by rw [split]; rfl, by rw [placed]; rfl⟩

theorem entries_foldl_insert {list : List (String × β)} {table : Table β}
    (sorted : (table.entries ++ list).Pairwise fun left right => left.1 < right.1) :
    (list.foldl (fun table entry => table.insert entry.1 entry.2) table).entries =
      table.entries ++ list := by
  induction list generalizing table with
  | nil => rw [List.foldl_nil, List.append_nil]
  | cons head rest ih =>
    have below : ∀ entry ∈ table.entries, entry.1 < head.1 := fun entry member =>
      (List.pairwise_append.1 sorted).2.2 entry member head List.mem_cons_self
    have inserted : (table.insert head.1 head.2).entries = table.entries ++ [head] :=
      place_of_forall_lt below head.2
    rw [List.append_cons, ← inserted] at sorted
    rw [List.foldl_cons, ih sorted, inserted, ← List.append_cons]

theorem entries_ofList {list : List (String × β)}
    (sorted : list.Pairwise fun left right => left.1 < right.1) : (ofList list).entries = list :=
  entries_foldl_insert sorted

theorem ofList_entries (table : Table β) : ofList table.entries = table :=
  ext_entries (entries_ofList table.sorted)

/-- The last value that a list gives to a key. -/
def IsLast (list : List (String × β)) (key : String) (value : β) : Prop :=
  ∃ before after, list = before ++ (key, value) :: after ∧ ∀ other ∈ after, other.1 ≠ key

theorem IsLast.mem {list : List (String × β)} {key : String} {value : β}
    (last : IsLast list key value) : (key, value) ∈ list := by
  obtain ⟨before, after, rfl, -⟩ := last
  simp

theorem isLast_append_singleton {list : List (String × β)} {entry : String × β} {key : String}
    {value : β} :
    IsLast (list ++ [entry]) key value ↔
      entry = (key, value) ∨ entry.1 ≠ key ∧ IsLast list key value := by
  constructor
  · rintro ⟨before, after, split, others⟩
    rcases List.eq_nil_or_concat after with rfl | ⟨front, last, rfl⟩
    · obtain ⟨-, same⟩ := List.append_inj' split rfl
      exact .inl (List.cons.inj same).1
    · rw [List.concat_eq_append, ← List.cons_append, ← List.append_assoc] at split
      obtain ⟨rfl, same⟩ := List.append_inj' split rfl
      obtain rfl := (List.cons.inj same).1
      simp only [List.concat_eq_append, List.forall_mem_append, List.forall_mem_singleton] at others
      exact .inr ⟨others.2, before, front, rfl, others.1⟩
  · rintro (rfl | ⟨differ, before, after, rfl, others⟩)
    · exact ⟨list, [], rfl, List.forall_mem_nil _⟩
    · refine ⟨before, after ++ [entry], by simp, ?_⟩
      simp only [List.forall_mem_append, List.forall_mem_singleton]
      exact ⟨others, differ⟩

theorem exists_isLast {list : List (String × β)} {key : String} {value : β}
    (member : (key, value) ∈ list) : ∃ last, IsLast list key last := by
  induction list using List.reverseRecOn with
  | nil => cases member
  | append_singleton front entry ih =>
    by_cases same : entry.1 = key
    · exact ⟨entry.2, isLast_append_singleton.2 (.inl (by rw [← same]))⟩
    · have before : (key, value) ∈ front := by
        rcases List.mem_append.1 member with before | final
        · exact before
        · exact absurd (congrArg Prod.fst (List.mem_singleton.1 final)).symm same
      obtain ⟨last, h⟩ := ih before
      exact ⟨last, isLast_append_singleton.2 (.inr ⟨same, h⟩)⟩

theorem find?_ofList {list : List (String × β)} {key : String} {value : β} :
    (ofList list).find? key = some value ↔ IsLast list key value := by
  induction list using List.reverseRecOn with
  | nil =>
    refine ⟨nofun, ?_⟩
    rintro ⟨before, after, split, -⟩
    simp at split
  | append_singleton front entry ih =>
    have step : ofList (front ++ [entry]) = (ofList front).insert entry.1 entry.2 := by
      simp [ofList]
    rw [step, isLast_append_singleton, ← ih]
    by_cases same : entry.1 = key
    · subst same
      simp [Prod.ext_iff]
    · rw [find?_insert_of_ne _ (Ne.symm same)]
      simp [Prod.ext_iff, same]

theorem IsLast.unique {list : List (String × β)} {key : String} {left right : β}
    (first : IsLast list key left) (second : IsLast list key right) : left = right := by
  rw [← find?_ofList] at first second
  exact Option.some.inj (first.symm.trans second)

theorem isLast_nil {key : String} {value : β} : ¬ IsLast [] key value := by
  rintro ⟨before, after, split, -⟩
  simp at split

theorem isLast_append {left right : List (String × β)} {key : String} {value : β} :
    IsLast (left ++ right) key value ↔
      IsLast right key value ∨ (∀ other ∈ right, other.1 ≠ key) ∧ IsLast left key value := by
  induction right using List.reverseRecOn with
  | nil => simp [isLast_nil]
  | append_singleton front entry ih =>
    rw [← List.append_assoc, isLast_append_singleton, isLast_append_singleton, ih,
      List.forall_mem_append, List.forall_mem_singleton]
    tauto

theorem isLast_cons {entry : String × β} {rest : List (String × β)} {key : String} {value : β} :
    IsLast (entry :: rest) key value ↔
      IsLast rest key value ∨ (∀ other ∈ rest, other.1 ≠ key) ∧ entry = (key, value) := by
  have single : IsLast [entry] key value ↔ entry = (key, value) := by
    have appended : IsLast ([] ++ [entry]) key value ↔ _ := isLast_append_singleton
    simpa [isLast_nil] using appended
  rw [← List.singleton_append, isLast_append, single]

theorem isLast_swap {before after : List (String × β)} {first second : String × β}
    (differ : first.1 ≠ second.1) {key : String} {value : β}
    (last : IsLast (before ++ first :: second :: after) key value) :
    IsLast (before ++ second :: first :: after) key value := by
  simp only [isLast_append, isLast_cons, List.forall_mem_cons, Prod.ext_iff] at last ⊢
  grind

theorem isLast_map {α : Type} {list : List (String × α)} {change : α → β} {key : String}
    {value : β} :
    IsLast (list.map fun entry => (entry.1, change entry.2)) key value ↔
      ∃ given, IsLast list key given ∧ change given = value := by
  induction list using List.reverseRecOn with
  | nil => simp [isLast_nil]
  | append_singleton front entry ih =>
    rw [List.map_append, List.map_singleton, isLast_append_singleton, ih]
    simp only [isLast_append_singleton, Prod.ext_iff]
    constructor
    · rintro (⟨same, rfl⟩ | ⟨differ, given, last, rfl⟩)
      · exact ⟨entry.2, .inl ⟨same, rfl⟩, rfl⟩
      · exact ⟨given, .inr ⟨differ, last⟩, rfl⟩
    · rintro ⟨given, ⟨same, rfl⟩ | ⟨differ, last⟩, rfl⟩
      · exact .inl ⟨same, rfl⟩
      · exact .inr ⟨differ, given, last, rfl⟩

theorem prefix_of_between {name between text : List Char} (low : ¬ between < name)
    (high : ¬ text < between) (begins : name <+: text) : name <+: between := by
  induction name generalizing between text with
  | nil => exact List.nil_prefix
  | cons c name ih =>
    obtain ⟨rest, rfl⟩ := begins
    cases between with
    | nil => exact absurd (List.nil_lt_cons c name) low
    | cons d between =>
      rw [List.cons_append] at high
      rw [List.cons_lt_cons_iff] at low high
      have same : c = d := Char.le_antisymm (Char.not_lt.1 fun less => low (.inl less))
        (Char.not_lt.1 fun more => high (.inl more))
      subst same
      have low : ¬ between < name := fun less => low (.inr ⟨rfl, less⟩)
      have high : ¬ name ++ rest < between := fun more => high (.inr ⟨rfl, more⟩)
      exact List.cons_prefix_cons.2 ⟨rfl, ih low high (List.prefix_append _ _)⟩

theorem not_lt_of_begins {name text : List Char} (h : name <+: text) : ¬ text < name := by
  induction name generalizing text with
  | nil => exact List.not_lt_nil text
  | cons c name ih =>
    obtain ⟨rest, rfl⟩ := h
    rw [List.cons_append, List.cons_lt_cons_iff]
    rintro (less | ⟨-, less⟩)
    · exact Char.lt_irrefl c less
    · exact ih (List.prefix_append _ _) less

theorem mem_takeWhile_begins {entries : List (String × β)} {name : List Char}
    (sorted : entries.Pairwise fun left right => left.1 < right.1)
    (low : ∀ entry ∈ entries, ¬ entry.1.toList < name) (entry : String × β) :
    entry ∈ entries.takeWhile (fun entry => name.isPrefixOf entry.1.toList) ↔
      entry ∈ entries ∧ name <+: entry.1.toList := by
  induction entries with
  | nil => simp
  | cons head rest ih =>
    rw [List.pairwise_cons] at sorted
    have ih := ih sorted.2 fun entry member => low entry (List.mem_cons_of_mem _ member)
    rw [List.takeWhile_cons]
    split
    · next begins =>
      rw [List.isPrefixOf_iff_prefix] at begins
      rw [List.mem_cons, List.mem_cons, ih]
      constructor
      · rintro (rfl | ⟨member, begins⟩)
        · exact ⟨.inl rfl, begins⟩
        · exact ⟨.inr member, begins⟩
      · rintro ⟨rfl | member, begins⟩
        · exact .inl rfl
        · exact .inr ⟨member, begins⟩
    · next differs =>
      rw [List.isPrefixOf_iff_prefix] at differs
      simp only [List.not_mem_nil, false_iff, not_and]
      intro member begins
      rcases List.mem_cons.1 member with rfl | member
      · exact differs begins
      · have before : ¬ entry.1.toList < head.1.toList :=
          String.lt_asymm (sorted.1 entry member)
        exact differs (prefix_of_between (low head (by simp)) before begins)

/-- Leaving out the keys below `name` and stopping at the first that does not begin with it finds
all keys that do. -/
theorem mem_range_begins {entries : List (String × β)}
    (sorted : entries.Pairwise fun left right => left.1 < right.1) (name : String)
    (entry : String × β) :
    entry ∈ (entries.dropWhile fun entry => entry.1 < name).takeWhile
        (fun entry => name.toList.isPrefixOf entry.1.toList) ↔
      entry ∈ entries ∧ name.toList <+: entry.1.toList := by
  induction entries with
  | nil => simp
  | cons head rest ih =>
    rw [List.dropWhile_cons]
    split
    · next below =>
      have below : head.1 < name := of_decide_eq_true below
      rw [ih (List.pairwise_cons.1 sorted).2, List.mem_cons]
      constructor
      · rintro ⟨member, begins⟩
        exact ⟨.inr member, begins⟩
      · rintro ⟨rfl | member, begins⟩
        · exact absurd below (not_lt_of_begins begins)
        · exact ⟨member, begins⟩
    · next reached =>
      have reached : ¬ head.1 < name := by simpa using reached
      refine mem_takeWhile_begins sorted ?_ entry
      intro entry member
      rcases List.mem_cons.1 member with rfl | member
      · exact reached
      · have after := (List.pairwise_cons.1 sorted).1 entry member
        exact fun below => reached (String.lt_trans after below)

end FuzzBridge.Table
