/-!
Tables from text keys to values, kept in key order. Keys occur once, so two tables with the same
entries are equal, and the order of the entries is the order of the keys' characters.
-/

namespace FuzzBridge

structure Table (β : Type) where
  entries : List (String × β)
  sorted : entries.Pairwise (fun left right => left.1 < right.1)
  deriving DecidableEq

namespace Table

variable {β : Type}

def empty : Table β := ⟨[], .nil⟩

instance : Inhabited (Table β) := ⟨empty⟩

/-- The entry goes before the first larger key, or replaces the entry of an equal key. -/
def place (key : String) (value : β) : List (String × β) → List (String × β)
  | [] => [(key, value)]
  | (other, old) :: rest =>
    if key = other then (key, value) :: rest
    else if key < other then (key, value) :: (other, old) :: rest
    else (other, old) :: place key value rest

theorem mem_place {key : String} {value : β} {list : List (String × β)} {entry : String × β}
    (h : entry ∈ place key value list) : entry = (key, value) ∨ entry ∈ list := by
  induction list with
  | nil => simpa [place] using h
  | cons head rest ih =>
    simp only [place] at h
    split at h
    · simp only [List.mem_cons] at h ⊢
      rcases h with h | h
      · exact .inl h
      · exact .inr (.inr h)
    · split at h
      · simpa only [List.mem_cons] using h
      · simp only [List.mem_cons] at h ⊢
        rcases h with h | h
        · exact .inr (.inl h)
        · exact (ih h).imp_right .inr

theorem sorted_place (key : String) (value : β) {list : List (String × β)}
    (h : list.Pairwise (fun left right => left.1 < right.1)) :
    (place key value list).Pairwise (fun left right => left.1 < right.1) := by
  induction list with
  | nil => simp [place]
  | cons head rest ih =>
    obtain ⟨other, old⟩ := head
    rw [List.pairwise_cons] at h
    simp only [place]
    split
    next heq =>
      subst heq
      exact List.pairwise_cons.2 h
    next hne =>
      split
      next hlt =>
        refine List.pairwise_cons.2 ⟨fun entry hentry => ?_, List.pairwise_cons.2 h⟩
        rcases List.mem_cons.1 hentry with rfl | hentry
        · exact hlt
        · exact String.lt_trans hlt (h.1 entry hentry)
      next hlt =>
        refine List.pairwise_cons.2 ⟨fun entry hentry => ?_, ih h.2⟩
        rcases mem_place hentry with rfl | hentry
        · exact Std.lt_of_le_of_ne (String.not_lt.1 hlt) (Ne.symm hne)
        · exact h.1 entry hentry

def insert (table : Table β) (key : String) (value : β) : Table β :=
  ⟨place key value table.entries, sorted_place key value table.sorted⟩

def find? (table : Table β) (key : String) : Option β :=
  (table.entries.find? (·.1 == key)).map (·.2)

def contains (table : Table β) (key : String) : Bool :=
  (table.find? key).isSome

def erase (table : Table β) (key : String) : Table β :=
  ⟨table.entries.filter (·.1 != key), table.sorted.sublist List.filter_sublist⟩

/-- A later entry replaces an earlier one of the same key. -/
def ofList (list : List (String × β)) : Table β :=
  list.foldl (fun table entry => table.insert entry.1 entry.2) empty

def keys (table : Table β) : List String := table.entries.map (·.1)

def values (table : Table β) : List β := table.entries.map (·.2)

def size (table : Table β) : Nat := table.entries.length

def isEmpty (table : Table β) : Bool := table.entries.isEmpty

@[simp] theorem find?_empty (key : String) : (empty : Table β).find? key = none := rfl

theorem find?_place_self (key : String) (value : β) (list : List (String × β)) :
    (place key value list).find? (·.1 == key) = some (key, value) := by
  induction list with
  | nil => simp [place]
  | cons head rest ih =>
    simp only [place]
    split
    · simp
    · split
      · simp
      next hne _ => simpa [Ne.symm hne] using ih

theorem find?_place_of_ne {key other : String} (h : other ≠ key) (value : β)
    (list : List (String × β)) :
    (place key value list).find? (·.1 == other) = list.find? (·.1 == other) := by
  induction list with
  | nil => simp [place, Ne.symm h]
  | cons head rest ih =>
    simp only [place]
    split
    next heq => simp [← heq, Ne.symm h]
    · split
      · simp [Ne.symm h]
      · simp only [List.find?_cons, ih]

@[simp] theorem find?_insert_self (table : Table β) (key : String) (value : β) :
    (table.insert key value).find? key = some value := by
  simp [find?, insert, find?_place_self]

theorem find?_insert_of_ne (table : Table β) {key other : String} (h : other ≠ key) (value : β) :
    (table.insert key value).find? other = table.find? other := by
  simp [find?, insert, find?_place_of_ne h]

end Table

end FuzzBridge
