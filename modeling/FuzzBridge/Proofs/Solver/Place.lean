import FuzzBridge.Solver.Place

/-!
Within a transaction, a name belongs to one place. Numbers in names have no underscore, so each ends
where the next underscore or the name itself ends.
-/

namespace FuzzBridge

theorem toDigits_ten_injective {left right : Nat}
    (h : Nat.toDigits 10 left = Nat.toDigits 10 right) : left = right := by
  have read := congrArg (Nat.ofDigitChars 10 · 0) h
  simpa only [Nat.ofDigitChars_ten_toDigits] using read

theorem notMem_toDigits_ten {c : Char} (digit : c.isDigit = false) (number : Nat) :
    c ∉ Nat.toDigits 10 number := by
  intro member
  rw [Nat.isDigit_of_mem_toDigits (by decide) (by decide) member] at digit
  cases digit

theorem transactionName_injective {left right : Nat}
    (h : transactionName left = transactionName right) : left = right := by
  have spelled := String.ofList_injective h
  simp only [List.cons.injEq, true_and] at spelled
  exact toDigits_ten_injective spelled

namespace Place

/-- Nothing, or text that an underscore begins. -/
def IsTail (text : List Char) : Prop := ∀ c ∈ text.head?, c = '_'

theorem isTail_indexChars (indices : List Nat) : IsTail (indexChars indices) := by
  cases indices with
  | nil => simp [IsTail, indexChars]
  | cons index rest => simp [IsTail, indexChars]

/-- A piece without underscores ends at the first underscore. -/
theorem append_tail_inj {left right leftTail rightTail : List Char} (hleft : '_' ∉ left)
    (hright : '_' ∉ right) (htail : IsTail leftTail) (htail' : IsTail rightTail)
    (h : left ++ leftTail = right ++ rightTail) : left = right ∧ leftTail = rightTail := by
  induction left generalizing right with
  | nil =>
    cases right with
    | nil => exact ⟨rfl, h⟩
    | cons c rest =>
      have : c = '_' := htail c (by rw [← List.nil_append leftTail, h]; rfl)
      exact absurd (by simp [this]) hright
  | cons c rest ih =>
    cases right with
    | nil =>
      have : c = '_' := htail' c (by rw [← List.nil_append rightTail, ← h]; rfl)
      exact absurd (by simp [this]) hleft
    | cons d rest' =>
      obtain ⟨rfl, rests⟩ := List.cons.inj h
      obtain ⟨rfl, tails⟩ := ih (fun member => hleft (List.mem_cons_of_mem _ member))
        (fun member => hright (List.mem_cons_of_mem _ member)) rests
      exact ⟨rfl, tails⟩

theorem toDigits_tail_inj {left right : Nat} {leftTail rightTail : List Char}
    (htail : IsTail leftTail) (htail' : IsTail rightTail)
    (h : Nat.toDigits 10 left ++ leftTail = Nat.toDigits 10 right ++ rightTail) :
    left = right ∧ leftTail = rightTail := by
  obtain ⟨digits, tails⟩ := append_tail_inj Nat.underscore_not_in_toDigits
    Nat.underscore_not_in_toDigits htail htail' h
  exact ⟨toDigits_ten_injective digits, tails⟩

theorem indexChars_injective {left right : List Nat} (h : indexChars left = indexChars right) :
    left = right := by
  induction left generalizing right with
  | nil =>
    cases right with
    | nil => rfl
    | cons index rest => simp [indexChars] at h
  | cons index rest ih =>
    cases right with
    | nil => simp [indexChars] at h
    | cons index' rest' =>
      simp only [indexChars, List.flatMap_cons, List.cons_append, List.cons.injEq,
        true_and] at h
      obtain ⟨rfl, rests⟩ :=
        toDigits_tail_inj (isTail_indexChars rest) (isTail_indexChars rest') h
      rw [ih rests]

theorem field_tail_inj {left right : Field} {leftTail rightTail : List Char}
    (htail : IsTail leftTail) (htail' : IsTail rightTail)
    (h : left.chars ++ leftTail = right.chars ++ rightTail) :
    left = right ∧ leftTail = rightTail := by
  cases left <;> cases right <;>
    simp only [Field.chars, List.cons_append, List.nil_append, List.cons.injEq, Char.reduceEq,
      true_and, false_and] at h <;>
    first
    | exact ⟨rfl, h⟩
    | obtain ⟨rfl, tails⟩ := toDigits_tail_inj htail htail' h
      exact ⟨rfl, tails⟩

theorem field_indexChars_inj {left right : Field} {leftIndices rightIndices : List Nat}
    (h : left.chars ++ indexChars leftIndices = right.chars ++ indexChars rightIndices) :
    left = right ∧ leftIndices = rightIndices := by
  obtain ⟨field, tails⟩ := field_tail_inj (isTail_indexChars _) (isTail_indexChars _) h
  exact ⟨field, indexChars_injective tails⟩

theorem name_injective {left right : Place} (same : left.transaction = right.transaction)
    (h : left.name = right.name) : left = right := by
  obtain ⟨transaction, leftField, leftIndices⟩ := left
  obtain ⟨_, rightField, rightIndices⟩ := right
  obtain rfl : transaction = _ := same
  have spelled := String.ofList_injective h
  simp only [chars, List.append_assoc, List.cons_append, List.append_cancel_left_eq,
    List.cons.injEq, true_and] at spelled
  obtain ⟨rfl, rfl⟩ := field_indexChars_inj spelled
  rfl

def extend (place : Place) (path : List Nat) : Place :=
  { place with indices := place.indices ++ path }

@[simp] theorem extend_nil (place : Place) : place.extend [] = place := by
  simp [extend]

@[simp] theorem extend_element (place : Place) (index : Nat) (path : List Nat) :
    (place.element index).extend path = place.extend (index :: path) := by
  simp [extend, element]

theorem element_eq_extend (place : Place) (index : Nat) :
    place.element index = place.extend [index] := rfl

theorem chars_extend (place : Place) (path : List Nat) :
    (place.extend path).chars = place.chars ++ indexChars path := by
  simp [chars, extend, indexChars]

end Place

end FuzzBridge
