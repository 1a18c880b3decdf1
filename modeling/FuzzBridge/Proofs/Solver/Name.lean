import Mathlib.Data.List.Infix
import FuzzBridge.Proofs.Solver.Place

/-!
A name belongs to one place, whatever the transaction is called. Read from its end, a name has
numerals, which are the indices, and before them a piece that is none, which ends the field. Read
from its beginning, the name of a transaction of a sequence ends at the first underscore, so such
names also show which places are below a place.
-/

namespace FuzzBridge

def Field.pieces : Field → List (List Char)
  | .sender => [['s', 'e', 'n', 'd', 'e', 'r']]
  | .value => [['v', 'a', 'l', 'u', 'e']]
  | .blockDelay => [['b', 'l', 'o', 'c', 'k'], ['n', 'u', 'm'], ['i', 'n', 'c']]
  | .timeDelay =>
    [['b', 'l', 'o', 'c', 'k'], ['t', 'i', 'm', 'e', 's', 't', 'a', 'm', 'p'], ['i', 'n', 'c']]
  | .argument index => [['a', 'r', 'g'] ++ Nat.toDigits 10 index]

namespace Place

/-- What stands between the underscores of a text. -/
def pieces (text : List Char) : List (List Char) := text.splitOn '_'

theorem pieces_append_cons (left right : List Char) :
    pieces (left ++ '_' :: right) = pieces left ++ pieces right :=
  List.splitOn_append_cons_self left right

theorem pieces_of_notMem {text : List Char} (h : '_' ∉ text) : pieces text = [text] :=
  List.splitOn_eq_singleton h

theorem pieces_injective {left right : List Char} (h : pieces left = pieces right) :
    left = right := by
  have joined := congrArg (List.intercalate ['_']) h
  rwa [pieces, pieces, List.intercalate_splitOn, List.intercalate_splitOn] at joined

theorem pieces_field (field : Field) : pieces field.chars = field.pieces := by
  cases field with
  | argument index => exact pieces_of_notMem (by simp [Field.chars, Nat.underscore_not_in_toDigits])
  | sender | value | blockDelay | timeDelay => rfl

theorem pieces_append_indexChars (text : List Char) (indices : List Nat) :
    pieces (text ++ indexChars indices) = pieces text ++ indices.map (Nat.toDigits 10) := by
  induction indices generalizing text with
  | nil => simp [indexChars]
  | cons index rest ih =>
    have split : text ++ indexChars (index :: rest) =
        text ++ '_' :: Nat.toDigits 10 index ++ indexChars rest := by
      simp [indexChars]
    rw [split, ih, pieces_append_cons, pieces_of_notMem Nat.underscore_not_in_toDigits]
    simp

theorem pieces_chars (place : Place) :
    pieces place.chars =
      pieces place.transaction.toList ++ place.field.pieces ++
        place.indices.map (Nat.toDigits 10) := by
  rw [chars, pieces_append_indexChars, pieces_append_cons, pieces_field]

/-! From the end of a name. -/

def IsNumeral (piece : List Char) : Prop := ∀ c ∈ piece, c.isDigit

theorem isNumeral_of_mem_map {indices : List Nat} {piece : List Char}
    (member : piece ∈ indices.map (Nat.toDigits 10)) : IsNumeral piece := by
  obtain ⟨index, -, rfl⟩ := List.mem_map.1 member
  exact fun _ digit => Nat.isDigit_of_mem_toDigits (by decide) (by decide) digit

/-- The last piece of a field begins with a letter. -/
theorem not_isNumeral_of_field {front : List (List Char)} {field : Field} {piece : List Char}
    (last : piece ∈ (front ++ field.pieces).getLast?) : ¬ IsNumeral piece := by
  have letter {c : Char} {rest : List Char} (h : c.isDigit = false) : ¬ IsNumeral (c :: rest) :=
    fun numeral => by simp [numeral c List.mem_cons_self] at h
  rw [List.getLast?_append] at last
  cases field <;>
    · obtain rfl := Option.some.inj last
      exact letter (by decide)

/-- Numerals at the end of a list of pieces begin after its last piece that is none. -/
theorem numerals_inj {left right leftBack rightBack : List (List Char)}
    (hleft : ∀ piece ∈ left.getLast?, ¬ IsNumeral piece)
    (hright : ∀ piece ∈ right.getLast?, ¬ IsNumeral piece)
    (hleftBack : ∀ piece ∈ leftBack, IsNumeral piece)
    (hrightBack : ∀ piece ∈ rightBack, IsNumeral piece)
    (h : left ++ leftBack = right ++ rightBack) : left = right := by
  have nothing_between {front middle back : List (List Char)}
      (letter : ∀ piece ∈ (front ++ middle).getLast?, ¬ IsNumeral piece)
      (numerals : ∀ piece ∈ middle ++ back, IsNumeral piece) : middle = [] := by
    rcases List.eq_nil_or_concat middle with empty | ⟨rest, piece, rfl⟩
    · exact empty
    · exact absurd (numerals piece (by simp)) (letter piece (by simp))
  rcases List.append_eq_append_iff.1 h with ⟨middle, rfl, rfl⟩ | ⟨middle, rfl, rfl⟩
  · rw [nothing_between hright hleftBack, List.append_nil]
  · rw [nothing_between hleft hrightBack, List.append_nil]

theorem front_of_append_field {left right : List (List Char)} {field other : Field}
    (h : left ++ field.pieces = right ++ other.pieces) : left = right := by
  have reversed := congrArg List.reverse h
  rw [List.reverse_append, List.reverse_append] at reversed
  cases field <;> cases other <;> simp [Field.pieces] at reversed
  case argument.argument => exact reversed.2
  all_goals exact reversed

theorem transaction_of_name {left right : Place} (h : left.name = right.name) :
    left.transaction = right.transaction := by
  have same := congrArg pieces (String.ofList_injective h)
  rw [pieces_chars, pieces_chars] at same
  have front := numerals_inj (fun _ => not_isNumeral_of_field) (fun _ => not_isNumeral_of_field)
    (fun _ => isNumeral_of_mem_map) (fun _ => isNumeral_of_mem_map) same
  exact String.toList_injective (pieces_injective (front_of_append_field front))

theorem name_inj {left right : Place} : left.name = right.name ↔ left = right :=
  ⟨fun h => name_injective (transaction_of_name h) h, congrArg name⟩

/-! From the beginning of a name. -/

/-- Whether `longer` goes on where `indices` end. -/
def IsProperStart (indices longer : List Nat) : Prop := indices <+: longer ∧ indices ≠ longer

theorem isProperStart_iff {indices longer : List Nat} :
    IsProperStart indices longer ↔ ∃ path ≠ [], longer = indices ++ path := by
  constructor
  · rintro ⟨⟨path, rfl⟩, differ⟩
    exact ⟨path, fun empty => differ (by simp [empty]), rfl⟩
  · rintro ⟨path, nonempty, rfl⟩
    exact ⟨List.prefix_append _ _, fun same => nonempty (by simpa using same)⟩

theorem isTail_cons (rest : List Char) : IsTail ('_' :: rest) := by simp [IsTail]

theorem isTail_append {left right : List Char} (hleft : IsTail left) (hright : IsTail right) :
    IsTail (left ++ right) := by
  cases left with
  | nil => exact hright
  | cons c rest => exact fun d head => hleft d head

theorem isProperStart_of_indexChars {indices longer : List Nat} {rest : List Char}
    (h : indexChars indices ++ '_' :: rest = indexChars longer) : IsProperStart indices longer := by
  rw [isProperStart_iff]
  induction indices generalizing longer with
  | nil =>
    cases longer with
    | nil => simp [indexChars] at h
    | cons index more => exact ⟨index :: more, List.cons_ne_nil _ _, rfl⟩
  | cons index indices ih =>
    cases longer with
    | nil => simp [indexChars] at h
    | cons first more =>
      simp only [indexChars, List.flatMap_cons, List.cons_append, List.append_assoc,
        List.cons.injEq, true_and] at h
      obtain ⟨rfl, rests⟩ := toDigits_tail_inj
        (isTail_append (isTail_indexChars indices) (isTail_cons rest)) (isTail_indexChars more) h
      obtain ⟨path, nonempty, rfl⟩ := ih rests
      exact ⟨path, nonempty, rfl⟩

theorem underscore_notMem_transactionName (position : Nat) :
    '_' ∉ (transactionName position).toList := by
  simp [transactionName, Nat.underscore_not_in_toDigits]

/-- In a sequence, a name that goes on after the name of a place and an underscore is that of a
place below. -/
theorem begins_iff {left right : Place} {i j : Nat} (hleft : left.transaction = transactionName i)
    (hright : right.transaction = transactionName j) :
    left.chars ++ ['_'] <+: right.chars ↔
      right.transaction = left.transaction ∧ right.field = left.field ∧
        IsProperStart left.indices right.indices := by
  constructor
  · rintro ⟨rest, h⟩
    simp only [chars, List.append_assoc, List.cons_append, List.nil_append] at h
    rw [hleft, hright] at h ⊢
    obtain ⟨transaction, afterTransaction⟩ := append_tail_inj (underscore_notMem_transactionName i)
      (underscore_notMem_transactionName j) (isTail_cons _) (isTail_cons _) h
    obtain ⟨field, indices⟩ := field_tail_inj
      (isTail_append (isTail_indexChars left.indices) (isTail_cons rest))
      (isTail_indexChars right.indices) (List.cons.inj afterTransaction).2
    exact ⟨(String.toList_injective transaction).symm, field.symm,
      isProperStart_of_indexChars indices⟩
  · rintro ⟨transaction, field, longer⟩
    obtain ⟨path, nonempty, indices⟩ := isProperStart_iff.1 longer
    obtain ⟨index, more, rfl⟩ := List.exists_cons_of_ne_nil nonempty
    have below : right = left.extend (index :: more) := by
      obtain ⟨_, _, _⟩ := right
      simp only at transaction field indices
      rw [transaction, field, indices, extend]
    rw [below, chars_extend]
    simp [indexChars]

/-- Names identify places, and in a sequence they show which places are below a place. -/
theorem name_identifies_place (left right : Place) :
    (left.name = right.name ↔ left = right) ∧
      ∀ i j, left.transaction = transactionName i → right.transaction = transactionName j →
        ((left.name ++ "_").toList <+: right.name.toList ↔
          right.transaction = left.transaction ∧ right.field = left.field ∧
            IsProperStart left.indices right.indices) := by
  refine ⟨name_inj, fun i j hleft hright => ?_⟩
  have leftChars : (left.name ++ "_").toList = left.chars ++ ['_'] := by simp [name]
  have rightChars : right.name.toList = right.chars := by simp [name]
  rw [leftChars, rightChars]
  exact begins_iff hleft hright

theorem name_identifies_place_elements :
    ("tx1_arg1" ++ "_").toList <+: (Place.name ⟨"tx1", .argument 1, [0, 12]⟩).toList ∧
      ¬ ("tx1_arg1" ++ "_").toList <+: (Place.name ⟨"tx1", .argument 10, [0]⟩).toList := by
  have under (right : Place) (same : right.transaction = "tx1") :=
    (name_identifies_place ⟨"tx1", .argument 1, []⟩ right).2 1 1 rfl same
  constructor
  · exact (under ⟨"tx1", .argument 1, [0, 12]⟩ rfl).2 ⟨rfl, rfl, by decide, by decide⟩
  · intro begins
    have field := ((under ⟨"tx1", .argument 10, [0]⟩ rfl).1 begins).2.1
    exact absurd field (by decide)

end Place

end FuzzBridge
