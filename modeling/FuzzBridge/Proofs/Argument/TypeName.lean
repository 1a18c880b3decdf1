import Mathlib.Data.List.Basic
import FuzzBridge.Proofs.Argument.Type
import FuzzBridge.Proofs.Solver.Place

/-!
The name of a type belongs to that type alone. Where a list of types is written down, the name of
each ends at the first comma or closing parenthesis that no parenthesis of its own encloses; and the
last bracket of a name tells an array from everything else.
-/

namespace FuzzBridge.ArgType

/-! Parentheses. -/

/-- How many parentheses are open after one more character. None may be closed that is not open, and
unless `loose`, no comma may stand outside of all. -/
def nest (loose : Bool) (depth : Nat) (c : Char) : Option Nat :=
  if c = '(' then some (depth + 1)
  else if c = ')' then if depth = 0 then none else some (depth - 1)
  else if c = ',' ∧ depth = 0 ∧ ¬ loose then none
  else some depth

/-- How many parentheses are open after a text, if `depth` are before it. -/
def nestAll (loose : Bool) (depth : Nat) (text : List Char) : Option Nat :=
  text.foldlM (nest loose) depth

variable {loose : Bool} {depth : Nat}

theorem nestAll_append (left right : List Char) :
    nestAll loose depth (left ++ right) =
      (nestAll loose depth left).bind fun depth => nestAll loose depth right :=
  List.foldlM_append

theorem nestAll_cons_of_eq {c : Char} {next : Nat} (h : nest loose depth c = some next)
    (rest : List Char) : nestAll loose depth (c :: rest) = nestAll loose next rest := by
  rw [nestAll, List.foldlM_cons, h]
  rfl

theorem nestAll_append_of_eq {left : List Char} (h : nestAll loose depth left = some depth)
    (right : List Char) : nestAll loose depth (left ++ right) = nestAll loose depth right := by
  rw [nestAll_append, h]
  rfl

def isPlain (c : Char) : Bool := c != '(' && c != ')' && c != ','

theorem nestAll_of_plain {text : List Char} (plain : text.all isPlain) :
    nestAll loose depth text = some depth := by
  induction text with
  | nil => rfl
  | cons c rest ih =>
    obtain ⟨first, plain⟩ := Bool.and_eq_true_iff.1 plain
    have kept : nest loose depth c = some depth := by
      simp only [isPlain, Bool.and_eq_true, bne_iff_ne] at first
      simp [nest, first]
    rw [nestAll_cons_of_eq kept, ih plain]

theorem isPlain_of_isDigit {c : Char} (digit : c.isDigit) : isPlain c := by
  simp only [isPlain, Bool.and_eq_true, bne_iff_ne]
  refine ⟨⟨?_, ?_⟩, ?_⟩ <;> rintro rfl <;> simp at digit

theorem nestAll_digits (number : Nat) :
    nestAll loose depth (Nat.toDigits 10 number) = some depth := by
  apply nestAll_of_plain
  rw [List.all_eq_true]
  intro c member
  exact isPlain_of_isDigit (Nat.isDigit_of_mem_toDigits (by decide) (by decide) member)

def further (types : List ArgType) : List Char := types.flatMap fun type => ',' :: type.chars

theorem further_cons (first : ArgType) (rest : List ArgType) :
    further (first :: rest) = ',' :: (first.chars ++ further rest) := by
  simp [further]

def listed : List ArgType → List Char
  | [] => []
  | first :: rest => first.chars ++ further rest

theorem moreChars_eq (types : List ArgType) : moreChars types = further types ++ [')'] := by
  induction types with
  | nil => rfl
  | cons first rest ih => simp [moreChars, further_cons, ih]

theorem chars_tuple (types : List ArgType) :
    (tuple types).chars = '(' :: listed types ++ [')'] := by
  cases types with
  | nil => rfl
  | cons first rest => simp [chars, listed, moreChars_eq]

theorem nestAll_further {types : List ArgType}
    (each : ∀ type ∈ types, nestAll loose depth type.chars = some depth)
    (comma : nest loose depth ',' = some depth) :
    nestAll loose depth (further types) = some depth := by
  induction types with
  | nil => rfl
  | cons first rest ih =>
    obtain ⟨kept, each⟩ := List.forall_mem_cons.1 each
    rw [further_cons, nestAll_cons_of_eq comma, nestAll_append_of_eq kept, ih each]

theorem nestAll_listed {types : List ArgType}
    (each : ∀ type ∈ types, nestAll loose depth type.chars = some depth)
    (comma : nest loose depth ',' = some depth) :
    nestAll loose depth (listed types) = some depth := by
  cases types with
  | nil => rfl
  | cons first rest =>
    obtain ⟨kept, each⟩ := List.forall_mem_cons.1 each
    rw [listed, nestAll_append_of_eq kept, nestAll_further each comma]

/-- The name of a type closes all that it opens, and has no comma outside. -/
theorem nestAll_chars (loose : Bool) (depth : Nat) (type : ArgType) :
    nestAll loose depth type.chars = some depth := by
  induction type using ArgType.induction generalizing depth with
  | uint bits | int bits | fixedBytes length =>
    rw [chars, nestAll_append_of_eq (nestAll_of_plain (by rfl)), nestAll_digits]
  | address | bool | bytes | string => exact nestAll_of_plain (by rfl)
  | array element ih =>
    rw [chars, nestAll_append_of_eq (ih depth)]
    exact nestAll_of_plain (by rfl)
  | fixedArray length element ih =>
    have opens : nest loose depth '[' = some depth := by simp [nest]
    have closes : nest loose depth ']' = some depth := by simp [nest]
    rw [chars, List.append_assoc, nestAll_append_of_eq (ih depth), List.cons_append,
      nestAll_cons_of_eq opens, nestAll_append_of_eq (nestAll_digits _), nestAll_cons_of_eq closes]
    rfl
  | tuple elements ih =>
    have opens : nest loose depth '(' = some (depth + 1) := by simp [nest]
    have closes : nest loose (depth + 1) ')' = some depth := by simp [nest]
    have comma : nest loose (depth + 1) ',' = some (depth + 1) := by simp [nest]
    have inner := nestAll_listed (fun type member => ih type member (depth + 1)) comma
    rw [chars_tuple, List.cons_append, nestAll_cons_of_eq opens, nestAll_append_of_eq inner,
      nestAll_cons_of_eq closes]
    rfl

/-! Where a name ends. -/

/-- Nothing, or what may follow a type in a list. -/
def IsRest (text : List Char) : Prop := ∀ c ∈ text.head?, c = ',' ∨ c = ')'

theorem nest_of_isRest {c : Char} {text : List Char} (h : IsRest (c :: text)) :
    nest false 0 c = none := by
  rcases h c rfl with rfl | rfl <;> rfl

/-- No name goes on where another one ends. -/
theorem rest_eq_nil {left right : ArgType} {more rest : List Char} (isRest : IsRest (more ++ rest))
    (longer : left.chars = right.chars ++ more) : more = [] := by
  cases more with
  | nil => rfl
  | cons c more =>
    have kept := nestAll_chars false 0 left
    rw [longer, nestAll_append_of_eq (nestAll_chars false 0 right), nestAll, List.foldlM_cons,
      nest_of_isRest isRest] at kept
    cases kept

theorem chars_rest_inj {left right : ArgType} {leftRest rightRest : List Char}
    (hleft : IsRest leftRest) (hright : IsRest rightRest)
    (h : left.chars ++ leftRest = right.chars ++ rightRest) :
    left.chars = right.chars ∧ leftRest = rightRest := by
  rcases List.append_eq_append_iff.1 h with ⟨more, longer, same⟩ | ⟨more, longer, same⟩
  · obtain rfl := rest_eq_nil (same ▸ hleft) longer
    exact ⟨by simpa using longer.symm, by simpa using same⟩
  · obtain rfl := rest_eq_nil (same ▸ hright) longer
    exact ⟨by simpa using longer, by simpa using same.symm⟩

/-! Names and types. -/

theorem isRest_further (types : List ArgType) : IsRest (further types) := by
  cases types <;> simp [IsRest, further]

theorem further_injective {left right : List ArgType}
    (each : ∀ type ∈ left, ∀ other : ArgType, type.chars = other.chars → type = other)
    (h : further left = further right) : left = right := by
  induction left generalizing right with
  | nil =>
    cases right with
    | nil => rfl
    | cons second right => simp [further] at h
  | cons first left ih =>
    cases right with
    | nil => simp [further] at h
    | cons second right =>
      obtain ⟨same, each⟩ := List.forall_mem_cons.1 each
      rw [further_cons, further_cons] at h
      obtain ⟨chars, rests⟩ :=
        chars_rest_inj (isRest_further left) (isRest_further right) (List.cons.inj h).2
      rw [same second chars, ih each rests]

theorem chars_ne_nil (type : ArgType) : type.chars ≠ [] := by
  cases type <;> simp [chars, chars_tuple]

theorem listed_injective {left right : List ArgType}
    (each : ∀ type ∈ left, ∀ other : ArgType, type.chars = other.chars → type = other)
    (h : listed left = listed right) : left = right := by
  cases left with
  | nil =>
    cases right with
    | nil => rfl
    | cons second right => simp [listed, chars_ne_nil] at h
  | cons first left =>
    cases right with
    | nil => simp [listed, chars_ne_nil] at h
    | cons second right =>
      obtain ⟨same, each⟩ := List.forall_mem_cons.1 each
      obtain ⟨chars, rests⟩ := chars_rest_inj (isRest_further left) (isRest_further right) h
      rw [same second chars, further_injective each rests]

def isArray : ArgType → Bool
  | .array _ | .fixedArray .. => true
  | _ => false

theorem getLast?_chars (type : ArgType) : type.chars.getLast? = some ']' ↔ type.isArray := by
  have numeral (letters : List Char) (number : Nat) :
      (letters ++ Nat.toDigits 10 number).getLast? ≠ some ']' := by
    rw [List.getLast?_append_of_ne_nil _ Nat.toDigits_ne_nil]
    exact fun last => notMem_toDigits_ten rfl number (List.mem_of_getLast? last)
  cases type with
  | uint bits | int bits | fixedBytes length => exact iff_of_false (numeral _ _) (by simp [isArray])
  | address | bool | bytes | string => decide
  | array element => simp [chars, isArray]
  | fixedArray length element => exact iff_of_true List.getLast?_concat rfl
  | tuple elements =>
    rw [chars_tuple, List.getLast?_concat]
    simp [isArray]

theorem isArray_congr {left right : ArgType} (h : left.chars = right.chars) :
    left.isArray = right.isArray := by
  rw [Bool.eq_iff_iff, ← getLast?_chars, ← getLast?_chars, h]

theorem brackets_inj {left right leftLength rightLength : List Char} (hleft : '[' ∉ leftLength)
    (hright : '[' ∉ rightLength)
    (h : left ++ '[' :: leftLength ++ [']'] = right ++ '[' :: rightLength ++ [']']) :
    left = right ∧ leftLength = rightLength := by
  rcases List.append_eq_append_iff.1 (List.append_cancel_right h) with
    ⟨more, rfl, rests⟩ | ⟨more, rfl, rests⟩
  · cases more with
    | nil => exact ⟨by simp, by simpa using rests⟩
    | cons c more =>
      obtain ⟨-, rfl⟩ := List.cons.inj rests
      simp at hleft
  · cases more with
    | nil => exact ⟨by simp, by simpa using rests.symm⟩
    | cons c more =>
      obtain ⟨-, rfl⟩ := List.cons.inj rests
      simp at hright

theorem chars_array (element : ArgType) :
    (array element).chars = element.chars ++ '[' :: [] ++ [']'] := by
  simp [chars]

theorem chars_injective {left right : ArgType} (h : left.chars = right.chars) : left = right := by
  have shape := isArray_congr h
  induction left using ArgType.induction generalizing right with
  | array element ih =>
    cases right with
    | array other =>
      have chars := List.append_cancel_right h
      rw [ih chars (isArray_congr chars)]
    | fixedArray length other =>
      rw [chars_array] at h
      obtain ⟨-, empty⟩ :=
        brackets_inj List.not_mem_nil (notMem_toDigits_ten rfl length.toNat) h
      exact absurd empty.symm Nat.toDigits_ne_nil
    | _ => exact Bool.noConfusion shape
  | fixedArray length element ih =>
    cases right with
    | array other =>
      rw [chars_array] at h
      obtain ⟨-, empty⟩ :=
        brackets_inj (notMem_toDigits_ten rfl length.toNat) List.not_mem_nil h
      exact absurd empty Nat.toDigits_ne_nil
    | fixedArray length' other =>
      obtain ⟨chars, digits⟩ := brackets_inj (notMem_toDigits_ten rfl length.toNat)
        (notMem_toDigits_ten rfl length'.toNat) h
      rw [ih chars (isArray_congr chars), UInt64.toNat_inj.1 (toDigits_ten_injective digits)]
    | _ => exact Bool.noConfusion shape
  | tuple elements ih =>
    cases right with
    | tuple others =>
      rw [chars_tuple, chars_tuple] at h
      have inner := List.append_cancel_right (List.cons.inj h).2
      rw [listed_injective (fun type member other same =>
        ih type member same (isArray_congr same)) inner]
    | array | fixedArray => exact Bool.noConfusion shape
    | _ => simp [chars, chars_tuple] at h
  | uint bits =>
    cases right with
    | uint bits' =>
      have digits := toDigits_ten_injective (List.append_cancel_left h)
      rw [UInt16.toNat_inj.1 digits]
    | array | fixedArray => exact Bool.noConfusion shape
    | _ => simp [chars, chars_tuple] at h
  | int bits =>
    cases right with
    | int bits' =>
      have digits := toDigits_ten_injective (List.append_cancel_left h)
      rw [UInt16.toNat_inj.1 digits]
    | array | fixedArray => exact Bool.noConfusion shape
    | _ => simp [chars, chars_tuple] at h
  | fixedBytes length =>
    cases right with
    | fixedBytes length' =>
      have digits := toDigits_ten_injective (List.append_cancel_left h)
      rw [UInt64.toNat_inj.1 digits]
    | array | fixedArray => exact Bool.noConfusion shape
    | _ => simp [chars, chars_tuple] at h
  | address | bool | bytes | string =>
    cases right with
    | array | fixedArray => exact Bool.noConfusion shape
    | _ => simp [chars, chars_tuple] at h ⊢

theorem name_injective {left right : ArgType} (h : left.name = right.name) : left = right :=
  chars_injective (String.ofList_injective h)

end FuzzBridge.ArgType
