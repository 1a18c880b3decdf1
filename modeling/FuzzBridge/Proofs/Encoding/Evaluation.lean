import FuzzBridge.Proofs.Encoding.Leaves
import FuzzBridge.Proofs.Solver.Frame

/-!
The encoder builds its terms from constants and leaves, so an assignment that gives every leaf a
value gives every term one, and assignments that agree on the leaves agree on the terms.
-/

namespace FuzzBridge.Encoding

/-- A constant of whole bytes, a leaf extended to a word, or a leaf that is a byte. -/
inductive IsTermOf (leaves : List Leaf) : Term → Prop
  | constant {bits : Nat} (whole : 8 ∣ bits) (value : Nat) : IsTermOf leaves (.word bits value)
  | scalar (signed : Bool) {leaf : Leaf} (member : leaf ∈ leaves) :
      IsTermOf leaves (widen signed (.symbol leaf.bits leaf.name))
  | byte {leaf : Leaf} (member : leaf ∈ leaves) (octet : leaf.bits = 8) :
      IsTermOf leaves (.symbol leaf.bits leaf.name)

theorem IsTermOf.mono {left right : List Leaf} (h : left ⊆ right) {term : Term}
    (built : IsTermOf left term) : IsTermOf right term := by
  cases built with
  | constant whole value => exact .constant whole value
  | scalar signed member => exact .scalar signed (h member)
  | byte member octet => exact .byte (h member) octet

theorem isTermOf_word (leaves : List Leaf) (value : Nat) : IsTermOf leaves (word value) :=
  .constant (by decide) value

theorem isTermOf_padding {leaves : List Leaf} {length : Nat} {term : Term}
    (member : term ∈ padding length) : IsTermOf leaves term := by
  unfold padding at member
  split at member
  · simp at member
  · rw [List.mem_singleton.1 member]
    exact .constant (Nat.dvd_mul_left 8 _) 0

theorem isTermOf_byteSymbols {place : Place} {index : Nat} {bytes : List UInt8} {term : Term}
    (member : term ∈ byteSymbols place index bytes) :
    IsTermOf (byteLeaves place index bytes) term := by
  induction bytes generalizing index with
  | nil => simp [byteSymbols] at member
  | cons byte rest ih =>
    rcases List.mem_cons.1 member with rfl | member
    · have first : .ofByte (place.element index) byte ∈ byteLeaves place index (byte :: rest) :=
        List.mem_cons_self
      exact .byte first rfl
    · exact (ih member).mono (List.subset_cons_self _ _)

theorem mem_heads {items : List Item} {offset : Nat} {term : Term}
    (member : term ∈ heads offset items) :
    (∃ value, term = word value) ∨ ∃ item ∈ items, term ∈ item.terms := by
  induction items generalizing offset with
  | nil => simp [heads] at member
  | cons item rest ih =>
    have later {offset : Nat} (member : term ∈ heads offset rest) :
        (∃ value, term = word value) ∨ ∃ item' ∈ item :: rest, term ∈ item'.terms := by
      rcases ih member with constant | ⟨item', h, inside⟩
      · exact .inl constant
      · exact .inr ⟨item', List.mem_cons_of_mem _ h, inside⟩
    rw [heads] at member
    split at member
    · rcases List.mem_cons.1 member with rfl | member
      · exact .inl ⟨offset, rfl⟩
      · exact later member
    · rcases List.mem_append.1 member with member | member
      · exact .inr ⟨item, by simp, member⟩
      · exact later member

theorem mem_layout {items : List Item} {term : Term} (member : term ∈ layout items) :
    (∃ value, term = word value) ∨ ∃ item ∈ items, term ∈ item.terms := by
  rcases List.mem_append.1 member with member | member
  · exact mem_heads member
  · obtain ⟨item, h, inside⟩ := List.mem_flatMap.1 member
    split at inside
    · exact .inr ⟨item, h, inside⟩
    · simp at inside

theorem isTermOf_layout {leaves : List Leaf} {items : List Item}
    (each : ∀ item ∈ items, ∀ term ∈ item.terms, IsTermOf leaves term) {term : Term}
    (member : term ∈ layout items) : IsTermOf leaves term := by
  rcases mem_layout member with ⟨value, rfl⟩ | ⟨item, h, inside⟩
  · exact isTermOf_word leaves value
  · exact each item h term inside

theorem isTermOf_items {elements : List Datum}
    (each : ∀ value ∈ elements, ∀ type place, ∀ term ∈ terms type place value,
      IsTermOf (leaves type place value) term)
    {types : List ArgType} {placeOf : Nat → Place} {index : Nat} {item : Item}
    (member : item ∈ items types placeOf index elements) {term : Term}
    (inside : term ∈ item.terms) :
    IsTermOf (leavesFrom types placeOf index elements) term := by
  induction elements generalizing types index with
  | nil => simp [items] at member
  | cons value rest ih =>
    cases types with
    | nil => simp [items] at member
    | cons type types =>
      rcases List.mem_cons.1 member with rfl | member
      · exact (each value (by simp) type _ term inside).mono (List.subset_append_left _ _)
      · exact (ih (fun value h => each value (List.mem_cons_of_mem _ h)) member).mono
          (List.subset_append_right _ _)

theorem isTermOf_terms {type : ArgType} {place : Place} {value : Datum} {term : Term}
    (member : term ∈ terms type place value) : IsTermOf (leaves type place value) term := by
  induction value using Datum.induction generalizing type place term with
  | int value =>
    have pattern {leaves : List Leaf} {bits : Nat} (signed : Bool)
        (member : .ofInt place bits value ∈ leaves) :
        IsTermOf leaves (widen signed (.symbol bits place.name)) := .scalar signed member
    cases type <;> simp only [terms, List.mem_singleton] at member <;> subst member
    case uint bits => exact pattern false (by simp [leaves])
    case int bits => exact pattern true (by simp [leaves])
    all_goals exact pattern false (by simp [leaves])
  | bool value =>
    rw [terms, List.mem_singleton] at member
    subst member
    have single : .ofBool place value ∈ leaves type place (.bool value) := by
      simp [leaves]
    exact .scalar false single
  | bytes value =>
    have inner {term : Term} (member : term ∈ byteSymbols place 0 value ++ padding value.length) :
        IsTermOf (byteLeaves place 0 value) term := by
      rcases List.mem_append.1 member with member | member
      · exact isTermOf_byteSymbols member
      · exact isTermOf_padding member
    rw [leaves]
    cases type <;> simp only [terms] at member
    case fixedBytes => exact inner member
    all_goals
      rcases List.mem_cons.1 member with rfl | member
      · exact isTermOf_word _ _
      · exact inner member
  | seq elements ih =>
    have inner {types : List ArgType} {term : Term}
        (member : term ∈ layout (items types place.element 0 elements)) :
        IsTermOf (leavesFrom types place.element 0 elements) term :=
      isTermOf_layout (fun item h term inside =>
        isTermOf_items (fun value h type place term => ih value h) h inside) member
    cases type <;> simp only [terms, List.not_mem_nil] at member <;> rw [leaves]
    case array element =>
      rcases List.mem_cons.1 member with rfl | member
      · exact isTermOf_word _ _
      · exact inner member
    all_goals exact inner member

theorem eval_widen {assignment : Assignment} {name : String} {value bits : Nat}
    (assigned : assignment.value? name = some value) (narrow : bits ≤ 256) (signed : Bool) :
    (widen signed (.symbol bits name)).eval assignment =
      .ok (if signed then Number.toPattern (Number.toSigned value bits) 256
        else Number.mask value bits) := by
  have inner := Term.eval_symbol assigned bits
  unfold widen
  split
  · next full =>
    obtain rfl : bits = 256 := full
    rw [inner, Number.toPattern_toSigned, ite_self]
  · cases signed
    · exact inner
    · have extended : (Term.signExtend 256 (.symbol bits name)).eval assignment = _ :=
        Term.eval_signExtend inner (Number.mask_lt value bits) narrow
      rw [Number.toSigned, Term.bits, Number.mask_mask, ← Number.toSigned] at extended
      exact extended

theorem bits_widen (signed : Bool) (term : Term) : (widen signed term).bits = 256 := by
  unfold widen
  split
  · assumption
  · split <;> rfl

@[simp] theorem symbols_widen (signed : Bool) (term : Term) :
    (widen signed term).symbols = term.symbols := by
  unfold widen
  split
  · rfl
  · cases signed <;> rfl

theorem isSized_widen {term : Term} (sized : term.IsSized) (narrow : term.bits ≤ 256)
    (signed : Bool) : (widen signed term).IsSized := by
  unfold widen
  split
  · exact sized
  · cases signed <;> exact ⟨narrow, sized⟩

theorem isPart_of_isTermOf {leaves : List Leaf} {term : Term} (built : IsTermOf leaves term)
    (narrow : ∀ leaf ∈ leaves, leaf.bits ≤ 256) : term.IsPart := by
  cases built with
  | @constant bits whole value => exact ⟨whole, Number.mask_lt value bits⟩
  | @scalar signed leaf member =>
    have symbol : (Term.symbol leaf.bits leaf.name).IsSized := trivial
    exact ⟨by rw [bits_widen]; decide, isSized_widen symbol (narrow leaf member) signed⟩
  | @byte leaf member octet => exact ⟨⟨1, octet⟩, trivial⟩

theorem assigns_of_isTermOf {leaves : List Leaf} {term : Term} (built : IsTermOf leaves term)
    {assignment : Assignment}
    (assigned : ∀ leaf ∈ leaves, (assignment.valueAt? leaf.place).isSome) :
    assignment.Assigns term.symbols := by
  intro symbol member
  cases built with
  | constant whole value => cases member
  | @scalar signed leaf inside =>
    rw [symbols_widen] at member
    obtain rfl := List.mem_singleton.1 member
    exact assigned leaf inside
  | @byte leaf inside octet =>
    obtain rfl := List.mem_singleton.1 member
    exact assigned leaf inside

theorem fits_of_isTermOf {leaves : List Leaf} {term : Term} (built : IsTermOf leaves term)
    {assignment : Assignment}
    (assigned : ∀ leaf ∈ leaves, (assignment.valueAt? leaf.place).isSome)
    (narrow : ∀ leaf ∈ leaves, leaf.bits ≤ 256) : term.Fits assignment :=
  (isPart_of_isTermOf built narrow).fits (assigns_of_isTermOf built assigned)

theorem eval_congr {leaves : List Leaf} {term : Term} (built : IsTermOf leaves term)
    {left right : Assignment}
    (agree : ∀ leaf ∈ leaves, left.valueAt? leaf.place = right.valueAt? leaf.place) :
    term.eval left = term.eval right := by
  have symbol {leaf : Leaf} (member : leaf ∈ leaves) :
      (Term.symbol leaf.bits leaf.name).eval left =
        (Term.symbol leaf.bits leaf.name).eval right := by
    have same := agree leaf member
    unfold Assignment.valueAt? at same
    rw [Term.eval, Term.eval, Leaf.name, same]
  cases built with
  | constant whole value => rfl
  | scalar signed member =>
    unfold widen
    split
    · exact symbol member
    · split
      · exact Term.eval_signExtend_congr (symbol member) 256
      · exact symbol member
  | byte member octet => exact symbol member

end FuzzBridge.Encoding
