import FuzzBridge.Proofs.Solver.CallData

/-!
The variables of a term, and its value as a bit vector. Where no extension is narrower than what it
extends, a term whose variables are assigned has the value of the bit vector that its extensions
make, so extending by zeros keeps the number and extending by the sign keeps the signed reading.
-/

namespace FuzzBridge

namespace Number

theorem toSigned_toNat {bits : Nat} (word : BitVec bits) :
    toSigned word.toNat bits = word.toInt := by
  rw [toSigned_eq_bmod, BitVec.toInt_eq_toNat_bmod]
  rfl

theorem toPattern_toInt {inner : Nat} (word : BitVec inner) (outer : Nat) :
    toPattern word.toInt outer = (word.signExtend outer).toNat := by
  rw [BitVec.signExtend, BitVec.toNat_ofInt]
  rfl

end Number

/-- All of the variables have values. -/
def Assignment.Assigns (assignment : Assignment) (symbols : List (Nat × String)) : Prop :=
  ∀ symbol ∈ symbols, (assignment.value? symbol.2).isSome

instance (assignment : Assignment) (symbols : List (Nat × String)) :
    Decidable (assignment.Assigns symbols) :=
  inferInstanceAs (Decidable (∀ symbol ∈ symbols, (assignment.value? symbol.2).isSome))

theorem Assignment.assigns_append {assignment : Assignment} {left right : List (Nat × String)} :
    assignment.Assigns (left ++ right) ↔ assignment.Assigns left ∧ assignment.Assigns right :=
  List.forall_mem_append

theorem Assignment.not_assigns_iff {assignment : Assignment} {symbols : List (Nat × String)} :
    ¬ assignment.Assigns symbols ↔ ∃ symbol ∈ symbols, assignment.value? symbol.2 = none := by
  simp [Assigns]

namespace Term

/-- The variables of a term, each with its width. -/
def symbols : Term → List (Nat × String)
  | .constant .. => []
  | .symbol bits name => [(bits, name)]
  | .zeroExtend _ inner | .signExtend _ inner => inner.symbols

@[simp] theorem symbols_symbol (bits : Nat) (name : String) :
    (Term.symbol bits name).symbols = [(bits, name)] := rfl

@[simp] theorem symbols_word (bits value : Nat) : (Term.word bits value).symbols = [] := rfl

theorem length_symbols (term : Term) : term.symbols.length = term.variableCount := by
  induction term with
  | constant bits value => rfl
  | symbol bits name => rfl
  | zeroExtend bits inner ih => exact ih
  | signExtend bits inner ih => exact ih

/-- No extension is narrower than what it extends, and every constant is a number of its width. -/
def IsSized : Term → Prop
  | .constant bits value => value < Number.wordCount bits
  | .symbol .. => True
  | .zeroExtend bits inner | .signExtend bits inner => inner.bits ≤ bits ∧ inner.IsSized

/-- The bit vector that a term stands for; a variable without a value stands for zero. -/
def toBitVec (assignment : Assignment) : (term : Term) → BitVec term.bits
  | .constant bits value => .ofNat bits value
  | .symbol bits name => .ofNat bits ((assignment.value? name).getD 0)
  | .zeroExtend bits inner => (inner.toBitVec assignment).setWidth bits
  | .signExtend bits inner => (inner.toBitVec assignment).signExtend bits

variable {assignment : Assignment} {term : Term}

/-! Each kind of term, with the width that it names. -/

theorem toNat_toBitVec_constant {bits value : Nat} (sized : value < Number.wordCount bits) :
    ((constant bits value).toBitVec assignment).toNat = value :=
  Nat.mod_eq_of_lt sized

theorem toNat_toBitVec_symbol {bits value : Nat} {name : String}
    (given : assignment.value? name = some value) :
    ((symbol bits name).toBitVec assignment).toNat = Number.mask value bits := by
  unfold toBitVec
  rw [given]
  rfl

theorem toNat_toBitVec_zeroExtend {bits : Nat} {inner : Term} (wider : inner.bits ≤ bits) :
    ((zeroExtend bits inner).toBitVec assignment).toNat = (inner.toBitVec assignment).toNat :=
  BitVec.toNat_setWidth_of_le wider

theorem toNat_toBitVec_signExtend (bits : Nat) (inner : Term) :
    ((signExtend bits inner).toBitVec assignment).toNat =
      Number.toPattern (inner.toBitVec assignment).toInt bits :=
  (Number.toPattern_toInt (inner.toBitVec assignment) bits).symm

theorem toInt_toBitVec_signExtend {bits : Nat} {inner : Term} (wider : inner.bits ≤ bits) :
    ((signExtend bits inner).toBitVec assignment).toInt = (inner.toBitVec assignment).toInt :=
  BitVec.toInt_signExtend_of_le wider

theorem eval_eq_toBitVec (sized : term.IsSized) (assigned : assignment.Assigns term.symbols) :
    term.eval assignment = .ok (term.toBitVec assignment).toNat := by
  induction term with
  | constant bits value => rw [eval, toNat_toBitVec_constant sized]
  | symbol bits name =>
    obtain ⟨value, given⟩ := Option.isSome_iff_exists.1 (assigned (bits, name) (by simp))
    rw [eval_symbol given, toNat_toBitVec_symbol given]
  | zeroExtend bits inner ih =>
    rw [eval, ih sized.2 assigned, toNat_toBitVec_zeroExtend sized.1]
  | signExtend bits inner ih =>
    have operand := ih sized.2 assigned
    rw [eval_signExtend operand (inner.toBitVec assignment).isLt sized.1, Number.toSigned_toNat,
      toNat_toBitVec_signExtend]

theorem eval_of_unassigned {symbol : Nat × String} (member : symbol ∈ term.symbols)
    (unassigned : assignment.value? symbol.2 = none) :
    term.eval assignment = .error (.unassigned symbol.2) := by
  induction term with
  | constant bits value => cases member
  | symbol bits name =>
    obtain rfl := List.mem_singleton.1 member
    rw [eval, unassigned]
  | zeroExtend bits inner ih => exact ih member
  | signExtend bits inner ih =>
    rw [eval, ih member]
    rfl

theorem eval_of_isConcrete (concrete : term.isConcrete = true) (left right : Assignment) :
    term.eval left = term.eval right := by
  induction term with
  | constant bits value => rfl
  | symbol bits name => cases concrete
  | zeroExtend bits inner ih => exact ih concrete
  | signExtend bits inner ih => exact eval_signExtend_congr (ih concrete) bits

/-- A sized term whose variables are assigned has the value of its bit vector, a number of its
width. Extending by zeros keeps the value of the operand, and extending by the sign keeps the signed
reading. -/
theorem eval_respects_widths (sized : term.IsSized) (assigned : assignment.Assigns term.symbols) :
    ∃ value, term.eval assignment = .ok value ∧ value < Number.wordCount term.bits ∧
      value = (term.toBitVec assignment).toNat ∧
      (∀ bits inner, term = .zeroExtend bits inner → inner.eval assignment = .ok value) ∧
      ∀ bits inner, term = .signExtend bits inner →
        ∃ operand, inner.eval assignment = .ok operand ∧
          Number.toSigned value bits = Number.toSigned operand inner.bits := by
  refine ⟨_, eval_eq_toBitVec sized assigned, (term.toBitVec assignment).isLt, rfl, ?_, ?_⟩
  · rintro bits inner rfl
    rw [toNat_toBitVec_zeroExtend sized.1]
    exact eval_eq_toBitVec sized.2 assigned
  · rintro bits inner rfl
    refine ⟨_, eval_eq_toBitVec sized.2 assigned, ?_⟩
    calc Number.toSigned ((signExtend bits inner).toBitVec assignment).toNat bits
        = ((signExtend bits inner).toBitVec assignment).toInt := Number.toSigned_toNat _
      _ = (inner.toBitVec assignment).toInt := toInt_toBitVec_signExtend sized.1
      _ = Number.toSigned (inner.toBitVec assignment).toNat inner.bits :=
        (Number.toSigned_toNat _).symm

theorem eval_respects_widths_mixed :
    ∃ value,
      (signExtend 32 (zeroExtend 12 (signExtend 12 (symbol 8 "tx0_arg0")))).eval
        (Assignment.empty.set "tx0_arg0" 0x1FE 16) = .ok value ∧
      value < Number.wordCount 32 ∧ Number.toSigned value 32 = -2 := by
  have sized : (signExtend 32 (zeroExtend 12 (signExtend 12 (symbol 8 "tx0_arg0")))).IsSized :=
    ⟨by decide, by decide, by decide, trivial⟩
  have assigned : (Assignment.empty.set "tx0_arg0" 0x1FE 16).Assigns
      (signExtend 32 (zeroExtend 12 (signExtend 12 (symbol 8 "tx0_arg0")))).symbols := by decide
  obtain ⟨value, evaluated, fits, -, -, extended⟩ := eval_respects_widths sized assigned
  obtain ⟨operand, inner, same⟩ := extended _ _ rfl
  obtain rfl : 0xFFE = operand := Except.ok.inj inner
  exact ⟨value, evaluated, fits, same⟩

end Term

def CallData.symbols (data : CallData) : List (Nat × String) := data.parts.flatMap Term.symbols

theorem CallData.length_symbols (data : CallData) : data.symbols.length = data.variableCount := by
  unfold symbols variableCount
  induction data.parts with
  | nil => rfl
  | cons part rest ih =>
    rw [List.flatMap_cons, List.length_append, ih, Term.length_symbols]
    rfl

end FuzzBridge
