import FuzzBridge.Proofs.Number.Word
import FuzzBridge.Solver.CallData

/-!
Call data whose terms all have values of their widths has bytes, as many as its terms take.
-/

namespace FuzzBridge

namespace Term

/-- A term of whole bytes with a value of its width. -/
structure Fits (assignment : Assignment) (term : Term) : Prop where
  whole : 8 ∣ term.bits
  valued : ∃ value, term.eval assignment = .ok value ∧ value < Number.wordCount term.bits

/-- The value of a term that has one. -/
def valueIn (assignment : Assignment) (term : Term) : Nat :=
  match term.eval assignment with
  | .ok value => value
  | .error _ => 0

theorem valueIn_of_eval {assignment : Assignment} {term : Term} {value : Nat}
    (h : term.eval assignment = .ok value) : term.valueIn assignment = value := by
  rw [valueIn, h]

theorem eval_word (assignment : Assignment) (bits value : Nat) :
    (word bits value).eval assignment = .ok (Number.mask value bits) := rfl

theorem eval_symbol {assignment : Assignment} {name : String} {value : Nat}
    (h : assignment.value? name = some value) (bits : Nat) :
    (symbol bits name).eval assignment = .ok (Number.mask value bits) := by
  rw [eval, h]

theorem eval_signExtend {assignment : Assignment} {inner : Term} {bits value : Nat}
    (h : inner.eval assignment = .ok value) (fits : value < Number.wordCount inner.bits)
    (wider : inner.bits ≤ bits) :
    (signExtend bits inner).eval assignment =
      .ok (Number.toPattern (Number.toSigned value inner.bits) bits) := by
  rw [Number.toPattern_toSigned_wider wider fits]
  simp only [eval, h, bind, Except.bind, pure, Except.pure]
  rw [if_neg (Nat.not_lt.2 wider)]
  split <;> rfl

theorem eval_signExtend_congr {left right : Assignment} {inner : Term}
    (h : inner.eval left = inner.eval right) (bits : Nat) :
    (signExtend bits inner).eval left = (signExtend bits inner).eval right := by
  unfold eval
  rw [h]

end Term

namespace CallData

theorem wordCount_eq {bits : Nat} (whole : 8 ∣ bits) :
    Number.wordCount bits = Nat.pow 256 (bits / 8) := by
  obtain ⟨count, rfl⟩ := whole
  rw [Nat.mul_div_cancel_left _ (by decide)]
  exact Nat.pow_mul 2 8 count

/-- The bytes of terms that have values of their widths. -/
def image (assignment : Assignment) (terms : List Term) : List UInt8 :=
  terms.flatMap fun term => bigEndian (term.bits / 8) (term.valueIn assignment)

@[simp] theorem image_nil (assignment : Assignment) : image assignment [] = [] := rfl

@[simp] theorem image_cons (assignment : Assignment) (term : Term) (rest : List Term) :
    image assignment (term :: rest) =
      bigEndian (term.bits / 8) (term.valueIn assignment) ++ image assignment rest := rfl

@[simp] theorem image_append (assignment : Assignment) (left right : List Term) :
    image assignment (left ++ right) = image assignment left ++ image assignment right :=
  List.flatMap_append

@[simp] theorem byteLength_nil : byteLength [] = 0 := rfl

@[simp] theorem byteLength_cons (term : Term) (rest : List Term) :
    byteLength (term :: rest) = term.bits / 8 + byteLength rest := rfl

@[simp] theorem byteLength_append (left right : List Term) :
    byteLength (left ++ right) = byteLength left + byteLength right := by
  induction left with
  | nil => simp
  | cons term rest ih => rw [List.cons_append, byteLength_cons, byteLength_cons, ih, Nat.add_assoc]

@[simp] theorem length_image (assignment : Assignment) (terms : List Term) :
    (image assignment terms).length = byteLength terms := by
  induction terms with
  | nil => rfl
  | cons term rest ih => simp [ih]

theorem concretizeParts_of_fits {assignment : Assignment} {terms : List Term}
    (h : ∀ term ∈ terms, term.Fits assignment) :
    concretizeParts assignment terms = .ok (image assignment terms) := by
  induction terms with
  | nil => rfl
  | cons term rest ih =>
    obtain ⟨whole, value, valued, fits⟩ := h term (by simp)
    rw [wordCount_eq whole] at fits
    rw [image_cons, Term.valueIn_of_eval valued]
    simp only [concretizeParts, partBytes, valued,
      ih fun term member => h term (List.mem_cons_of_mem _ member), bind, Except.bind, pure,
      Except.pure]
    rw [if_pos fits]

theorem concretizeParts_congr {left right : Assignment} {terms : List Term}
    (h : ∀ term ∈ terms, term.eval left = term.eval right) :
    concretizeParts left terms = concretizeParts right terms := by
  induction terms with
  | nil => rfl
  | cons term rest ih =>
    simp only [concretizeParts, partBytes, h term (by simp),
      ih fun term member => h term (List.mem_cons_of_mem _ member)]

end CallData

end FuzzBridge
