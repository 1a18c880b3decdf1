import FuzzBridge.Proofs.Result
import FuzzBridge.Proofs.Solver.Term

/-!
Call data of sized terms of whole bytes. It has bytes exactly under the assignments that give all
its variables a value, always as many, and the bytes of the terms without variables are the same
under all of them.
-/

namespace FuzzBridge

namespace Term

structure IsPart (term : Term) : Prop where
  whole : 8 ∣ term.bits
  sized : term.IsSized

theorem IsPart.fits {term : Term} (part : term.IsPart) {assignment : Assignment}
    (assigned : assignment.Assigns term.symbols) : term.Fits assignment :=
  ⟨part.whole, _, eval_eq_toBitVec part.sized assigned, (term.toBitVec assignment).isLt⟩

theorem valueIn_of_isConcrete {term : Term} (concrete : term.isConcrete = true)
    (left right : Assignment) : term.valueIn left = term.valueIn right := by
  rw [valueIn, valueIn, eval_of_isConcrete concrete left right]

end Term

namespace CallData

/-- The position of a byte that belongs to a term without variables. -/
def IsFrame (data : CallData) (position : Nat) : Prop :=
  ∃ before part after, data.parts = before ++ part :: after ∧ part.isConcrete = true ∧
    byteLength before ≤ position ∧ position < byteLength before + part.bits / 8

variable {assignment : Assignment}

theorem concretizeParts_of_assigns {parts : List Term} (each : ∀ part ∈ parts, part.IsPart)
    (assigned : assignment.Assigns (parts.flatMap Term.symbols)) :
    concretizeParts assignment parts = .ok (image assignment parts) := by
  refine concretizeParts_of_fits fun part member => (each part member).fits ?_
  exact fun symbol inside => assigned symbol (List.mem_flatMap.2 ⟨part, member, inside⟩)

/-- The first term with a variable that has no value is where concretizing stops. -/
theorem concretizeParts_of_not_assigns {parts : List Term} (each : ∀ part ∈ parts, part.IsPart)
    (unassigned : ¬ assignment.Assigns (parts.flatMap Term.symbols)) :
    ∃ symbol ∈ parts.flatMap Term.symbols, assignment.value? symbol.2 = none ∧
      concretizeParts assignment parts = .error (.unassigned symbol.2) := by
  induction parts with
  | nil => exact absurd (fun _ => nofun) unassigned
  | cons part rest ih =>
    rw [List.forall_mem_cons] at each
    rw [List.flatMap_cons] at unassigned ⊢
    by_cases first : assignment.Assigns part.symbols
    · have later := mt (fun rest => Assignment.assigns_append.2 ⟨first, rest⟩) unassigned
      obtain ⟨symbol, member, missing, stops⟩ := ih each.2 later
      obtain ⟨whole, value, valued, fits⟩ := each.1.fits first
      rw [wordCount_eq whole] at fits
      refine ⟨symbol, List.mem_append_right _ member, missing, ?_⟩
      simp only [concretizeParts, partBytes, valued, stops, bind, Except.bind, pure, Except.pure]
      rw [if_pos fits]
    · obtain ⟨symbol, member, missing⟩ := Assignment.not_assigns_iff.1 first
      refine ⟨symbol, List.mem_append_left _ member, missing, ?_⟩
      simp only [concretizeParts, partBytes, Term.eval_of_unassigned member missing, bind,
        Except.bind]

variable {data : CallData}

theorem concretize_eq_ok_iff (each : ∀ part ∈ data.parts, part.IsPart) {bytes : List UInt8} :
    data.concretize assignment = .ok bytes ↔
      assignment.Assigns data.symbols ∧ image assignment data.parts = bytes := by
  unfold concretize
  by_cases assigned : assignment.Assigns data.symbols
  · rw [concretizeParts_of_assigns each assigned, Except.ok.injEq]
    exact (and_iff_right assigned).symm
  · obtain ⟨symbol, -, -, stops⟩ := concretizeParts_of_not_assigns each assigned
    rw [stops]
    exact ⟨nofun, fun given => absurd given.1 assigned⟩

theorem unassigned_of_concretize (each : ∀ part ∈ data.parts, part.IsPart) {fault : EvalFault}
    (stops : data.concretize assignment = .error fault) :
    ∃ symbol ∈ data.symbols, assignment.value? symbol.2 = none ∧
      fault = .unassigned symbol.2 := by
  have unassigned : ¬ assignment.Assigns data.symbols := by
    intro assigned
    rw [concretize, concretizeParts_of_assigns each assigned] at stops
    cases stops
  obtain ⟨symbol, member, missing, there⟩ := concretizeParts_of_not_assigns each unassigned
  exact ⟨symbol, member, missing, Except.error.inj (stops.symm.trans there)⟩

theorem getElem?_image (assignment : Assignment) (before : List Term) (part : Term)
    (after : List Term) {position : Nat} (low : byteLength before ≤ position)
    (high : position < byteLength before + part.bits / 8) :
    (image assignment (before ++ part :: after))[position]? =
      (bigEndian (part.bits / 8) (part.valueIn assignment))[position - byteLength before]? := by
  rw [image_append, List.getElem?_append_right (by simpa using low), length_image, image_cons,
    List.getElem?_append_left (by rw [length_bigEndian]; omega)]

theorem getElem?_image_of_isFrame {position : Nat} (frame : data.IsFrame position)
    (left right : Assignment) :
    (image left data.parts)[position]? = (image right data.parts)[position]? := by
  obtain ⟨before, part, after, split, concrete, low, high⟩ := frame
  rw [split, getElem?_image left before part after low high,
    getElem?_image right before part after low high,
    Term.valueIn_of_isConcrete concrete left right]

end CallData

end FuzzBridge
