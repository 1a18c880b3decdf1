import Mathlib.Data.List.Forall2
import FuzzBridge.Proofs.Result
import FuzzBridge.Proofs.Table
import FuzzBridge.Solver.Model
import FuzzBridge.Solver.Term

/-!
Values against the widths of their variables. Whatever enters an assignment by itself is reduced to
its width; the numbers of a model are words only if the solver gave no larger ones.
-/

namespace FuzzBridge

def Variable.Fits (entry : Variable) : Prop :=
  ∀ value, entry.value = some value → value < Number.wordCount entry.bits

namespace Assignment

def IsFitting (assignment : Assignment) : Prop :=
  ∀ entry ∈ assignment.table.entries, entry.2.Fits

/-- The ways in which a variable enters an assignment. -/
inductive Edit where
  | set (name : String) (value bits : Nat)
  | setAt (place : Place) (value bits : Nat)
  | declare (place : Place) (bits seed : Nat)

def Edit.apply (assignment : Assignment) : Edit → Assignment
  | .set name value bits => assignment.set name value bits
  | .setAt place value bits => assignment.setAt place value bits
  | .declare place bits seed => (Term.declare assignment place bits seed).2

def ofEdits (edits : List Edit) : Assignment := edits.foldl Edit.apply empty

variable {assignment : Assignment}

theorem IsFitting.set (fitting : assignment.IsFitting) (name : String) (value bits : Nat) :
    (assignment.set name value bits).IsFitting := by
  intro entry member
  rcases Table.mem_place member with rfl | old
  · intro kept same
    obtain rfl := Option.some.inj same
    exact Number.mask_lt value bits
  · exact fitting entry old

theorem IsFitting.apply (fitting : assignment.IsFitting) (edit : Edit) :
    (edit.apply assignment).IsFitting := by
  cases edit with
  | set name value bits => exact fitting.set name value bits
  | setAt place value bits => exact fitting.set place.name value bits
  | declare place bits seed => exact fitting.set place.name seed bits

theorem IsFitting.foldl_apply (fitting : assignment.IsFitting) (edits : List Edit) :
    (edits.foldl Edit.apply assignment).IsFitting := by
  induction edits generalizing assignment with
  | nil => exact fitting
  | cons edit rest ih => exact ih (fitting.apply edit)

theorem isFitting_ofEdits (edits : List Edit) : (ofEdits edits).IsFitting :=
  IsFitting.foldl_apply (fun _ member => absurd member List.not_mem_nil) edits

theorem IsFitting.lt_of_value? (fitting : assignment.IsFitting) {name : String} {value bits : Nat}
    (assigned : assignment.value? name = some value) (wide : assignment.width? name = some bits) :
    value < Number.wordCount bits := by
  obtain ⟨entry, found, rfl⟩ := Option.map_eq_some_iff.1 wide
  rw [value?, found, Option.bind_some] at assigned
  exact fitting _ (Table.mem_of_find? found) value assigned

end Assignment

namespace Model

/-- The variable that a member of the answer is read as. -/
def IsRead (member : String × Json) (entry : String × Variable) : Prop :=
  entry.1 = member.1 ∧ entry.2.bits = 256 ∧ value member.1 member.2 = .ok entry.2.value

theorem forall₂_of_readVariables {members : List (String × Json)}
    {entries : List (String × Variable)} (read : readVariables members = .ok entries) :
    List.Forall₂ IsRead members entries := by
  induction members generalizing entries with
  | nil =>
    obtain rfl := Except.ok.inj read
    exact .nil
  | cons member rest ih =>
    obtain ⟨name, json⟩ := member
    obtain ⟨number, hnumber, afterFirst⟩ := Result.bind_eq_ok.1 read
    obtain ⟨others, hothers, same⟩ := Result.bind_eq_ok.1 afterFirst
    obtain rfl := Result.pure_eq_ok.1 same
    exact .cons ⟨rfl, rfl, hnumber⟩ (ih hothers)

theorem pairwise_of_isRead {members : List (String × Json)} {entries : List (String × Variable)}
    (read : List.Forall₂ IsRead members entries)
    (sorted : members.Pairwise fun left right => left.1 < right.1) :
    entries.Pairwise fun left right => left.1 < right.1 := by
  have keys : entries.map (·.1) = members.map (·.1) := by
    rw [← List.forall₂_eq_eq_eq, List.forall₂_map_left_iff, List.forall₂_map_right_iff]
    exact read.flip.imp fun _ _ h => h.1
  have ascending : (members.map (·.1)).Pairwise (· < ·) := List.pairwise_map.2 sorted
  rw [← keys] at ascending
  exact List.pairwise_map.1 ascending

theorem isRead_of_ofText {text : String} {model : Assignment}
    (read : ofText text = .ok (some model)) :
    ∃ members, Json.parse? text = some (.object members) ∧
      List.Forall₂ IsRead (Json.fields members).entries model.table.entries := by
  unfold ofText at read
  split at read
  · next json parsed =>
    cases json <;> simp only [ofJson, reduceCtorEq, Except.ok.injEq] at read
    case object members =>
      obtain ⟨entries, hentries, same⟩ := Result.bind_eq_ok.1 read
      obtain rfl := Option.some.inj (Result.pure_eq_ok.1 same)
      have aligned := forall₂_of_readVariables hentries
      refine ⟨members, parsed, ?_⟩
      rw [Table.entries_ofList (pairwise_of_isRead aligned (Json.fields members).sorted)]
      exact aligned
  · simp at read

theorem isFitting_iff_of_isRead {members : List (String × Json)} {model : Assignment}
    (read : List.Forall₂ IsRead members model.table.entries) :
    model.IsFitting ↔ ∀ member ∈ members, ∀ number, value member.1 member.2 = .ok (some number) →
      number < Number.wordCount 256 := by
  unfold Assignment.IsFitting
  generalize model.table.entries = entries at read
  induction read with
  | nil => exact ⟨fun _ => nofun, fun _ => nofun⟩
  | cons first _ ih =>
    obtain ⟨-, wide, denoted⟩ := first
    rw [List.forall_mem_cons, List.forall_mem_cons, ih]
    refine and_congr_left fun _ => ?_
    unfold Variable.Fits
    simp only [wide, denoted, Except.ok.injEq]

theorem width?_of_isRead {members : List (String × Json)} {model : Assignment}
    (read : List.Forall₂ IsRead members model.table.entries) {name : String} {bits : Nat}
    (wide : model.width? name = some bits) : bits = 256 := by
  obtain ⟨entry, found, rfl⟩ := Option.map_eq_some_iff.1 wide
  have member := Table.mem_of_find? found
  generalize model.table.entries = entries at read member
  induction read with
  | nil => simp at member
  | cons first _ ih =>
    rcases List.mem_cons.1 member with rfl | member
    · exact first.2.1
    · exact ih member

end Model

end FuzzBridge
