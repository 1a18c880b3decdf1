import FuzzBridge.Proofs.Argument.Substitution

/-!
Filling an argument either substitutes its leaves or fails, and it fails exactly if the model has
something under a text that denotes no bytes. Looking into a compound argument only if the model has
something under its place saves work and changes nothing.
-/

namespace FuzzBridge.Argument

mutual

/-- Every byte string that the model has something under denotes bytes. -/
def IsFillable (model : Assignment) (place : Place) : Argument → Prop
  | .fixedBytes _ text | .bytes text | .string text =>
    model.assignsUnder place = true → ∃ content, readBytes text = .ok content
  | .array _ elements | .fixedArray _ _ elements | .tuple elements =>
    AllFillable model place.element 0 elements
  | _ => True
termination_by structural argument => argument

def AllFillable (model : Assignment) (placeOf : Nat → Place) (index : Nat) :
    List Argument → Prop
  | [] => True
  | element :: rest =>
    element.IsFillable model (placeOf index) ∧ AllFillable model placeOf (index + 1) rest
termination_by structural elements => elements

end

variable {model : Assignment}

theorem allFillable_of_forall {elements : List Argument} {placeOf : Nat → Place}
    (each : ∀ element ∈ elements, ∀ position, element.IsFillable model (placeOf position))
    (index : Nat) : AllFillable model placeOf index elements := by
  induction elements generalizing index with
  | nil => trivial
  | cons element rest ih =>
    exact ⟨each element List.mem_cons_self index,
      ih (fun element member => each element (List.mem_cons_of_mem _ member)) (index + 1)⟩

theorem isFillable_of_closed {place : Place} (closed : model.assignsUnder place = false)
    (argument : Argument) : argument.IsFillable model place := by
  induction argument using Argument.induction generalizing place with
  | uint bits digits | int bits digits | address hex | bool old => trivial
  | fixedBytes length text | bytes text | string text =>
    intro opened
    rw [closed] at opened
    cases opened
  | array element elements ih | fixedArray length element elements ih | tuple elements ih =>
    exact allFillable_of_forall (fun element member position =>
      ih element member (Assignment.assignsUnder_element closed position)) 0

theorem substituteAll_of_closed {place : Place} (closed : model.assignsUnder place = false)
    (elements : List Argument) : substituteAll model place.element 0 elements = elements := by
  have none_below := Assignment.valueAt?_extend_eq_none closed
  refine substituteAll_eq_self fun element _ position => substitute_eq_self (fun path => ?_) element
  rw [Place.extend_element]
  exact none_below _

theorem fillText_eq_ok {place : Place} {text filled : String} :
    fillText model place text = .ok filled ↔
      (∃ content, readBytes text = .ok content) ∧ substituteText model place text = filled := by
  unfold fillText substituteText
  cases readBytes text with
  | ok content => exact Result.ok_eq_ok_iff ⟨content, rfl⟩
  | error fault => exact ⟨nofun, nofun⟩

theorem fillElements_eq_ok {elements filled : List Argument} {place : Place}
    (each : ∀ element ∈ elements, ∀ {filled place}, element.fill model place = .ok filled ↔
      element.IsFillable model place ∧ element.substitute model place = filled) {index : Nat} :
    fillElements model place index elements = .ok filled ↔
      AllFillable model place.element index elements ∧
        substituteAll model place.element index elements = filled := by
  induction elements generalizing index filled with
  | nil => exact Result.ok_eq_ok_iff trivial
  | cons element rest ih =>
    have others {filled : List Argument} :
        fillElements model place (index + 1) rest = .ok filled ↔
          AllFillable model place.element (index + 1) rest ∧
            substituteAll model place.element (index + 1) rest = filled :=
      ih fun element member => each element (List.mem_cons_of_mem _ member)
    rw [fillElements, AllFillable, substituteAll, Result.bind_eq_ok]
    constructor
    · rintro ⟨first, hfirst, h⟩
      obtain ⟨remaining, hremaining, h⟩ := Result.bind_eq_ok.1 h
      obtain ⟨fillable, rfl⟩ := (each element List.mem_cons_self).1 hfirst
      obtain ⟨allFillable, rfl⟩ := others.1 hremaining
      exact ⟨⟨fillable, allFillable⟩, Except.ok.inj h⟩
    · rintro ⟨⟨fillable, allFillable⟩, rfl⟩
      refine ⟨_, (each element List.mem_cons_self).2 ⟨fillable, rfl⟩, ?_⟩
      rw [others.2 ⟨allFillable, rfl⟩]
      rfl

/-- Filling an argument is substituting its leaves, provided that the texts looked into can be
read. -/
theorem fill_eq_ok {argument filled : Argument} {place : Place} :
    argument.fill model place = .ok filled ↔
      argument.IsFillable model place ∧ argument.substitute model place = filled := by
  induction argument using Argument.induction generalizing place filled with
  | uint bits digits | int bits digits | address hex | bool old =>
    exact Result.ok_eq_ok_iff trivial
  | fixedBytes length text | bytes text | string text =>
    simp only [fill, IsFillable, substitute]
    split
    · next opened =>
      rw [Result.map_eq_ok]
      constructor
      · rintro ⟨text', h, rfl⟩
        obtain ⟨readable, rfl⟩ := fillText_eq_ok.1 h
        exact ⟨fun _ => readable, rfl⟩
      · rintro ⟨readable, rfl⟩
        exact ⟨_, fillText_eq_ok.2 ⟨readable opened, rfl⟩, rfl⟩
    · next closed =>
      rw [substituteText_eq_self (Assignment.valueAt?_extend_eq_none (Bool.eq_false_iff.2 closed))]
      exact Result.ok_eq_ok_iff fun opened => absurd opened closed
  | array element elements ih | fixedArray length element elements ih | tuple elements ih =>
    simp only [fill, IsFillable, substitute]
    split
    · rw [Result.map_eq_ok]
      constructor
      · rintro ⟨elements', h, rfl⟩
        obtain ⟨fillable, rfl⟩ := (fillElements_eq_ok ih).1 h
        exact ⟨fillable, rfl⟩
      · rintro ⟨fillable, rfl⟩
        exact ⟨_, (fillElements_eq_ok ih).2 ⟨fillable, rfl⟩, rfl⟩
    · next closed =>
      have closed := Bool.eq_false_iff.2 closed
      rw [substituteAll_of_closed closed]
      exact Result.ok_eq_ok_iff (allFillable_of_forall (fun element _ position =>
        isFillable_of_closed (Assignment.assignsUnder_element closed position) element) 0)

theorem readable_of_data {elements : List Argument} {values : List Datum}
    (read : data elements = .ok values) {element : Argument} (member : element ∈ elements) :
    ∃ value, element.datum = .ok value := by
  have each := data_eq_ok.1 read
  induction each with
  | nil => simp at member
  | cons first _ ih =>
    rcases List.mem_cons.1 member with rfl | member
    · exact ⟨_, first⟩
    · exact ih (data_eq_ok.2 (by assumption)) member

theorem isFillable_of_datum {argument : Argument} {value : Datum}
    (read : argument.datum = .ok value) (model : Assignment) (place : Place) :
    argument.IsFillable model place := by
  induction argument using Argument.induction generalizing value place with
  | uint bits digits | int bits digits | address hex | bool old => trivial
  | fixedBytes length text | bytes text | string text =>
    obtain ⟨content, readable, -⟩ := Result.map_eq_ok.1 read
    exact fun _ => ⟨content, readable⟩
  | array element elements ih | fixedArray length element elements ih | tuple elements ih =>
    obtain ⟨values, readable, -⟩ := Result.map_eq_ok.1 read
    refine allFillable_of_forall (fun element member position => ?_) 0
    obtain ⟨_, inner⟩ := readable_of_data readable member
    exact ih element member inner (place.element position)

end FuzzBridge.Argument
