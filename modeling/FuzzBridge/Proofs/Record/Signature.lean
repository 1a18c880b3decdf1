import FuzzBridge.Proofs.Argument.TypeName
import FuzzBridge.Record.Basic

/-!
A signature names one function with one list of argument types, whatever the function is called: it
ends with the parentheses of the argument types, and the one that opens them is found by counting
parentheses from the end.
-/

namespace FuzzBridge

namespace ArgType

/-- A tuple's name does not end with the name of another tuple: something before that would have to
leave a parenthesis open. -/
theorem before_eq_nil {before : List Char} {types others : List ArgType}
    (ends : (tuple types).chars = before ++ (tuple others).chars) : before = [] := by
  cases before with
  | nil => rfl
  | cons c before =>
    rw [chars_tuple, chars_tuple, List.cons_append, List.cons_append, ← List.append_assoc] at ends
    have inner : listed types = before ++ '(' :: listed others :=
      List.append_cancel_right (List.cons.inj ends).2
    have kept (depth : Nat) (types : List ArgType) :
        nestAll true depth (listed types) = some depth :=
      nestAll_listed (fun type _ => nestAll_chars true depth type) (by simp [nest])
    have whole := kept 0 types
    rw [inner, nestAll_append] at whole
    obtain ⟨depth, -, after⟩ := Option.bind_eq_some_iff.1 whole
    have opens : nest true depth '(' = some (depth + 1) := by simp [nest]
    rw [nestAll_cons_of_eq opens, kept] at after
    simp at after

theorem tuple_injective {types others : List ArgType}
    (h : (tuple types).chars = (tuple others).chars) : types = others :=
  tuple.inj (chars_injective h)

theorem signature_inj {function other : String} {types others : List ArgType} :
    signature function types = signature other others ↔ function = other ∧ types = others := by
  constructor
  · intro h
    have spelled :
        function.toList ++ (tuple types).chars = other.toList ++ (tuple others).chars := by
      simpa [signature, name] using congrArg String.toList h
    rcases List.append_eq_append_iff.1 spelled with ⟨before, longer, same⟩ | ⟨before, longer, same⟩
    · obtain rfl := before_eq_nil same
      exact ⟨String.toList_injective (by simpa using longer.symm), tuple_injective same⟩
    · obtain rfl := before_eq_nil same
      exact ⟨String.toList_injective (by simpa using longer), (tuple_injective same).symm⟩
  · rintro ⟨rfl, rfl⟩
    rfl

end ArgType

namespace Record

theorem signature?_eq_some {record : Record} {key : String} :
    record.signature? = some key ↔
      ∃ function arguments, record.action = .call function arguments ∧
        ArgType.signature function (Argument.types arguments) = key := by
  unfold signature?
  cases record.action <;> simp

/-- Signatures and names of types are unambiguous, so records with one signature call one function
with arguments of the same types. -/
theorem signature_determines_function :
    (∀ function other types others,
      ArgType.signature function types = ArgType.signature other others ↔
        function = other ∧ types = others) ∧
      (∀ left right : ArgType, left.name = right.name ↔ left = right) ∧
      ∀ left right : Record,
        (∃ key, left.signature? = some key ∧ right.signature? = some key) ↔
          ∃ function arguments others, left.action = .call function arguments ∧
            right.action = .call function others ∧
            Argument.types arguments = Argument.types others := by
  refine ⟨fun _ _ _ _ => ArgType.signature_inj,
    fun _ _ => ⟨ArgType.name_injective, congrArg ArgType.name⟩, fun left right => ?_⟩
  constructor
  · rintro ⟨key, hleft, hright⟩
    obtain ⟨function, arguments, isCall, rfl⟩ := signature?_eq_some.1 hleft
    obtain ⟨other, others, isCall', same⟩ := signature?_eq_some.1 hright
    obtain ⟨rfl, types⟩ := ArgType.signature_inj.1 same
    exact ⟨other, arguments, others, isCall, isCall', types.symm⟩
  · rintro ⟨function, arguments, others, isCall, isCall', types⟩
    exact ⟨_, signature?_eq_some.2 ⟨function, arguments, isCall, rfl⟩,
      signature?_eq_some.2 ⟨function, others, isCall', by rw [types]⟩⟩

/-- The name of a function may itself end with parentheses. -/
example : ArgType.signature "f()" [] ≠ ArgType.signature "f" [.tuple []] := by decide

end Record

end FuzzBridge
