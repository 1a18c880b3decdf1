/-!
Computations that may fail succeed exactly if all their steps do.
-/

namespace FuzzBridge.Result

variable {ε α β : Type}

theorem bind_eq_ok {attempt : Except ε α} {next : α → Except ε β} {result : β} :
    attempt >>= next = .ok result ↔ ∃ value, attempt = .ok value ∧ next value = .ok result := by
  cases attempt <;> simp [bind, Except.bind]

theorem map_eq_ok {attempt : Except ε α} {change : α → β} {result : β} :
    change <$> attempt = .ok result ↔ ∃ value, attempt = .ok value ∧ change value = result := by
  cases attempt <;> simp [Functor.map, Except.map]

theorem pure_eq_ok {value result : α} :
    (pure value : Except ε α) = .ok result ↔ value = result := by
  simp [pure, Except.pure]

theorem ok_eq_ok_iff {known : Prop} (h : known) {value result : α} :
    (Except.ok value : Except ε α) = .ok result ↔ known ∧ value = result := by
  simp [h]

end FuzzBridge.Result
