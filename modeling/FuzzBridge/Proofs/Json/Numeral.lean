import Mathlib.Data.List.Induction
import FuzzBridge.Json.Numeral

/-!
The numbers that JSON numerals stand for. A numeral stands for a whole number if and only if it has
no sign, fraction or exponent and the number fits 64 bits; so whole numbers are read as they are
printed.
-/

namespace FuzzBridge.Numeral

/-- Some numeral stands for the number. -/
def IsWritten (numeral : Numeral) : Prop := ∃ parts, ofParts? parts = some numeral

theorem natOf_append_singleton (digits : List Char) (c : Char) :
    natOf (digits ++ [c]) = natOf digits * 10 + digitOf c := by
  simp [natOf]

/-- The significand is the number that the digits spell, until that number outgrows 64 bits. -/
theorem foldl_pushWhole (digits : List Char) :
    let state := digits.foldl Scaled.pushWhole ⟨0, 0, false⟩
    state.full = false ∧ state.significand = natOf digits ∧ natOf digits < Nat.pow 2 64 ∨
      state.full = true ∧ Nat.pow 2 64 ≤ natOf digits := by
  induction digits using List.reverseRecOn with
  | nil => exact .inl ⟨rfl, rfl, by decide⟩
  | append_singleton front c ih =>
    simp only [List.foldl_append, List.foldl_cons, List.foldl_nil, natOf_append_singleton,
      Scaled.pushWhole]
    rcases ih with ⟨room, same, -⟩ | ⟨full, large⟩
    · rw [room, same]
      split
      · next more => exact .inr ⟨rfl, by simpa using more⟩
      · next fits => exact .inl ⟨rfl, rfl, by simpa using fits⟩
    · rw [full]
      exact .inr ⟨rfl, Nat.le_trans large (by omega)⟩

theorem ofParts?_eq_natural {parts : Parts} {value : Nat} :
    ofParts? parts = some (.natural value) ↔
      parts.negative = false ∧ parts.fraction = none ∧ parts.exponent = none ∧
        natOf parts.whole = value ∧ value < Nat.pow 2 64 := by
  obtain ⟨negative, whole, fraction, exponent⟩ := parts
  match fraction, exponent with
  | some _, _ => simp [ofParts?]
  | none, some _ => simp [ofParts?]
  | none, none =>
    have state := foldl_pushWhole whole
    simp only [ofParts?]
    generalize whole.foldl Scaled.pushWhole ⟨0, 0, false⟩ = read at state
    obtain ⟨significand, power, full⟩ := read
    rcases state with ⟨rfl, rfl, small⟩ | ⟨rfl, large⟩
    · cases negative with
      | false => simpa using fun same => same ▸ small
      | true =>
        simp only [Bool.not_true, Bool.false_eq_true, if_false]
        split <;> simp
    · simpa using fun _ same => same ▸ large

theorem IsWritten.lt {value : Nat} (written : (natural value).IsWritten) :
    value < Nat.pow 2 64 := by
  obtain ⟨parts, read⟩ := written
  exact (ofParts?_eq_natural.1 read).2.2.2.2

theorem digitOf_digitChar {digit : Nat} (h : digit < 10) :
    digitOf (Nat.digitChar digit) = digit := by
  have table : ∀ digit < 10, digitOf (Nat.digitChar digit) = digit := by decide
  exact table digit h

theorem natOf_toDigits (value : Nat) : natOf (Nat.toDigits 10 value) = value := by
  induction value using Nat.strongRecOn with
  | ind value ih =>
    rw [Nat.toDigits_eq_if (by decide)]
    split
    · next digit => simp [natOf, digitOf_digitChar digit]
    · next more =>
      have last := digitOf_digitChar (Nat.mod_lt value (by decide : 0 < 10))
      rw [natOf_append_singleton, ih (value / 10) (by omega), last, Nat.div_add_mod']

theorem ofParts?_toDigits {value : Nat} (small : value < Nat.pow 2 64) :
    ofParts? ⟨false, Nat.toDigits 10 value, none, none⟩ = some (.natural value) :=
  ofParts?_eq_natural.2 ⟨rfl, rfl, rfl, natOf_toDigits value, small⟩

end FuzzBridge.Numeral
