import Mathlib.Algebra.GroupWithZero.Nat
import FuzzBridge.Proofs.Number.Numeral

/-!
Hexadecimal texts in normal form. Many texts are read as one number, and two of them are printed for
it: the shortest one and, for its low 160 bits, the address. A text is printed back as it was
exactly if it is in one of these forms already.
-/

namespace FuzzBridge.Number

variable {base : Nat}

theorem eq_zero_of_toDigits (large : 1 < base) (small : base ≤ 16) {value : Nat}
    (h : Nat.toDigits base value = ['0']) : value = 0 := by
  have read := digitsFrom?_toDigits large small value
  have zero := digitsFrom?_zeros base 1 (by omega)
  rw [h] at read
  rw [List.replicate_one] at zero
  exact Option.some.inj (read.symm.trans zero)

theorem isShortest_toDigits (large : 1 < base) (small : base ≤ 16) (value : Nat) :
    IsShortest base (Nat.toDigits base value) := by
  refine ⟨isPrinted_toDigits large small value, Nat.toDigits_ne_nil, ?_⟩
  -- The first digit is that of the quotient, until the quotient is a digit itself.
  induction value using Nat.strongRecOn with
  | ind value ih =>
    rw [Nat.toDigits_eq_if large]
    split
    · intro first
      rw [List.head?_cons, Option.some.injEq] at first
      rw [first]
    · next more =>
      have smaller : value / base < value := Nat.div_lt_self (by omega) large
      have quotient : value / base ≠ 0 := Nat.div_ne_zero_iff.2 ⟨by omega, by omega⟩
      intro first
      have front : (Nat.toDigits base (value / base)).head? = some '0' := by
        obtain ⟨c, rest, split⟩ := List.exists_cons_of_ne_nil
          (Nat.toDigits_ne_nil (b := base) (n := value / base))
        rw [split] at first ⊢
        exact first
      exact absurd (eq_zero_of_toDigits large small (ih _ smaller front)) quotient

theorem isShortestHex_toHex (value : Nat) : IsShortestHex (toHex value) :=
  ⟨hexDigits value, String.toList_ofList, isShortest_toDigits (by decide) (by decide) value⟩

theorem length_padLeft {width : Nat} {text : List Char} (fits : text.length ≤ width) (c : Char) :
    (padLeft width c text).length = width := by
  rw [padLeft, List.length_append, List.length_replicate]
  omega

theorem isAddressText_toAddress (value : Nat) : IsAddressText (toAddress value) := by
  have fits : (hexDigits (value % Nat.pow 2 160)).length ≤ 40 := by
    rw [hexDigits, Nat.length_toDigits_le_iff (by decide) (by decide)]
    exact Nat.lt_of_lt_of_le (Nat.mod_lt value (by decide)) (by decide)
  exact ⟨padLeft 40 '0' (hexDigits (value % Nat.pow 2 160)), String.toList_ofList,
    length_padLeft fits '0', isPrinted_padLeft (by decide) (by decide) 40 _⟩

/-- Both printed forms read back, the address as the low 160 bits, and of all texts that are read
exactly those in the form are printed back unchanged. -/
theorem hex_texts_normalize :
    (∀ value,
      readHex (toHex value) = .ok value ∧
      IsAddressText (toAddress value) ∧
      readHex (toAddress value) = .ok (value % 2 ^ 160)) ∧
    ∀ text value, readHex text = .ok value →
      (toHex value = text ↔ IsShortestHex text) ∧
      (toAddress value = text ↔ IsAddressText text) := by
  refine ⟨fun value => ⟨readHex_toHex value, isAddressText_toAddress value, ?_⟩, ?_⟩
  · exact readHex_toAddress value
  · intro text value read
    rw [readHex_eq_ok] at read
    refine ⟨⟨?_, fun shortest => toHex_of_isShortestHex shortest read⟩,
      ⟨?_, fun address => toAddress_of_isAddressText address read⟩⟩
    · rintro rfl
      exact isShortestHex_toHex value
    · rintro rfl
      exact isAddressText_toAddress value

def paddedHex : String := "0X+0F_"

theorem hex_texts_normalize_padded :
    readHex paddedHex = .ok 15 ∧ toHex 15 = "0xf" ∧ ¬ IsShortestHex paddedHex ∧
      ¬ IsAddressText paddedHex := by
  have read : readHex paddedHex = .ok 15 := rfl
  obtain ⟨shortest, address⟩ := hex_texts_normalize.2 paddedHex 15 read
  exact ⟨read, by decide, mt shortest.2 (by decide), mt address.2 (by decide)⟩

end FuzzBridge.Number
