import Mathlib.Data.Int.ModEq
import FuzzBridge.Proofs.Number.Word

/-!
Two's complement. A bit pattern is the remainder of its number, and the signed reading of a word is
the only signed number of the width that leaves the same remainder as the word. So the two undo each
other, up to what does not fit the width.
-/

namespace FuzzBridge.Number

/-- The signed numbers of a width. Without bits there is only zero. -/
def IsSigned : Nat → Int → Prop
  | 0, value => value = 0
  | bits + 1, value => -2 ^ bits ≤ value ∧ value < 2 ^ bits

variable {bits : Nat} {value : Int}

theorem natCast_wordCount (bits : Nat) : (wordCount bits : Int) = 2 ^ bits := by
  rw [wordCount, Nat.pow_eq, Int.natCast_pow]
  rfl

/-- In this form of the range a width without bits is no exception. -/
theorem isSigned_iff :
    IsSigned bits value ↔ -(wordCount bits : Int) ≤ 2 * value ∧ 2 * value < wordCount bits := by
  cases bits with
  | zero =>
    have single : (wordCount 0 : Int) = 1 := rfl
    rw [IsSigned, single]
    omega
  | succ bits =>
    have double := wordCount_succ bits
    rw [IsSigned, ← natCast_wordCount]
    omega

theorem isSigned_bmod (value : Int) (bits : Nat) : IsSigned bits (value.bmod (wordCount bits)) :=
  isSigned_iff.2 (bmod_wordCount_range value bits)

theorem IsSigned.bmod_eq (signed : IsSigned bits value) : value.bmod (wordCount bits) = value := by
  obtain ⟨low, high⟩ := isSigned_iff.1 signed
  exact bmod_wordCount_of_range low high

theorem eq_bmod_iff {signed : Int} :
    signed = value.bmod (wordCount bits) ↔
      IsSigned bits signed ∧ signed ≡ value [ZMOD wordCount bits] := by
  constructor
  · rintro rfl
    exact ⟨isSigned_bmod value bits, Int.bmod_emod⟩
  · rintro ⟨inside, congruent⟩
    rw [← inside.bmod_eq, ← Int.emod_bmod, congruent, Int.emod_bmod]

/-- A remainder towards zero is negative for a negative number; raised by the modulus it leaves the
remainder that is not. -/
theorem tmod_add_tmod {modulus : Int} (positive : 0 < modulus) (value : Int) :
    (value.tmod modulus + modulus).tmod modulus = value % modulus := by
  have above : -modulus < value.tmod modulus := Int.lt_tmod_of_pos value positive
  have same : value.tmod modulus % modulus = value % modulus := by
    rw [Int.tmod_eq_emod]
    split
    · simp
    · simp [Int.natAbs_of_nonneg positive.le]
  rw [Int.tmod_eq_emod_of_nonneg (by omega), Int.add_emod_right, same]

theorem mask_eq_and (value bits : Nat) : mask value bits = value &&& (2 ^ bits - 1) :=
  (Nat.and_two_pow_sub_one_eq_mod value bits).symm

/-- The bit pattern of a number is below the count of words and leaves the same remainder, and its
signed reading is the one signed number of the width that does. From any word the signed reading and
then the bit pattern give the low bits of the word. -/
theorem signed_numbers_match_patterns (bits : Nat) :
    (∀ value : Int,
      toPattern value bits < 2 ^ bits ∧
      (toPattern value bits : Int) ≡ value [ZMOD 2 ^ bits] ∧
      (toPattern value bits : Int) = (value.tmod (2 ^ bits) + 2 ^ bits).tmod (2 ^ bits) ∧
      ∀ signed, signed = toSigned (toPattern value bits) bits ↔
        IsSigned bits signed ∧ signed ≡ value [ZMOD 2 ^ bits]) ∧
    ∀ value : Nat,
      toPattern (toSigned value bits) bits = value % 2 ^ bits ∧
      mask value bits = value % 2 ^ bits ∧
      mask value bits = value &&& (2 ^ bits - 1) := by
  constructor
  · intro value
    have positive : (0 : Int) < wordCount bits := Int.natCast_pos.2 (wordCount_pos bits)
    rw [← natCast_wordCount]
    refine ⟨toPattern_lt value bits, ?_, ?_, fun signed => ?_⟩
    · rw [natCast_toPattern]
      exact Int.mod_modEq value (wordCount bits)
    · rw [natCast_toPattern, tmod_add_tmod positive]
    · rw [toSigned_toPattern, eq_bmod_iff]
  · intro value
    exact ⟨toPattern_toSigned value bits, rfl, mask_eq_and value bits⟩

/-- The sign bit alone is the least signed number of a width. -/
example : toSigned 0x80 8 = -128 ∧ toPattern (-128) 8 = 0x80 := by decide

end FuzzBridge.Number
