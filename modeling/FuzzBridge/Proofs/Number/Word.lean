import FuzzBridge.Number.Word

/-!
The signed reading of a word is the balanced remainder, and a signed number and its bit pattern
determine each other.
-/

namespace FuzzBridge.Number

theorem wordCount_succ (bits : Nat) : wordCount (bits + 1) = 2 * wordCount bits := by
  rw [wordCount, wordCount, Nat.pow_eq, Nat.pow_eq, Nat.pow_succ, Nat.mul_comm]

theorem wordCount_le {inner outer : Nat} (h : inner ≤ outer) : wordCount inner ≤ wordCount outer :=
  Nat.pow_le_pow_right (by decide) h

theorem toPattern_natCast (value bits : Nat) : toPattern value bits = mask value bits := by
  rw [toPattern, mask, ← Int.natCast_emod, Int.toNat_natCast]

theorem natCast_toPattern (value : Int) (bits : Nat) :
    (toPattern value bits : Int) = value % wordCount bits := by
  have positive := wordCount_pos bits
  exact Int.toNat_of_nonneg (Int.emod_nonneg _ (by omega))

theorem toPattern_congr {left right : Int} {bits : Nat}
    (h : left % wordCount bits = right % wordCount bits) :
    toPattern left bits = toPattern right bits := by
  rw [toPattern, toPattern, h]

theorem mask_toPattern (value : Int) (bits : Nat) :
    mask (toPattern value bits) bits = toPattern value bits :=
  mask_of_lt (toPattern_lt value bits)

/-- The sign bit says in which half of the words a word is. -/
theorem testBit_sign {low bits : Nat} (h : low < wordCount (bits + 1)) :
    low.testBit bits = decide (wordCount bits ≤ low) := by
  rw [wordCount, Nat.pow_eq] at h
  by_cases upper : wordCount bits ≤ low
  · rw [decide_eq_true upper]
    exact Nat.testBit_of_two_pow_le_and_two_pow_add_one_gt upper h
  · rw [decide_eq_false upper]
    exact Nat.testBit_lt_two_pow (by simpa [wordCount] using upper)

theorem toSigned_eq_bmod (value bits : Nat) :
    toSigned value bits = (value : Int).bmod (wordCount bits) := by
  have low := mask_lt value bits
  have remainder : (value : Int) % wordCount bits = mask value bits :=
    (Int.natCast_emod _ _).symm
  rw [toSigned, Int.bmod_def, remainder]
  cases bits with
  | zero =>
    have : wordCount 0 = 1 := rfl
    simp
    omega
  | succ bits =>
    have double := wordCount_succ bits
    simp only [Nat.add_sub_cancel, testBit_sign low]
    split <;> split <;> simp_all <;> omega

theorem toPattern_bmod (value : Int) (bits : Nat) :
    toPattern (value.bmod (wordCount bits)) bits = toPattern value bits :=
  toPattern_congr Int.bmod_emod

theorem toPattern_toSigned (value bits : Nat) :
    toPattern (toSigned value bits) bits = mask value bits := by
  rw [toSigned_eq_bmod, toPattern_bmod, toPattern_natCast]

theorem toSigned_toPattern (value : Int) (bits : Nat) :
    toSigned (toPattern value bits) bits = value.bmod (wordCount bits) := by
  rw [toSigned_eq_bmod, natCast_toPattern, Int.emod_bmod]

theorem bmod_wordCount_of_range {value : Int} {bits : Nat}
    (low : -(wordCount bits : Int) ≤ 2 * value)
    (high : 2 * value < wordCount bits) : value.bmod (wordCount bits) = value :=
  Int.bmod_eq_of_le_mul_two (by omega) (by omega)

theorem bmod_wordCount_range (value : Int) (bits : Nat) :
    -(wordCount bits : Int) ≤ 2 * value.bmod (wordCount bits) ∧
      2 * value.bmod (wordCount bits) < wordCount bits := by
  cases bits with
  | zero =>
    rw [show wordCount 0 = 1 from rfl, Int.bmod_one]
    decide
  | succ bits =>
    have positive := wordCount_pos (bits + 1)
    have double := wordCount_succ bits
    have low := Int.le_bmod (x := value) positive
    have high := Int.bmod_lt (x := value) positive
    omega

theorem bmod_wordCount_wider (value : Int) {inner outer : Nat} (h : inner ≤ outer) :
    (value.bmod (wordCount inner)).bmod (wordCount outer) = value.bmod (wordCount inner) := by
  have wider := wordCount_le h
  obtain ⟨low, high⟩ := bmod_wordCount_range value inner
  exact bmod_wordCount_of_range (by omega) (by omega)

theorem toPattern_toSigned_wider {value inner outer : Nat} (h : inner ≤ outer)
    (lt : value < wordCount inner) :
    toPattern (toSigned value inner) outer =
      if 0 < inner ∧ value.testBit (inner - 1) then
        value ||| (wordCount outer - wordCount inner)
      else value := by
  have wider := wordCount_le h
  have ones : value ||| (wordCount outer - wordCount inner) =
      wordCount outer - wordCount inner + value := by
    obtain ⟨extra, rfl⟩ := Nat.exists_eq_add_of_le h
    have factor : wordCount (inner + extra) - wordCount inner =
        2 ^ inner * (wordCount extra - 1) := by
      simp only [wordCount, Nat.pow_eq, Nat.pow_add, Nat.mul_sub, Nat.mul_one]
    rw [factor, Nat.or_comm, Nat.two_pow_add_eq_or_of_lt lt]
  rw [toSigned, mask_of_lt lt]
  split
  · rw [ones, toPattern, ← Int.add_emod_right, Int.emod_eq_of_lt (by omega) (by omega)]
    omega
  · rw [toPattern_natCast, mask_of_lt (by omega)]

theorem unsigned?_eq_some {integer : Int} {value : Nat} :
    unsigned? integer = some value ↔ integer = value := by
  unfold unsigned?
  split
  · rw [Option.some.injEq]
    omega
  · simp only [reduceCtorEq, false_iff]
    omega

end FuzzBridge.Number
