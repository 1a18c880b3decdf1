import FuzzBridge.Proofs.Text.Utf8

/-!
Texts are in the order of their bytes. A first byte tells how many bytes follow it, and is larger
where there are more; among characters of as many bytes the first byte that differs decides.
-/

namespace FuzzBridge.Text

variable {left right : List UInt8}

theorem ofNat_cons_lt {a b : Nat} (ha : a < 256) (hb : b < 256) :
    UInt8.ofNat a :: left < UInt8.ofNat b :: right ↔ a < b ∨ a = b ∧ left < right := by
  rw [List.cons_lt_cons_iff, UInt8.lt_iff_toNat_lt, ← UInt8.toNat_inj,
    UInt8.toNat_ofNat_of_lt' ha, UInt8.toNat_ofNat_of_lt' hb]

theorem encodeChar_cases (c : Char) :
    (c.toNat < 0x80 ∧ encodeChar c = [UInt8.ofNat c.toNat]) ∨
    (0x80 ≤ c.toNat ∧ c.toNat < 0x800 ∧
      encodeChar c = [UInt8.ofNat (0xC0 + c.toNat / 64), UInt8.ofNat (0x80 + c.toNat % 64)]) ∨
    (0x800 ≤ c.toNat ∧ c.toNat < 0x10000 ∧
      encodeChar c = [UInt8.ofNat (0xE0 + c.toNat / 4096),
        UInt8.ofNat (0x80 + c.toNat / 64 % 64), UInt8.ofNat (0x80 + c.toNat % 64)]) ∨
    (0x10000 ≤ c.toNat ∧ c.toNat < 0x110000 ∧
      encodeChar c = [UInt8.ofNat (0xF0 + c.toNat / 262144),
        UInt8.ofNat (0x80 + c.toNat / 4096 % 64), UInt8.ofNat (0x80 + c.toNat / 64 % 64),
        UInt8.ofNat (0x80 + c.toNat % 64)]) := by
  have range := code_range c
  unfold encodeChar
  by_cases one : c.toNat < 0x80
  · exact .inl ⟨one, if_pos one⟩
  by_cases two : c.toNat < 0x800
  · exact .inr (.inl ⟨by omega, two, by simp only [one, two, if_true, if_false]⟩)
  by_cases three : c.toNat < 0x10000
  · exact .inr (.inr (.inl ⟨by omega, three, by simp only [one, two, three, if_true, if_false]⟩))
  · exact .inr (.inr (.inr ⟨by omega, by omega, by simp only [one, two, three, if_false]⟩))

theorem encodeChar_append_lt {c d : Char} (less : c.toNat < d.toNat) (left right : List UInt8) :
    encodeChar c ++ left < encodeChar d ++ right := by
  -- No character has fewer bytes than a smaller one.
  rcases encodeChar_cases c with ⟨hc, ec⟩ | ⟨hc, hc', ec⟩ | ⟨hc, hc', ec⟩ | ⟨hc, hc', ec⟩ <;>
    rcases encodeChar_cases d with ⟨hd, ed⟩ | ⟨hd, hd', ed⟩ | ⟨hd, hd', ed⟩ | ⟨hd, hd', ed⟩ <;>
    rw [ec, ed] <;>
    simp (disch := omega) only [List.cons_append, List.nil_append, ofNat_cons_lt] <;>
    omega

theorem encodeChar_ne_nil (c : Char) : encodeChar c ≠ [] := by
  rcases encodeChar_cases c with ⟨-, bytes⟩ | ⟨-, -, bytes⟩ | ⟨-, -, bytes⟩ | ⟨-, -, bytes⟩ <;>
    simp [bytes]

theorem flatMap_encodeChar_lt {left right : List Char} (less : left < right) :
    left.flatMap encodeChar < right.flatMap encodeChar := by
  induction less with
  | @nil c rest =>
    obtain ⟨first, others, bytes⟩ := List.exists_cons_of_ne_nil (encodeChar_ne_nil c)
    rw [List.flatMap_nil, List.flatMap_cons, bytes]
    exact List.nil_lt_cons first _
  | @cons c left right _ ih =>
    rw [List.flatMap_cons, List.flatMap_cons]
    exact List.append_left_lt ih
  | @rel c left d right less =>
    rw [List.flatMap_cons, List.flatMap_cons]
    exact encodeChar_append_lt less _ _

/-- The order of the characters of texts is the order of their bytes. -/
theorem encode_lt_encode {left right : String} : encode left < encode right ↔ left < right := by
  constructor
  · intro less
    refine Decidable.byContradiction fun notLess => ?_
    rcases Decidable.em (right = left) with rfl | differ
    · exact List.lt_asymm less less
    · have more : right < left := Std.lt_of_le_of_ne (String.not_lt.1 notLess) differ
      exact List.lt_asymm less (flatMap_encodeChar_lt more)
  · exact fun less => flatMap_encodeChar_lt less

end FuzzBridge.Text
