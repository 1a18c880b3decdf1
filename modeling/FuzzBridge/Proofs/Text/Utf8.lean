import FuzzBridge.Text.Utf8

/-!
The bytes of a text decode to its characters, none of them damaged.
-/

namespace FuzzBridge.Text

variable {rest : List UInt8}

theorem leadBits_one (byte : Nat) : leadBits 1 byte = byte - 0xC0 := rfl

theorem leadBits_two (byte : Nat) : leadBits 2 byte = byte - 0xE0 := rfl

theorem leadBits_three (byte : Nat) : leadBits 3 byte = byte - 0xF0 := rfl

theorem decodeFrom_lead {byte count low high : Nat} (small : byte < 256)
    (after : sequenceAfter byte = some (count, low, high)) :
    decodeFrom .between (UInt8.ofNat byte :: rest) =
      decodeFrom (.inside count (leadBits count byte) low high) rest := by
  have large : ¬ byte < 0x80 := by
    intro ascii
    have below : byte < 0xC2 := by omega
    simp [sequenceAfter, below] at after
  have toNat : (UInt8.ofNat byte).toNat = byte := UInt8.toNat_ofNat_of_lt' small
  simp only [decodeFrom, toNat, if_neg large, after]

theorem decodeFrom_follow {count code low high byte : Nat} (atLeast : low ≤ byte)
    (atMost : byte ≤ high) (small : byte < 256) (more : 1 < count) :
    decodeFrom (.inside count code low high) (UInt8.ofNat byte :: rest) =
      decodeFrom (.inside (count - 1) (code * 64 + (byte - 0x80)) 0x80 0xBF) rest := by
  have toNat : (UInt8.ofNat byte).toNat = byte := UInt8.toNat_ofNat_of_lt' small
  simp [decodeFrom, toNat, atLeast, atMost, Nat.not_le.2 more]

theorem decodeFrom_last {code low high byte : Nat} (atLeast : low ≤ byte) (atMost : byte ≤ high)
    (small : byte < 256) {c : Char} (value : code * 64 + (byte - 0x80) = c.toNat) :
    decodeFrom (.inside 1 code low high) (UInt8.ofNat byte :: rest) =
      some c :: decodeFrom .between rest := by
  have toNat : (UInt8.ofNat byte).toNat = byte := UInt8.toNat_ofNat_of_lt' small
  simp [decodeFrom, toNat, atLeast, atMost, value, Char.ofNat_toNat]

theorem code_range (c : Char) :
    c.toNat < 0xD800 ∨ (0xDFFF < c.toNat ∧ c.toNat < 0x110000) := c.valid

theorem sequenceAfter_three (code : Nat) (atLeast : 0x800 ≤ code) (atMost : code < 0x10000)
    (plain : code < 0xD800 ∨ 0xDFFF < code) :
    ∃ low high, sequenceAfter (0xE0 + code / 4096) = some (2, low, high) ∧
      low ≤ 0x80 + code / 64 % 64 ∧ 0x80 + code / 64 % 64 ≤ high := by
  unfold sequenceAfter
  rw [if_neg (by omega), if_neg (by omega)]
  split
  · exact ⟨_, _, rfl, by omega, by omega⟩
  · split
    · exact ⟨_, _, rfl, by omega, by omega⟩
    · rw [if_pos (by omega)]
      exact ⟨_, _, rfl, by omega, by omega⟩

theorem sequenceAfter_four (code : Nat) (atLeast : 0x10000 ≤ code) (atMost : code < 0x110000) :
    ∃ low high, sequenceAfter (0xF0 + code / 262144) = some (3, low, high) ∧
      low ≤ 0x80 + code / 4096 % 64 ∧ 0x80 + code / 4096 % 64 ≤ high := by
  unfold sequenceAfter
  rw [if_neg (by omega), if_neg (by omega), if_neg (by omega), if_neg (by omega),
    if_neg (by omega)]
  split
  · exact ⟨_, _, rfl, by omega, by omega⟩
  · split
    · exact ⟨_, _, rfl, by omega, by omega⟩
    · rw [if_pos (by omega)]
      exact ⟨_, _, rfl, by omega, by omega⟩

theorem decodeFrom_encodeChar (c : Char) :
    decodeFrom .between (encodeChar c ++ rest) = some c :: decodeFrom .between rest := by
  have range := code_range c
  simp only [encodeChar]
  split
  · next one =>
    have toNat : (UInt8.ofNat c.toNat).toNat = c.toNat :=
      UInt8.toNat_ofNat_of_lt' (Nat.lt_trans one (by decide))
    simp [decodeFrom, toNat, one, Char.ofNat_toNat]
  split
  · next two =>
    have after : sequenceAfter (0xC0 + c.toNat / 64) = some (1, 0x80, 0xBF) := by
      unfold sequenceAfter
      rw [if_neg (by omega), if_pos (by omega)]
    rw [List.cons_append, decodeFrom_lead (by omega) after]
    exact decodeFrom_last (by omega) (by omega) (by omega) (by rw [leadBits_one]; omega)
  split
  · next three =>
    obtain ⟨low, high, after, atLeast, atMost⟩ :=
      sequenceAfter_three c.toNat (by omega) three (by omega)
    rw [List.cons_append, decodeFrom_lead (by omega) after, List.cons_append,
      decodeFrom_follow atLeast atMost (by omega) (by omega)]
    exact decodeFrom_last (by omega) (by omega) (by omega) (by rw [leadBits_two]; omega)
  · next four =>
    obtain ⟨low, high, after, atLeast, atMost⟩ :=
      sequenceAfter_four c.toNat (by omega) (by omega)
    rw [List.cons_append, decodeFrom_lead (by omega) after, List.cons_append,
      decodeFrom_follow atLeast atMost (by omega) (by omega), List.cons_append,
      decodeFrom_follow (by omega) (by omega) (by omega) (by omega)]
    exact decodeFrom_last (by omega) (by omega) (by omega) (by rw [leadBits_three]; omega)

@[simp] theorem decode_encode (text : String) : decode (encode text) = ofChars text.toList := by
  unfold decode encode ofChars
  induction text.toList with
  | nil => rfl
  | cons c rest ih => rw [List.flatMap_cons, decodeFrom_encodeChar, ih, List.map_cons]

end FuzzBridge.Text
