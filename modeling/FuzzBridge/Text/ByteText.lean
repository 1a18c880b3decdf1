/-!
Byte strings written as texts of one character per byte, the character of code `n` for the byte `n`.
-/

namespace FuzzBridge.Text

/-- The bytes of a text, or its first character above U+00FF. -/
def bytesOfChars : List Char → Except Char (List UInt8)
  | [] => .ok []
  | c :: rest =>
    if c.toNat < 256 then do return UInt8.ofNat c.toNat :: (← bytesOfChars rest)
    else .error c

def bytesOf (text : String) : Except Char (List UInt8) := bytesOfChars text.toList

def charOfByte (byte : UInt8) : Char := Char.ofNat byte.toNat

def ofByteList (bytes : List UInt8) : String := String.ofList (bytes.map charOfByte)

theorem toNat_charOfByte (byte : UInt8) : (charOfByte byte).toNat = byte.toNat := by
  have := byte.toNat_lt
  unfold charOfByte Char.ofNat
  rw [dif_pos (show Nat.isValidChar byte.toNat from .inl (by omega))]
  rfl

theorem bytesOfChars_map (bytes : List UInt8) :
    bytesOfChars (bytes.map charOfByte) = .ok bytes := by
  induction bytes with
  | nil => rfl
  | cons byte rest ih =>
    have := byte.toNat_lt
    simp only [List.map_cons, bytesOfChars, toNat_charOfByte, ih]
    rw [if_pos (by omega)]
    simp [bind, Except.bind, pure, Except.pure]

theorem bytesOf_ofByteList (bytes : List UInt8) : bytesOf (ofByteList bytes) = .ok bytes := by
  simp [bytesOf, ofByteList, bytesOfChars_map]

end FuzzBridge.Text
