/-!
UTF-8. Decoding keeps one mark for each run of bytes that begins a character and does not finish
it, so that a reader can tell a sound text from a damaged one and still go on.
-/

namespace FuzzBridge.Text

/-- A text as bytes hold it: characters, and `none` where the bytes are no character. -/
abbrev Decoded := List (Option Char)

/-- The number of bytes that follow a first byte, and the range of the next one. -/
def sequenceAfter (byte : Nat) : Option (Nat × Nat × Nat) :=
  if byte < 0xC2 then none
  else if byte < 0xE0 then some (1, 0x80, 0xBF)
  else if byte = 0xE0 then some (2, 0xA0, 0xBF)
  else if byte = 0xED then some (2, 0x80, 0x9F)
  else if byte < 0xF0 then some (2, 0x80, 0xBF)
  else if byte = 0xF0 then some (3, 0x90, 0xBF)
  else if byte < 0xF4 then some (3, 0x80, 0xBF)
  else if byte = 0xF4 then some (3, 0x80, 0x8F)
  else none

def leadBits (count byte : Nat) : Nat :=
  match count with
  | 1 => byte - 0xC0
  | 2 => byte - 0xE0
  | _ => byte - 0xF0

/-- Between characters, or inside one with `count` bytes still to come, the next in a range. -/
inductive Utf8State where
  | between
  | inside (count code low high : Nat)

def decodeFrom : Utf8State → List UInt8 → Decoded
  | .between, [] => []
  | .inside .., [] => [none]
  | .between, byte :: rest =>
    if byte.toNat < 0x80 then some (Char.ofNat byte.toNat) :: decodeFrom .between rest
    else match sequenceAfter byte.toNat with
      | none => none :: decodeFrom .between rest
      | some (count, low, high) =>
        decodeFrom (.inside count (leadBits count byte.toNat) low high) rest
  | .inside count code low high, byte :: rest =>
    if low ≤ byte.toNat && byte.toNat ≤ high then
      if count ≤ 1 then
        some (Char.ofNat (code * 64 + (byte.toNat - 0x80))) :: decodeFrom .between rest
      else decodeFrom (.inside (count - 1) (code * 64 + (byte.toNat - 0x80)) 0x80 0xBF) rest
    else if byte.toNat < 0x80 then
      none :: some (Char.ofNat byte.toNat) :: decodeFrom .between rest
    else match sequenceAfter byte.toNat with
      | none => none :: none :: decodeFrom .between rest
      | some (count, low, high) =>
        none :: decodeFrom (.inside count (leadBits count byte.toNat) low high) rest

def decode (bytes : List UInt8) : Decoded := decodeFrom .between bytes

def ofChars (text : List Char) : Decoded := text.map some

def sound? (text : Decoded) : Option (List Char) := text.mapM id

/-- Each damaged place shows as U+FFFD. -/
def lossy (text : Decoded) : List Char := text.map (·.getD (Char.ofNat 0xFFFD))

def encodeChar (c : Char) : List UInt8 :=
  let code := c.toNat
  if code < 0x80 then [UInt8.ofNat code]
  else if code < 0x800 then [UInt8.ofNat (0xC0 + code / 64), UInt8.ofNat (0x80 + code % 64)]
  else if code < 0x10000 then
    [UInt8.ofNat (0xE0 + code / 4096), UInt8.ofNat (0x80 + code / 64 % 64),
      UInt8.ofNat (0x80 + code % 64)]
  else
    [UInt8.ofNat (0xF0 + code / 262144), UInt8.ofNat (0x80 + code / 4096 % 64),
      UInt8.ofNat (0x80 + code / 64 % 64), UInt8.ofNat (0x80 + code % 64)]

def encode (text : String) : List UInt8 := text.toList.flatMap encodeChar

def ofBytes? (bytes : List UInt8) : Option String := (sound? (decode bytes)).map String.ofList

def ofBytesLossy (bytes : List UInt8) : String := String.ofList (lossy (decode bytes))

example : ofBytes? (encode "aé日😀") = some "aé日😀" := by decide +kernel

example : ofBytes? [0xC3] = none ∧ ofBytes? [0xED, 0xA0, 0x80] = none := by decide +kernel

end FuzzBridge.Text
