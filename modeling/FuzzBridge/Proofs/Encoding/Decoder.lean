import Mathlib.Data.List.Induction
import FuzzBridge.Encoding.Call
import FuzzBridge.Proofs.Solver.CallData

/-!
How call data is decoded. A value of a static type stands in the head of its sequence; a value of a
dynamic type stands elsewhere, and the head has its offset from the start of the sequence. Reading
goes on after what has been read from the head.
-/

namespace FuzzBridge

namespace Decoder

/-- The number in bytes of which the highest comes first. -/
def number (bytes : List UInt8) : Nat :=
  bytes.foldl (fun value byte => value * 256 + byte.toNat) 0

def word (bytes : List UInt8) : Option (Nat × List UInt8) :=
  if 32 ≤ bytes.length then some (number (bytes.take 32), bytes.drop 32) else none

def filled (length : Nat) (bytes : List UInt8) : Option (Datum × List UInt8) :=
  let size := (length + 31) / 32 * 32
  if size ≤ bytes.length ∧ ((bytes.take size).drop length).all (· == 0) then
    some (.bytes (bytes.take length), bytes.drop size)
  else none

def unsigned (bits : Nat) (bytes : List UInt8) : Option (Datum × List UInt8) := do
  let (value, rest) ← word bytes
  if value < Number.wordCount bits then some (.int value, rest) else none

/-- A number whose sign takes one of its `bits` bits. -/
def inRange (bits : Nat) (value : Int) : Option Datum :=
  if -(Number.wordCount bits : Int) ≤ 2 * value ∧ 2 * value < Number.wordCount bits then
    some (.int value)
  else none

def signed (bits : Nat) (bytes : List UInt8) : Option (Datum × List UInt8) := do
  let pattern ← word bytes
  let value ← inRange bits ((pattern.1 : Int).bmod (Number.wordCount 256))
  return (value, pattern.2)

def flag (bytes : List UInt8) : Option (Datum × List UInt8) := do
  let (value, rest) ← word bytes
  if value < 2 then some (.bool (value == 1), rest) else none

/-- An element of a sequence: whether it stands in the head, and how it is read where it stands. -/
structure Slot where
  isDynamic : Bool
  read : List UInt8 → Option (Datum × List UInt8)

def Slot.readFrom (slot : Slot) (start head : List UInt8) : Option (Datum × List UInt8) :=
  if slot.isDynamic then do
    let (offset, rest) ← word head
    let (value, _) ← slot.read (start.drop offset)
    return (value, rest)
  else slot.read head

/-- The elements of a sequence that begins at `start`, with what is left of its head. -/
def sequence (start : List UInt8) : List Slot → List UInt8 → Option (List Datum × List UInt8)
  | [], head => some ([], head)
  | slot :: rest, head => do
    let (value, head) ← slot.readFrom start head
    let (values, head) ← sequence start rest head
    return (value :: values, head)

def elements (slots : List Slot) (bytes : List UInt8) : Option (Datum × List UInt8) := do
  let (values, rest) ← sequence bytes slots bytes
  return (.seq values, rest)

/-! What words read as. -/

theorem number_append (bytes : List UInt8) (byte : UInt8) :
    number (bytes ++ [byte]) = number bytes * 256 + byte.toNat := by
  simp [number]

theorem number_bigEndian (width value : Nat) :
    number (bigEndian width value) = value % Nat.pow 256 width := by
  induction width generalizing value with
  | zero => simp [bigEndian, number, Nat.mod_one]
  | succ width ih =>
    have low : (UInt8.ofNat (value % 256)).toNat = value % 256 := by simp
    have step : Nat.pow 256 (width + 1) = 256 * Nat.pow 256 width := Nat.pow_succ'
    rw [bigEndian, number_append, ih, low, step, Nat.mod_mul]
    omega

theorem bigEndian_number (bytes : List UInt8) :
    bigEndian bytes.length (number bytes) = bytes := by
  induction bytes using List.reverseRecOn with
  | nil => rfl
  | append_singleton bytes byte ih =>
    have lt : byte.toNat < 256 := byte.toNat_lt
    have high : (number bytes * 256 + byte.toNat) / 256 = number bytes := by omega
    have low : (number bytes * 256 + byte.toNat) % 256 = byte.toNat := by omega
    rw [number_append, List.length_append, List.length_singleton, bigEndian, high, low, ih,
      UInt8.ofNat_toNat]

theorem number_lt (bytes : List UInt8) : number bytes < Nat.pow 256 bytes.length := by
  rw [← bigEndian_number bytes, number_bigEndian, bigEndian_number]
  exact Nat.mod_lt _ (Nat.pow_pos (by decide))

theorem word_bigEndian {value : Nat} (lt : value < Number.wordCount 256)
    (rest : List UInt8) : word (bigEndian 32 value ++ rest) = some (value, rest) := by
  have length : (bigEndian 32 value).length = 32 := length_bigEndian 32 value
  rw [word, if_pos (by simp), List.take_left' length, List.drop_left' length, number_bigEndian,
    Nat.mod_eq_of_lt (by rwa [CallData.wordCount_eq (by decide)] at lt)]

theorem unsigned_of_word {bits value : Nat} {bytes rest : List UInt8}
    (read : word bytes = some (value, rest)) (lt : value < Number.wordCount bits) :
    unsigned bits bytes = some (.int value, rest) := by
  rw [unsigned, read, Option.bind_eq_bind, Option.bind_some]
  exact if_pos lt

theorem signed_of_word {bits pattern : Nat} {value : Datum} {bytes rest : List UInt8}
    (read : word bytes = some (pattern, rest))
    (held : inRange bits ((pattern : Int).bmod (Number.wordCount 256)) = some value) :
    signed bits bytes = some (value, rest) := by
  rw [signed, read, Option.bind_eq_bind, Option.bind_some, held]
  rfl

end Decoder

namespace ArgType

mutual

/-- The value of a type at the beginning of some bytes, and what follows it there. -/
def decode : ArgType → List UInt8 → Option (Datum × List UInt8)
  | .uint bits, content => Decoder.unsigned bits.toNat content
  | .int bits, content => Decoder.signed bits.toNat content
  | .address, content => Decoder.unsigned 160 content
  | .bool, content => Decoder.flag content
  | .fixedBytes length, content => Decoder.filled length.toNat content
  | .bytes, content | .string, content => do
    let (length, rest) ← Decoder.word content
    Decoder.filled length rest
  | .fixedArray length element, content =>
    Decoder.elements (List.replicate length.toNat ⟨element.isDynamic, element.decode⟩) content
  | .array element, content => do
    let (length, rest) ← Decoder.word content
    Decoder.elements (List.replicate length ⟨element.isDynamic, element.decode⟩) rest
  | .tuple elements, content => Decoder.elements (slots elements) content
termination_by structural type => type

def slots : List ArgType → List Decoder.Slot
  | [] => []
  | element :: rest => ⟨element.isDynamic, element.decode⟩ :: slots rest
termination_by structural elements => elements

end

def slot (type : ArgType) : Decoder.Slot := ⟨type.isDynamic, type.decode⟩

theorem readFrom_slot_of_dynamic {type : ArgType} (dynamic : type.isDynamic = true)
    {start head rest left : List UInt8} {offset : Nat} {value : Datum}
    (here : Decoder.word head = some (offset, rest))
    (read : type.decode (start.drop offset) = some (value, left)) :
    type.slot.readFrom start head = some (value, rest) := by
  have branch : type.slot.isDynamic = true := dynamic
  have elsewhere : type.slot.read (start.drop offset) = some (value, left) := read
  rw [Decoder.Slot.readFrom, if_pos branch, here, Option.bind_eq_bind, Option.bind_some]
  dsimp only
  rw [elsewhere]
  rfl

theorem readFrom_slot_of_static {type : ArgType} (static : type.isDynamic = false)
    (start head : List UInt8) : type.slot.readFrom start head = type.decode head := by
  have branch : ¬type.slot.isDynamic = true := Bool.eq_false_iff.1 static
  rw [Decoder.Slot.readFrom, if_neg branch]
  rfl

theorem slots_eq (types : List ArgType) : slots types = types.map slot := by
  induction types with
  | nil => rfl
  | cons type rest ih => rw [slots, ih]; rfl

end ArgType

/-- The arguments of a call, after the four bytes that name the function. -/
def decodeCall (types : List ArgType) (bytes : List UInt8) : Option Datum :=
  ((ArgType.tuple types).decode (bytes.drop 4)).map (·.1)

namespace Datum

mutual

/-- The value that a type can hold of a value: integers are reduced to their width. -/
def reduce (type : ArgType) : Datum → Datum
  | .int value => match type with
    | .uint bits => .int (value % Number.wordCount bits.toNat)
    | .int bits => .int (value.bmod (Number.wordCount bits.toNat))
    | _ => .int (value % Number.wordCount 160)
  | .bool value => .bool value
  | .bytes value => .bytes value
  | .seq elements => match type with
    | .fixedArray _ element | .array element =>
      .seq (reduceAll (List.replicate elements.length element) elements)
    | .tuple types => .seq (reduceAll types elements)
    | _ => .seq elements
termination_by structural value => value

def reduceAll (types : List ArgType) : List Datum → List Datum
  | [] => []
  | value :: rest => match types with
    | [] => []
    | type :: types => value.reduce type :: reduceAll types rest
termination_by structural elements => elements

end

mutual

/-- The sequences in a value have lengths that fit a word. -/
def IsCounted : Datum → Prop
  | .seq elements => elements.length < Number.wordCount 256 ∧ AllCounted elements
  | _ => True
termination_by structural value => value

def AllCounted : List Datum → Prop
  | [] => True
  | value :: rest => value.IsCounted ∧ AllCounted rest
termination_by structural elements => elements

end

theorem allCounted_iff {elements : List Datum} :
    AllCounted elements ↔ ∀ element ∈ elements, element.IsCounted := by
  induction elements with
  | nil => simp [AllCounted]
  | cons element rest ih => rw [AllCounted, ih, List.forall_mem_cons]

end Datum

end FuzzBridge
