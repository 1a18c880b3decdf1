/-!
Words of a given width: the low bits of a number, and the two's-complement reading of them.
-/

namespace FuzzBridge.Number

def wordCount (bits : Nat) : Nat := Nat.pow 2 bits

def mask (value bits : Nat) : Nat := value % wordCount bits

/-- The low `bits` bits, read as a signed number: the highest of them counts negatively. -/
def toSigned (value bits : Nat) : Int :=
  let low := mask value bits
  if 0 < bits ∧ low.testBit (bits - 1) then (low : Int) - wordCount bits else low

def toPattern (value : Int) (bits : Nat) : Nat := (value % wordCount bits).toNat

def isTrue (value : Nat) : Bool := value != 0

def unsigned? (value : Int) : Option Nat := if 0 ≤ value then some value.toNat else none

theorem wordCount_pos (bits : Nat) : 0 < wordCount bits := Nat.two_pow_pos bits

theorem mask_lt (value bits : Nat) : mask value bits < wordCount bits :=
  Nat.mod_lt _ (wordCount_pos bits)

@[simp] theorem mask_mask (value bits : Nat) : mask (mask value bits) bits = mask value bits :=
  Nat.mod_mod _ _

theorem mask_of_lt {value bits : Nat} (h : value < wordCount bits) : mask value bits = value :=
  Nat.mod_eq_of_lt h

theorem toPattern_lt (value : Int) (bits : Nat) : toPattern value bits < wordCount bits := by
  have positive : (0 : Int) < wordCount bits := Int.natCast_pos.2 (wordCount_pos bits)
  have := Int.emod_lt_of_pos value positive
  have := Int.emod_nonneg value (Int.ne_of_gt positive)
  simp only [toPattern]
  omega

end FuzzBridge.Number
