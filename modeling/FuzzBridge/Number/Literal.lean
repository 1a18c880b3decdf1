import FuzzBridge.Text.Blank

/-!
Integers as texts. A literal has one optional sign and digits; underscores may stand between and
after the digits. Hexadecimal literals may carry a base mark and may have no digit at all; decimal
ones are trimmed and may be negative.
-/

namespace FuzzBridge.Number

/-- Letters count up from ten, in either case. -/
def digit? (base : Nat) (c : Char) : Option Nat :=
  let value :=
    if '0' ≤ c ∧ c ≤ '9' then c.toNat - '0'.toNat
    else if 'a' ≤ c ∧ c ≤ 'z' then c.toNat - 'a'.toNat + 10
    else if 'A' ≤ c ∧ c ≤ 'Z' then c.toNat - 'A'.toNat + 10
    else base
  if value < base then some value else none

/-- The value of `text` read after digits of value `high`; underscores count for nothing. -/
def digitsFrom? (base : Nat) : Nat → List Char → Option Nat
  | high, [] => some high
  | high, c :: rest =>
    if c = '_' then digitsFrom? base high rest
    else match digit? base c with
      | some value => digitsFrom? base (high * base + value) rest
      | none => none

/-- A plus sign is dropped, unless another follows it. -/
def dropPlus : List Char → List Char
  | '+' :: '+' :: rest => '+' :: '+' :: rest
  | '+' :: rest => rest
  | text => text

def natural? (base : Nat) (text : List Char) : Option Nat :=
  match dropPlus text with
  | [] => none
  | c :: rest => if c = '_' then none else digitsFrom? base 0 (c :: rest)

/-- A minus sign is dropped, unless a plus sign follows it. -/
def integer? (base : Nat) : List Char → Option Int
  | '-' :: '+' :: _ => none
  | '-' :: rest => (natural? base rest).map fun value => -(value : Int)
  | text => (natural? base text).map Int.ofNat

def dropBaseMark : List Char → List Char
  | '0' :: 'x' :: rest => rest
  | '0' :: 'X' :: rest => rest
  | text => text

def ofHex? (text : String) : Option Nat :=
  match dropBaseMark text.toList with
  | [] => some 0
  | digits => natural? 16 digits

def ofDecimal? (text : String) : Option Int := integer? 10 (Text.trim text.toList)

def hexDigits (value : Nat) : List Char := Nat.toDigits 16 value

def toHex (value : Nat) : String := String.ofList ('0' :: 'x' :: hexDigits value)

def padLeft (width : Nat) (c : Char) (text : List Char) : List Char :=
  List.replicate (width - text.length) c ++ text

/-- Forty hexadecimal digits: the low 160 bits. -/
def toAddress (value : Nat) : String :=
  String.ofList ('0' :: 'x' :: padLeft 40 '0' (hexDigits (value % Nat.pow 2 160)))

def bytesToHex (bytes : List UInt8) : String :=
  String.ofList (bytes.flatMap fun byte => padLeft 2 '0' (hexDigits byte.toNat))

end FuzzBridge.Number
