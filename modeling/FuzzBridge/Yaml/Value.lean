import FuzzBridge.Number.Double
import FuzzBridge.Number.Literal
import FuzzBridge.Text.Utf8

/-!
YAML values, and which value a scalar stands for. A plain scalar may be a null, a truth value or a
number; every other scalar is a text.
-/

namespace FuzzBridge.Yaml

inductive Value where
  | null
  | bool (value : Bool)
  | integer (value : Int)
  | real (value : Number.Double)
  | unbounded (negative : Bool)
  | notNumber
  | text (value : String)
  | list (items : List Value)
  | map (members : List (Value × Value))
  | tagged (tag : String) (value : Value)

namespace Value

instance : Inhabited Value := ⟨.null⟩

def untagged : Value → Value
  | .tagged _ value => value.untagged
  | value => value

def asText? (value : Value) : Option String :=
  match value.untagged with
  | .text content => some content
  | _ => none

def get? (value : Value) (key : String) : Option Value :=
  match value.untagged with
  | .map members => (members.find? fun member => match member.1 with
    | .text name => name = key
    | _ => false).map (·.2)
  | _ => none

def truth? (text : String) : Option Bool :=
  if ["true", "True", "TRUE"].contains text then some true
  else if ["false", "False", "FALSE"].contains text then some false
  else none

def isNull (text : String) : Bool := ["null", "Null", "NULL", "~"].contains text

def dropSign : List Char → List Char
  | '+' :: rest | '-' :: rest => rest
  | digits => digits

/-- Digits that begin with a zero and go on are no number. -/
def isZeroPadded (text : List Char) : Bool :=
  match dropSign text with
  | '0' :: c :: rest => (c :: rest).all Char.isDigit
  | _ => false

def digits? (base : Nat) (text : List Char) : Option Nat :=
  if text.isEmpty then none
  else text.foldlM (fun value c => (Number.digit? base c).map (value * base + ·)) 0

def magnitude? : List Char → Option Nat
  | '0' :: 'x' :: rest => digits? 16 rest
  | '0' :: 'o' :: rest => digits? 8 rest
  | '0' :: 'b' :: rest => digits? 2 rest
  | digits => if isZeroPadded digits then none else digits? 10 digits

def integer? : List Char → Option Int
  | '-' :: rest => (magnitude? rest).map fun value => -(value : Int)
  | '+' :: rest => (magnitude? rest).map Int.ofNat
  | digits => (magnitude? digits).map Int.ofNat

def exponent? : List Char → Option Int
  | '-' :: rest => (digits? 10 rest).map fun value => -(value : Int)
  | '+' :: rest => (digits? 10 rest).map Int.ofNat
  | rest => (digits? 10 rest).map Int.ofNat

/-- The double nearest to a decimal, unless it is too large for one. No decimal of so few digits is
anything but zero or too large outside a thousand powers of ten around them. -/
def ofDecimal? (negative : Bool) (significand digits : Nat) (exponent : Int) :
    Option Number.Double :=
  if significand = 0 then some (.zero negative)
  else if 1000 < exponent then none
  else if exponent < -1000 - (digits : Int) then some (.zero negative)
  else if 0 ≤ exponent then
    Number.Double.ofQuotient? negative (significand * Nat.pow 10 exponent.toNat) 1
  else Number.Double.ofQuotient? negative significand (Nat.pow 10 (-exponent).toNat)

def isMantissaEnd (c : Char) : Bool := c = 'e' || c = 'E'

def unsignedReal? (negative : Bool) (text : List Char) : Option Number.Double := do
  let mantissa := text.takeWhile (!isMantissaEnd ·)
  let whole := mantissa.takeWhile (· ≠ '.')
  let fraction := (mantissa.dropWhile (· ≠ '.')).drop 1
  let significand ← digits? 10 (whole ++ fraction)
  let exponent ← match text.dropWhile (!isMantissaEnd ·) with
    | _ :: rest => exponent? rest
    | [] => some 0
  ofDecimal? negative significand (whole ++ fraction).length (exponent - fraction.length)

def real? (text : List Char) : Option Number.Double :=
  match text with
  | '-' :: rest => unsignedReal? true rest
  | '+' :: rest => unsignedReal? false rest
  | rest => unsignedReal? false rest

def special? (text : String) : Option Value :=
  if [".inf", ".Inf", ".INF", "+.inf", "+.Inf", "+.INF"].contains text then some (.unbounded false)
  else if ["-.inf", "-.Inf", "-.INF"].contains text then some (.unbounded true)
  else if [".nan", ".NaN", ".NAN"].contains text then some .notNumber
  else none

def isWord (value : Int) : Bool := -(Nat.pow 2 63 : Int) ≤ value && value < (Nat.pow 2 64 : Int)

def isDoubleWord (value : Int) : Bool :=
  -(Nat.pow 2 127 : Int) ≤ value && value < (Nat.pow 2 128 : Int)

def ofReal (text : String) : Option Value :=
  match special? text with
  | some value => some value
  | none => (real? text.toList).map .real

/-- A number by its text. Integers of more than one word and at most two are refused. -/
def ofNumber (text : String) : Option (Option Value) :=
  match integer? text.toList with
  | some value =>
    if isWord value then some (some (.integer value))
    else if isDoubleWord value then none
    else some (ofReal text)
  | none => some (if isZeroPadded text.toList then none else ofReal text)

def ofPlain (text : String) : Option Value :=
  if text = "" || isNull text then some .null
  else match truth? text with
    | some value => some (.bool value)
    | none => (ofNumber text).map (·.getD (.text text))

def ofScalar (text : String) (isPlain : Bool) : Option Value :=
  if isPlain then ofPlain text else some (.text text)

/-- The name of a tag that is kept with its value: it begins with a mark, which is not the name
unless it stands alone. -/
def tagName? : List UInt8 → Option String
  | 0x21 :: rest => Text.ofBytes? (if rest.isEmpty then [0x21] else rest)
  | _ => none

def coreTag (name : String) : List UInt8 := Text.encode ("tag:yaml.org,2002:" ++ name)

/-- The value of a scalar with another tag. A tag of the core schema has to suit the text, and one
that begins with a mark says nothing. -/
def ofCore (tag : List UInt8) (text : String) (isPlain : Bool) : Option Value :=
  if tag.head? = some 0x21 then ofScalar text isPlain
  else if tag = coreTag "bool" then (truth? text).map .bool
  else if tag = coreTag "int" then
    match integer? text.toList with
    | some value => if isWord value then some (.integer value) else none
    | none => none
  else if tag = coreTag "float" then ofReal text
  else if tag = coreTag "null" then if isNull text then some .null else none
  else some (.text text)

def bareTag (tag : String) : String :=
  match tag.toList with
  | '!' :: c :: rest => String.ofList (c :: rest)
  | _ => tag

def sameReal (left right : Number.Double) : Bool := left = right || (left.isZero && right.isZero)

mutual

/-- Whether two values are the same. The order of the members of a mapping does not count, nor the
sign of zero. -/

def same : Value → Value → Bool
  | .null, .null => true
  | .bool left, .bool right => left = right
  | .integer left, .integer right => left = right
  | .real left, .real right => sameReal left right
  | .unbounded left, .unbounded right => left = right
  | .notNumber, .notNumber => true
  | .text left, .text right => left = right
  | .list left, .list right => sameItems left right
  | .map left, .map right => left.length = right.length && sameMembers left right
  | .tagged tag left, .tagged other right => bareTag tag = bareTag other && same left right
  | _, _ => false
termination_by structural left => left

def sameItems : List Value → List Value → Bool
  | [], [] => true
  | left :: lefts, right :: rights => same left right && sameItems lefts rights
  | _, _ => false
termination_by structural left => left


def sameMembers : List (Value × Value) → List (Value × Value) → Bool
  | [], _ => true
  | member :: rest, others =>
    (others.any fun other => sameMember member other) && sameMembers rest others
termination_by structural left => left

def sameMember : Value × Value → Value × Value → Bool
  | (key, value), other => same key other.1 && same value other.2
termination_by structural left => left

end

def hasDistinctKeys : List (Value × Value) → Bool
  | [] => true
  | (key, _) :: rest => !(rest.any fun member => same key member.1) && hasDistinctKeys rest

end Value

end FuzzBridge.Yaml
