/-!
Argument values without their types: an integer has no width or sign, a byte string no kind.
-/

namespace FuzzBridge

inductive Datum where
  | int (value : Int)
  | bool (value : Bool)
  | bytes (value : List UInt8)
  | seq (elements : List Datum)

namespace Datum

def decimal (value : Int) : List Char :=
  match value with
  | .ofNat magnitude => Nat.toDigits 10 magnitude
  | .negSucc magnitude => '-' :: Nat.toDigits 10 (magnitude + 1)

def listed : List (List Char) → List Char
  | [] => ['[', ']']
  | first :: rest => '[' :: first ++ rest.flatMap (fun part => ',' :: ' ' :: part) ++ [']']

mutual

/-- The form in which messages show a value: the kind of value, and what it holds in parentheses. -/
def chars : Datum → List Char
  | .int value => ['I', 'n', 't', '('] ++ decimal value ++ [')']
  | .bool true => ['B', 'o', 'o', 'l', '(', 't', 'r', 'u', 'e', ')']
  | .bool false => ['B', 'o', 'o', 'l', '(', 'f', 'a', 'l', 's', 'e', ')']
  | .bytes value =>
    ['B', 'y', 't', 'e', 's', '('] ++ listed (value.map fun byte => Nat.toDigits 10 byte.toNat) ++
      [')']
  | .seq elements => ['S', 'e', 'q', '('] ++ listed (listChars elements) ++ [')']
termination_by structural value => value

def listChars : List Datum → List (List Char)
  | [] => []
  | element :: rest => element.chars :: listChars rest
termination_by structural elements => elements

end

def shown (value : Datum) : String := String.ofList value.chars

end Datum

end FuzzBridge
