import FuzzBridge.Text.Blank

/-!
Lengths of time: how they are shown, and how a command line writes them.
-/

namespace FuzzBridge

structure Duration where
  nanoseconds : Nat
  deriving DecidableEq, Repr

namespace Duration

def ofMilliseconds (count : Nat) : Duration := ⟨count * 1000000⟩

/-- Clocks count seconds in signed words of 64 bits, and are some seconds ahead when a time is
added. -/
def isEndless (time : Duration) : Bool :=
  Nat.pow 2 63 - 1000000 ≤ time.nanoseconds / 1000000000

def inUnit (whole fraction places : Nat) (unit : String) : String :=
  let digits := Nat.toDigits 10 fraction
  let padded := List.replicate (places - digits.length) '0' ++ digits
  let kept := (padded.reverse.dropWhile (· = '0')).reverse
  let shown := if fraction = 0 then [] else '.' :: kept
  toString whole ++ String.ofList shown ++ unit

/-- The largest unit of which there is a whole one. -/
def shown (time : Duration) : String :=
  let count := time.nanoseconds
  if 1000000000 ≤ count then inUnit (count / 1000000000) (count % 1000000000) 9 "s"
  else if 1000000 ≤ count then inUnit (count / 1000000) (count % 1000000) 6 "ms"
  else if 1000 ≤ count then inUnit (count / 1000) (count % 1000) 3 "µs"
  else toString count ++ "ns"

def word : Nat := Nat.pow 2 64

def second : Nat := 1000000000

/-- The nanoseconds of a unit; a month is the twelfth part of a year of 365.25 days. -/
def unit? (name : String) : Option Nat :=
  if ["nanos", "nsec", "ns"].contains name then some 1
  else if ["usec", "us", "µs"].contains name then some 1000
  else if ["millis", "msec", "ms"].contains name then some 1000000
  else if ["seconds", "second", "secs", "sec", "s"].contains name then some second
  else if ["minutes", "minute", "min", "mins", "m"].contains name then some (60 * second)
  else if ["hours", "hour", "hr", "hrs", "h"].contains name then some (3600 * second)
  else if ["days", "day", "d"].contains name then some (86400 * second)
  else if ["weeks", "week", "wk", "wks", "w"].contains name then some (7 * 86400 * second)
  else if ["months", "month", "M"].contains name then some (2630016 * second)
  else if ["years", "year", "yr", "yrs", "y"].contains name then some (31557600 * second)
  else none

/-- Why a text is no duration: it is not written like one, or its seconds do not fit a word after
all. -/
inductive Flaw where
  | wrong
  | overflow
  deriving DecidableEq, Repr

structure Amount where
  whole : Nat
  numerator : Nat
  denominator : Nat

def Amount.start (digit : Nat) : Amount := ⟨digit, 0, 1⟩

def ensure (condition : Bool) : Except Flaw Unit :=
  if condition then .ok () else .error .wrong

/-- A total longer by `seconds` and `nanoseconds`, each of which fits a word. Nanoseconds that make
up one second exactly become a second last of all, when it is too late to refuse them. -/
def add (total seconds nanoseconds : Nat) : Except Flaw Nat := do
  let loose := total % second + nanoseconds
  ensure (loose < word)
  let sum := total + seconds * second + nanoseconds
  if sum / second < word then return sum
  else .error (if loose = second && sum = word * second then .overflow else .wrong)

def part? (amount : Amount) (size : Nat) : Except Flaw Nat := do
  let product := amount.numerator * size
  ensure (product < word && product % amount.denominator = 0)
  return product / amount.denominator

/-- A total longer by an amount of a unit. Up to seconds it is counted in nanoseconds, and the
fraction up to minutes; nanoseconds have none. -/
def addSpan (total : Nat) (amount : Amount) (letters : List Char) : Except Flaw Nat := do
  let some size := unit? (String.ofList letters.reverse) | .error .wrong
  let total ← if size < second then do
      ensure (amount.whole * size < word)
      add total 0 (amount.whole * size)
    else do
      ensure (amount.whole * (size / second) < word)
      add total (amount.whole * (size / second)) 0
  if amount.denominator = 1 then return total
  else do
    ensure (size ≠ 1)
    if size ≤ 60 * second then add total 0 (← part? amount size)
    else add total (← part? amount (size / second)) 0

/-- A text of time spans, read up to some character: the spans add up to `total`, and the span that
is being read has an amount and the letters of its unit, last first. -/
inductive Reading where
  | between (total : Nat) (isEmpty : Bool)
  | whole (total : Nat) (amount : Amount)
  | fraction (total : Nat) (amount : Amount)
  | unit (total : Nat) (amount : Amount) (letters : List Char)

def isUnitLetter (c : Char) : Bool :=
  ('a' ≤ c && c ≤ 'z') || ('A' ≤ c && c ≤ 'Z') || c = 'µ'

def digit? (c : Char) : Option Nat :=
  if '0' ≤ c ∧ c ≤ '9' then some (c.toNat - '0'.toNat) else none

def Amount.lengthen (amount : Amount) (digit : Nat) : Except Flaw Amount := do
  let numerator := amount.numerator * 10 + digit
  let denominator := amount.denominator * 10
  ensure (numerator < word && denominator < word)
  return { amount with numerator, denominator }

def Reading.feed (reading : Reading) (c : Char) : Except Flaw Reading :=
  match reading, digit? c with
  | .between total _, some digit => .ok (.whole total (.start digit))
  | .between total isEmpty, none =>
    if Text.isBlank c then .ok (.between total isEmpty) else .error .wrong
  | .whole total amount, some digit => do
    let whole := amount.whole * 10 + digit
    ensure (whole < word)
    return .whole total { amount with whole }
  | .whole total amount, none =>
    if Text.isBlank c then .ok (.whole total amount)
    else if isUnitLetter c then .ok (.unit total amount [c])
    else if c = '.' then .ok (.fraction total amount)
    else .error .wrong
  | .fraction total amount, some digit => return .fraction total (← amount.lengthen digit)
  | .fraction total amount, none =>
    if Text.isBlank c then .ok (.fraction total amount)
    else if isUnitLetter c ∧ amount.denominator ≠ 1 then .ok (.unit total amount [c])
    else .error .wrong
  | .unit total amount letters, some digit => do
    return .whole (← addSpan total amount letters) (.start digit)
  | .unit total amount letters, none =>
    if Text.isBlank c then do return .between (← addSpan total amount letters) false
    else if isUnitLetter c then .ok (.unit total amount (c :: letters))
    else .error .wrong

def Reading.finish : Reading → Except Flaw Nat
  | .between total isEmpty => if isEmpty then .error .wrong else .ok total
  | .unit total amount letters => addSpan total amount letters
  | .whole .. | .fraction .. => .error .wrong

/-- Spans such as `2m 3s`, each a number and a unit. -/
def parse (text : String) : Except Flaw Duration :=
  if text = "0" then .ok ⟨0⟩
  else do
    let reading ← text.toList.foldlM Reading.feed (.between 0 true)
    return ⟨← reading.finish⟩

def parse? (text : String) : Option Duration := (parse text).toOption

example : (parse? "2m 3s").map shown = some "123s" := by decide +kernel

end Duration

end FuzzBridge
