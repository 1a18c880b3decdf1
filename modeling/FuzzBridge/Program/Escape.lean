import FuzzBridge.Number.Literal
import FuzzBridge.Program.Arithmetic

/-!
Backslash escapes and formats in the arguments of the commands that write texts. All characters are
bytes.
-/

namespace FuzzBridge.Program

def isOctal (c : Char) : Bool := '0' ≤ c && c ≤ '7'

def octal (high : Nat) : Nat → List Char → Nat × List Char
  | digits + 1, c :: rest =>
    if isOctal c then octal (high * 8 + (c.toNat - '0'.toNat)) digits rest else (high, c :: rest)
  | _, rest => (high, rest)

/-- What a backslash and the characters after it stand for. A backslash that begins no escape stands
for itself. -/
def escape : List Char → Nat × List Char
  | 'a' :: rest => (7, rest)
  | 'b' :: rest => (8, rest)
  | 't' :: rest => (9, rest)
  | 'n' :: rest => (10, rest)
  | 'v' :: rest => (11, rest)
  | 'f' :: rest => (12, rest)
  | 'r' :: rest => (13, rest)
  | 'e' :: rest => (27, rest)
  | '\\' :: rest => (92, rest)
  | c :: rest => if isOctal c then octal 0 3 (c :: rest) else (92, c :: rest)
  | [] => (92, [])

def byteChar (code : Nat) : Char := Char.ofNat (code % 256)

/-- A text with its escapes taken away, and whether the escape that ends all output is in it. After
a zero, three more octal digits may follow. -/
def unescape : Nat → List Char → List Char × Bool
  | _, [] => ([], false)
  | 0, _ => ([], false)
  | _ + 1, '\\' :: 'c' :: _ => ([], true)
  | rounds + 1, '\\' :: rest =>
    let (code, rest) := match rest with
      | '0' :: rest => octal 0 3 rest
      | rest => escape rest
    let (text, isStopped) := unescape rounds rest
    (byteChar code :: text, isStopped)
  | rounds + 1, c :: rest =>
    let (text, isStopped) := unescape rounds rest
    (c :: text, isStopped)

def decimal? (text : List Char) : Option Nat :=
  if text.isEmpty || !text.all Char.isDigit then none
  else some (text.foldl (fun value c => value * 10 + (c.toNat - '0'.toNat)) 0)

def integer? : List Char → Option Int
  | '-' :: rest => (decimal? rest).map fun value => -(value : Int)
  | '+' :: rest => (decimal? rest).map Int.ofNat
  | text => (decimal? text).map Int.ofNat

structure Layout where
  isLeft : Bool
  hasPlus : Bool
  hasSpace : Bool
  isMarked : Bool
  isPadded : Bool
  width : Nat
  places : Option Nat

namespace Layout

def start : Layout := ⟨false, false, false, false, false, 0, none⟩

/-- Zeros go between the sign and the digits, and blanks around them. -/
def lay (layout : Layout) (isPadded : Bool) (sign text : List Char) : List Char :=
  let missing := layout.width - sign.length - text.length
  if layout.isLeft then sign ++ text ++ List.replicate missing ' '
  else if isPadded then sign ++ List.replicate missing '0' ++ text
  else List.replicate missing ' ' ++ sign ++ text

def text (layout : Layout) (text : List Char) : List Char :=
  layout.lay false [] (match layout.places with
    | some places => text.take places
    | none => text)

/-- The digits of a number: so many at least, and none for a zero of which none are wanted. -/
def digits (layout : Layout) (base value : Nat) : List Char :=
  let digits := if value = 0 && layout.places = some 0 then [] else Nat.toDigits base value
  List.replicate ((layout.places.getD 1) - digits.length) '0' ++ digits

def sign (layout : Layout) (isNegative : Bool) : List Char :=
  if isNegative then ['-'] else if layout.hasPlus then ['+'] else if layout.hasSpace then [' ']
  else []

def signed (layout : Layout) (value : Int) : List Char :=
  layout.lay (layout.isPadded && layout.places.isNone) (layout.sign (value < 0))
    (layout.digits 10 value.natAbs)

def unsigned (layout : Layout) (base : Nat) (mark : List Char) (value : Int) : List Char :=
  let value := (value.emod (Nat.pow 2 64 : Int)).toNat
  let digits := layout.digits base value
  let mark := if !layout.isMarked || value = 0 then []
    else if base = 8 && digits.head? = some '0' then [] else mark
  layout.lay (layout.isPadded && layout.places.isNone) mark digits

def nearest (numerator denominator : Nat) : Nat :=
  let quotient := numerator / denominator
  let twice := 2 * (numerator % denominator)
  if twice < denominator then quotient
  else if denominator < twice then quotient + 1
  else quotient + quotient % 2

def pointed (places digits : Nat) : List Char :=
  let whole := Nat.toDigits 10 (digits / Nat.pow 10 places)
  let fraction := Nat.toDigits 10 (digits % Nat.pow 10 places)
  whole ++ (if places = 0 then []
    else '.' :: List.replicate (places - fraction.length) '0' ++ fraction)

def fixedText (places numerator denominator : Nat) : List Char :=
  pointed places (nearest (numerator * Nat.pow 10 places) denominator)

def scaled (places numerator denominator : Nat) : Nat × Int :=
  if numerator = 0 then (0, 0)
  else
    let reach (exponent : Int) : Nat × Nat :=
      (numerator * Nat.pow 10 (-exponent).toNat, denominator * Nat.pow 10 exponent.toNat)
    let guess : Int := (Nat.toDigits 10 numerator).length - (Nat.toDigits 10 denominator).length
    let exponent := if (reach guess).2 ≤ (reach guess).1 then guess else guess - 1
    let (above, below) := reach exponent
    let digits := nearest (above * Nat.pow 10 places) below
    if digits = Nat.pow 10 (places + 1) then (digits / 10, exponent + 1) else (digits, exponent)

def scientificText (digits : List Char) (exponent : Int) : List Char :=
  let power := Nat.toDigits 10 exponent.natAbs
  digits ++ ['e', if exponent < 0 then '-' else '+'] ++
    List.replicate (2 - power.length) '0' ++ power

def trimmed (text : List Char) : List Char :=
  if text.contains '.' then
    let kept := text.reverse.dropWhile (· = '0')
    (if kept.head? = some '.' then kept.drop 1 else kept).reverse
  else text

def generalText (isMarked : Bool) (places numerator denominator : Nat) : List Char :=
  let places := max 1 places
  let (digits, exponent) := scaled (places - 1) numerator denominator
  let clean (text : List Char) : List Char := if isMarked then text else trimmed text
  if -4 ≤ exponent && exponent < places then
    clean (fixedText (places - 1 - exponent).toNat numerator denominator)
  else scientificText (clean (pointed (places - 1) digits)) exponent

def real (layout : Layout) (kind : Char) (isNegative : Bool) (numerator denominator : Nat) :
    List Char :=
  let places := layout.places.getD 6
  let text := match kind.toLower with
    | 'e' =>
      let (digits, exponent) := scaled places numerator denominator
      scientificText (pointed places digits) exponent
    | 'g' => generalText layout.isMarked places numerator denominator
    | _ => fixedText places numerator denominator
  layout.lay layout.isPadded (layout.sign isNegative)
    (if kind.isUpper then text.map Char.toUpper else text)

end Layout

/-- What is wrong with an argument of a format, or with the format, which then ends. -/
inductive FormatFlaw where
  | notNumber (text : List Char)
  | notWholly (text : List Char)
  | tooLarge (text : List Char)
  | directive (text : List Char)
  | unfinished

def FormatFlaw.message : FormatFlaw → List Char
  | .notNumber text => text ++ ": expected numeric value".toList
  | .notWholly text => text ++ ": not completely converted".toList
  | .tooLarge text => text ++ ": Numerical result out of range".toList
  | .directive text => text ++ ": invalid directive".toList
  | .unfinished => "missing format character".toList

def FormatFlaw.isFatal : FormatFlaw → Bool
  | .directive _ | .unfinished => true
  | _ => false

def leadingNumber (text : List Char) : Int × List Char :=
  let text := text.dropWhile fun c => c = ' ' || c = '\t' || c = '\n'
  let (isNegative, digits) := match text with
    | '-' :: rest => (true, rest)
    | '+' :: rest => (false, rest)
    | rest => (false, rest)
  let (base, digits) := match digits with
    | '0' :: 'x' :: rest | '0' :: 'X' :: rest => (16, rest)
    | '0' :: rest => (8, '0' :: rest)
    | rest => (10, rest)
  let own := digits.takeWhile fun c => (Number.digit? base c).isSome
  let value := own.foldl (fun value c => value * base + (Number.digit? base c).getD 0) 0
  if own.isEmpty then (0, text)
  else (if isNegative then -(value : Int) else value, digits.drop own.length)

/-- The number of an argument: a character after a quote stands for its code. -/
def numberOf (argument : List Char) : Int × Option FormatFlaw :=
  match argument with
  | '"' :: rest | '\'' :: rest => ((rest.head?.map fun c => (c.toNat : Int)).getD 0, none)
  | [] => (0, none)
  | argument =>
    let (value, rest) := leadingNumber argument
    if rest = argument then (0, some (.notNumber argument))
    else if value ≠ Expression.clamp value then (Expression.clamp value, some (.tooLarge argument))
    else (value, if rest.isEmpty then none else some (.notWholly argument))

def fractionOf (argument : List Char) : (Bool × Nat × Nat) × Option FormatFlaw :=
  let (isNegative, text) := match argument with
    | '-' :: rest => (true, rest)
    | '+' :: rest => (false, rest)
    | rest => (false, rest)
  let whole := text.takeWhile Char.isDigit
  let (fraction, rest) := match text.drop whole.length with
    | '.' :: rest =>
      let fraction := rest.takeWhile Char.isDigit
      (fraction, rest.drop fraction.length)
    | rest => ([], rest)
  let (exponent, rest) : Int × List Char := match rest with
    | 'e' :: power | 'E' :: power =>
      let sign := power.takeWhile fun c => c = '-' || c = '+'
      let digits := (power.drop sign.length).takeWhile Char.isDigit
      match integer? (sign ++ digits) with
      | some exponent => (exponent, power.drop (sign.length + digits.length))
      | none => (0, rest)
    | rest => (0, rest)
  let value := (decimal? (whole ++ fraction)).getD 0
  let flaw := if argument.isEmpty then none
    else if (whole ++ fraction).isEmpty then some (.notNumber argument)
    else if !rest.isEmpty then some (.notWholly argument) else none
  let exponent := max (-400) (min 400 exponent)
  ((isNegative, value * Nat.pow 10 exponent.toNat,
    Nat.pow 10 (fraction.length + (-exponent).toNat)), flaw)

def convert (layout : Layout) (kind : Char) (argument : List Char) :
    List Char × Bool × Option FormatFlaw :=
  let (value, flaw) := numberOf argument
  match kind with
  | 's' => (layout.text argument, false, none)
  | 'b' =>
    let (text, isStopped) := unescape argument.length argument
    (layout.text text, isStopped, none)
  | 'c' => (layout.lay false [] (argument.take 1), false, none)
  | 'd' | 'i' => (layout.signed value, false, flaw)
  | 'u' => (layout.unsigned 10 [] value, false, flaw)
  | 'o' => (layout.unsigned 8 ['0'] value, false, flaw)
  | 'x' => (layout.unsigned 16 ['0', 'x'] value, false, flaw)
  | 'X' => ((layout.unsigned 16 ['0', 'x'] value).map Char.toUpper, false, flaw)
  | _ =>
    let ((isNegative, numerator, denominator), flaw) := fractionOf argument
    (layout.real kind isNegative numerator denominator, false, flaw)

def isConversion (c : Char) : Bool :=
  ['s', 'b', 'c', 'd', 'i', 'u', 'o', 'x', 'X', 'f', 'F', 'e', 'E', 'g', 'G'].contains c

/-- Reads the layout of a conversion. A star takes a number from the arguments. -/
def readLayout : Nat → Layout → List Char → List (List Char) →
    Layout × List Char × List (List Char)
  | 0, layout, text, arguments => (layout, text, arguments)
  | rounds + 1, layout, text, arguments => match text with
    | '-' :: rest => readLayout rounds { layout with isLeft := true } rest arguments
    | '+' :: rest => readLayout rounds { layout with hasPlus := true } rest arguments
    | ' ' :: rest => readLayout rounds { layout with hasSpace := true } rest arguments
    | '#' :: rest => readLayout rounds { layout with isMarked := true } rest arguments
    | '0' :: rest => readLayout rounds { layout with isPadded := true } rest arguments
    | '*' :: rest =>
      let value := (numberOf (arguments.headD [])).1
      readPlaces { layout with isLeft := layout.isLeft || value < 0, width := value.natAbs } rest
        (arguments.drop 1)
    | text =>
      let digits := text.takeWhile Char.isDigit
      readPlaces { layout with width := (decimal? digits).getD 0 } (text.drop digits.length)
        arguments
where
  readPlaces (layout : Layout) (text : List Char) (arguments : List (List Char)) :
      Layout × List Char × List (List Char) :=
    match text with
    | '.' :: '*' :: rest =>
      let value := (numberOf (arguments.headD [])).1
      ({ layout with places := if value < 0 then none else some value.toNat }, rest,
        arguments.drop 1)
    | '.' :: rest =>
      let digits := rest.takeWhile Char.isDigit
      ({ layout with places := some ((decimal? digits).getD 0) }, rest.drop digits.length,
        arguments)
    | text => (layout, text, arguments)

/-- What is left of a format's work: the arguments that it has not used, whether it used any, and
whether no more is to be written. -/
structure Formatted where
  text : List Char
  arguments : List (List Char)
  isUsed : Bool
  isOver : Bool
  flaws : List FormatFlaw

/-- One pass of a format. Arguments that are missing are empty. -/
def formatOnce (arguments : List (List Char)) : Nat → List Char → Formatted
  | _, [] => ⟨[], arguments, false, false, []⟩
  | 0, _ => ⟨[], arguments, false, false, []⟩
  | rounds + 1, '\\' :: rest =>
    let (code, rest) := escape rest
    let done := formatOnce arguments rounds rest
    { done with text := byteChar code :: done.text }
  | rounds + 1, '%' :: '%' :: rest =>
    let done := formatOnce arguments rounds rest
    { done with text := '%' :: done.text }
  | rounds + 1, '%' :: rest =>
    let (layout, rest, left) := readLayout (rest.length + 1) .start rest arguments
    match rest with
    | [] => ⟨[], left, false, true, [.unfinished]⟩
    | kind :: rest =>
      if !isConversion kind then ⟨[], left, false, true, [.directive ['%', kind]]⟩
      else
        let (text, isStopped, flaw) := convert layout kind (left.headD [])
        if isStopped then ⟨text, [], true, true, flaw.toList⟩
        else
          let done := formatOnce (left.drop 1) rounds rest
          { done with
            text := text ++ done.text, isUsed := true, flaws := flaw.toList ++ done.flaws }
  | rounds + 1, c :: rest =>
    let done := formatOnce arguments rounds rest
    { done with text := c :: done.text }

/-- The format is used again while arguments are left. -/
def format (text : List Char) : Nat → List (List Char) → List Char × List FormatFlaw
  | rounds, arguments =>
    let done := formatOnce arguments text.length text
    match rounds with
    | 0 => (done.text, done.flaws)
    | rounds + 1 =>
      if done.arguments.isEmpty || !done.isUsed || done.isOver then (done.text, done.flaws)
      else
        let (more, flaws) := format text rounds done.arguments
        (done.text ++ more, done.flaws ++ flaws)

end FuzzBridge.Program
