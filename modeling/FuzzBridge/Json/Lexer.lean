import FuzzBridge.Json.Numeral
import FuzzBridge.Number.Literal
import FuzzBridge.Text.Utf8

/-!
The tokens of a JSON text, read by a machine that takes one character at a time. The token list of a
text ends at its first lexical fault, with an `illegal` token. A quoted text that is no sequence of
characters, and a numeral beyond the doubles, are tokens without a content.
-/

namespace FuzzBridge.Json

inductive Token where
  | braceOpen | braceClose | bracketOpen | bracketClose | comma | colon
  | null
  | bool (value : Bool)
  | number (value : Option Numeral)
  | text (value : Option String)
  | illegal
  deriving DecidableEq

inductive TextPhase where
  | plain
  | escape
  | code (count value : Nat)

/-- A quoted text so far: its characters, last first, and the first half of a surrogate pair whose
second half has to come next. -/
structure TextState where
  chars : List Char
  sound : Bool
  high : Option Nat
  phase : TextPhase

inductive NumberPhase where
  | sign | zero | whole | point | fraction | mark | markSign | power
  deriving DecidableEq

structure NumberState where
  phase : NumberPhase
  negative : Bool
  whole : List Char
  fraction : List Char
  power : List Char
  powerNegative : Bool

inductive Mode where
  | gap
  | word (rest : List Char) (token : Token)
  | number (state : NumberState)
  | text (state : TextState)
  | stuck

def TextState.start : TextState := ⟨[], true, none, .plain⟩

/-- A character that is not the second half of a pair; a first half before it stays alone. -/
def TextState.push (state : TextState) (c : Char) : TextState :=
  { chars := c :: state.chars, sound := state.sound && state.high.isNone, high := none,
    phase := .plain }

def TextState.damage (state : TextState) : TextState :=
  { state with sound := false, high := none, phase := .plain }

def TextState.pushCode (state : TextState) (code : Nat) : TextState :=
  if 0xDC00 ≤ code ∧ code ≤ 0xDFFF then
    match state.high with
    | some high =>
      { state with
        chars := Char.ofNat (0x10000 + (high - 0xD800) * 0x400 + (code - 0xDC00)) :: state.chars
        high := none, phase := .plain }
    | none => state.damage
  else if 0xD800 ≤ code ∧ code ≤ 0xDBFF then
    { state with sound := state.sound && state.high.isNone, high := some code, phase := .plain }
  else state.push (Char.ofNat code)

def TextState.token (state : TextState) : Token :=
  .text (if state.sound ∧ state.high.isNone then some (String.ofList state.chars.reverse) else none)

def escaped? (c : Char) : Option Char :=
  if c = '"' ∨ c = '\\' ∨ c = '/' then some c
  else if c = 'b' then some (Char.ofNat 8)
  else if c = 'f' then some (Char.ofNat 12)
  else if c = 'n' then some '\n'
  else if c = 'r' then some '\r'
  else if c = 't' then some '\t'
  else none

def NumberState.start (negative : Bool) (phase : NumberPhase) (whole : List Char) : NumberState :=
  ⟨phase, negative, whole, [], [], false⟩

def isDigit (c : Char) : Bool := '0' ≤ c && c ≤ '9'

/-- The numeral longer by `c`; `none` if `c` does not belong to it. -/
def NumberState.feed? (state : NumberState) (c : Char) : Option NumberState :=
  let toWhole := { state with whole := c :: state.whole }
  let toFraction := { state with fraction := c :: state.fraction, phase := .fraction }
  let toPower := { state with power := c :: state.power, phase := .power }
  let isMark := c = 'e' ∨ c = 'E'
  match state.phase with
  | .sign => if c = '0' then some { toWhole with phase := .zero }
    else if isDigit c then some { toWhole with phase := .whole } else none
  | .zero => if c = '.' then some { state with phase := .point }
    else if isMark then some { state with phase := .mark } else none
  | .whole => if isDigit c then some toWhole
    else if c = '.' then some { state with phase := .point }
    else if isMark then some { state with phase := .mark } else none
  | .point => if isDigit c then some toFraction else none
  | .fraction => if isDigit c then some toFraction
    else if isMark then some { state with phase := .mark } else none
  | .mark => if c = '+' then some { state with phase := .markSign }
    else if c = '-' then some { state with phase := .markSign, powerNegative := true }
    else if isDigit c then some toPower else none
  | .markSign => if isDigit c then some toPower else none
  | .power => if isDigit c then some toPower else none

/-- A numeral may end after a digit. -/
def NumberState.token (state : NumberState) : Token :=
  let number (fraction : Option (List Char)) (exponent : Option (Bool × List Char)) : Token :=
    .number (Numeral.ofParts? ⟨state.negative, state.whole.reverse, fraction, exponent⟩)
  let fraction := if state.fraction.isEmpty then none else some state.fraction.reverse
  match state.phase with
  | .zero | .whole => number none none
  | .fraction => number fraction none
  | .power => number fraction (some (state.powerNegative, state.power.reverse))
  | .sign | .point | .mark | .markSign => .illegal

structure Lexer where
  tokens : List Token
  mode : Mode

namespace Lexer

def start : Lexer := ⟨[], .gap⟩

def emit (lexer : Lexer) (token : Token) : Lexer :=
  ⟨token :: lexer.tokens, if token = .illegal then .stuck else .gap⟩

def illegal (lexer : Lexer) : Lexer := lexer.emit .illegal

def isSpace (c : Char) : Bool := c = ' ' || c = '\n' || c = '\t' || c = '\r'

def feedGap (lexer : Lexer) (c : Char) : Lexer :=
  if isSpace c then lexer
  else if c = '{' then lexer.emit .braceOpen
  else if c = '}' then lexer.emit .braceClose
  else if c = '[' then lexer.emit .bracketOpen
  else if c = ']' then lexer.emit .bracketClose
  else if c = ',' then lexer.emit .comma
  else if c = ':' then lexer.emit .colon
  else if c = '"' then { lexer with mode := .text .start }
  else if c = 'n' then { lexer with mode := .word ['u', 'l', 'l'] .null }
  else if c = 't' then { lexer with mode := .word ['r', 'u', 'e'] (.bool true) }
  else if c = 'f' then { lexer with mode := .word ['a', 'l', 's', 'e'] (.bool false) }
  else if c = '-' then { lexer with mode := .number (.start true .sign []) }
  else if c = '0' then { lexer with mode := .number (.start false .zero ['0']) }
  else if isDigit c then { lexer with mode := .number (.start false .whole [c]) }
  else lexer.illegal

def feedText (lexer : Lexer) (state : TextState) (c : Char) : Lexer :=
  match state.phase with
  | .plain =>
    if c = '"' then lexer.emit state.token
    else if c = '\\' then { lexer with mode := .text { state with phase := .escape } }
    else if c.toNat < 0x20 then lexer.illegal
    else { lexer with mode := .text (state.push c) }
  | .escape =>
    if c = 'u' then { lexer with mode := .text { state with phase := .code 0 0 } }
    else match escaped? c with
      | some plain => { lexer with mode := .text (state.push plain) }
      | none => lexer.illegal
  | .code count value =>
    match Number.digit? 16 c with
    | none => lexer.illegal
    | some digit =>
      let value := value * 16 + digit
      if count < 3 then { lexer with mode := .text { state with phase := .code (count + 1) value } }
      else { lexer with mode := .text (state.pushCode value) }

def feedChar (lexer : Lexer) (c : Char) : Lexer :=
  match lexer.mode with
  | .gap => lexer.feedGap c
  | .word [] _ => lexer.illegal
  | .word (expected :: rest) token =>
    if c ≠ expected then lexer.illegal
    else if rest.isEmpty then lexer.emit token
    else { lexer with mode := .word rest token }
  | .text state => lexer.feedText state c
  | .number state =>
    match state.feed? c with
    | some longer => { lexer with mode := .number longer }
    | none =>
      if state.token = .illegal ∨ (state.phase = .zero ∧ isDigit c) then lexer.illegal
      else (lexer.emit state.token).feedGap c
  | .stuck => lexer

/-- Bytes that are no character may stand inside a quoted text, which then has no content. A numeral
ends before them. -/
def feed (lexer : Lexer) : Option Char → Lexer
  | some c => lexer.feedChar c
  | none => match lexer.mode with
    | .stuck => lexer
    | .text state => match state.phase with
      | .plain => { lexer with mode := .text state.damage }
      | _ => lexer.illegal
    | .number state =>
      if state.token = .illegal then lexer.illegal else (lexer.emit state.token).illegal
    | _ => lexer.illegal

def finish (lexer : Lexer) : List Token :=
  match lexer.mode with
  | .gap | .stuck => lexer.tokens.reverse
  | .number state => (lexer.emit state.token).tokens.reverse
  | .word .. | .text _ => lexer.illegal.tokens.reverse

end Lexer

def tokens (text : Text.Decoded) : List Token := (text.foldl Lexer.feed .start).finish

end FuzzBridge.Json
