/-!
Patterns of names: a star stands for any text, a question mark for a character, and brackets for a
character of a set. What is quoted stands for itself.
-/

namespace FuzzBridge.Program

abbrev Marked := Bool × Char

structure CharSet where
  isNegated : Bool
  runs : List (Char × Char)
  classes : List String
  deriving DecidableEq

namespace CharSet

def isPunctuation (c : Char) : Bool := 33 ≤ c.toNat && c.toNat ≤ 126 && !c.isAlphanum

def isIn (c : Char) : String → Bool
  | "alpha" => c.isAlpha
  | "digit" => c.isDigit
  | "alnum" => c.isAlphanum
  | "upper" => c.isUpper
  | "lower" => c.isLower
  | "space" => c = ' ' || (9 ≤ c.toNat && c.toNat ≤ 13)
  | "blank" => c = ' ' || c = '\t'
  | "punct" => isPunctuation c
  | "print" => 32 ≤ c.toNat && c.toNat ≤ 126
  | "graph" => 33 ≤ c.toNat && c.toNat ≤ 126
  | "cntrl" => c.toNat < 32 || c.toNat = 127
  | "xdigit" => c.isDigit || ('a' ≤ c && c ≤ 'f') || ('A' ≤ c && c ≤ 'F')
  | _ => false

def contains (set : CharSet) (c : Char) : Bool :=
  (set.runs.any (fun run => run.1 ≤ c && c ≤ run.2) || set.classes.any (isIn c)) != set.isNegated

/-- Reads the members of a set up to the bracket that closes it, which comes first only as a member.
`escapes` tells whether a backslash protects the character after it. -/
def readMembers (escapes : Bool) : Nat → Bool → List Marked → Option (CharSet × List Marked)
  | 0, _, _ => none
  | _, _, [] => none
  | rounds + 1, isFirst, (quoted, c) :: rest =>
    if c = ']' && !quoted && !isFirst then some (⟨false, [], []⟩, rest)
    else if c = '[' && !quoted && rest.head? = some (false, ':') then do
      let name := (rest.drop 1).takeWhile fun mark => mark.2.isLower
      match (rest.drop 1).drop name.length with
      | (_, ':') :: (_, ']') :: rest =>
        let (set, rest) ← readMembers escapes rounds false rest
        return ({ set with classes := String.ofList (name.map (·.2)) :: set.classes }, rest)
      | _ => addRun rounds c rest
    else if escapes && c = '\\' && !quoted then
      match rest with
      | (_, next) :: rest => addRun rounds next rest
      | [] => none
    else addRun rounds c rest
where
  /-- A member, or a run of members from it on. -/
  addRun (rounds : Nat) (c : Char) (rest : List Marked) : Option (CharSet × List Marked) := do
    match rest with
    | (false, '-') :: (quoted, last) :: more =>
      if last = ']' && !quoted then
        let (set, rest) ← readMembers escapes rounds false rest
        return ({ set with runs := (c, c) :: set.runs }, rest)
      else
        let (set, rest) ← readMembers escapes rounds false more
        return ({ set with runs := (c, last) :: set.runs }, rest)
    | rest =>
      let (set, rest) ← readMembers escapes rounds false rest
      return ({ set with runs := (c, c) :: set.runs }, rest)

def read? (escapes : Bool) (text : List Marked) : Option (CharSet × List Marked) :=
  match text with
  | (false, '!') :: rest | (false, '^') :: rest => do
    let (set, rest) ← readMembers escapes (rest.length + 1) true rest
    return ({ set with isNegated := true }, rest)
  | rest => readMembers escapes (rest.length + 1) true rest

end CharSet

inductive Glob where
  | any
  | one
  | set (set : CharSet)
  | char (c : Char)
  deriving DecidableEq

abbrev Pattern := List Glob

namespace Pattern

def ofMarked : Nat → List Marked → Pattern
  | 0, _ => []
  | _, [] => []
  | rounds + 1, (true, c) :: rest => .char c :: ofMarked rounds rest
  | rounds + 1, (false, c) :: rest =>
    match c, rest with
    | '*', _ => .any :: ofMarked rounds rest
    | '?', _ => .one :: ofMarked rounds rest
    | '\\', (_, next) :: rest => .char next :: ofMarked rounds rest
    | '[', _ => match CharSet.read? true rest with
      | some (set, rest) => .set set :: ofMarked rounds rest
      | none => .char '[' :: ofMarked rounds rest
    | c, _ => .char c :: ofMarked rounds rest

def ofText (text : List Marked) : Pattern := ofMarked (text.length + 1) text

def anyTail (property : List Char → Bool) : List Char → Bool
  | [] => property []
  | c :: rest => property (c :: rest) || anyTail property rest

def suits : Pattern → List Char → Bool
  | [], text => text.isEmpty
  | .any :: rest, text => anyTail (suits rest) text
  | .one :: rest, _ :: text => suits rest text
  | .set set :: rest, c :: text => set.contains c && suits rest text
  | .char expected :: rest, c :: text => expected = c && suits rest text
  | _, [] => false

def isNeeded (text : List Marked) : Bool :=
  text.any fun mark => !mark.1 && ['*', '?', '['].contains mark.2

/-- The number of characters at the start of a text that a pattern stands for: the fewest, or the
most. -/
def reach? (pattern : Pattern) (isLongest : Bool) (text : List Char) : Option Nat :=
  let counts := (List.range (text.length + 1)).filter fun count => pattern.suits (text.take count)
  if isLongest then counts.getLast? else counts.head?

def trim (pattern : Pattern) (isAtEnd isLongest : Bool) (text : List Char) : List Char :=
  if isAtEnd then
    let starts := (List.range (text.length + 1)).filter fun count => pattern.suits (text.drop count)
    match if isLongest then starts.head? else starts.getLast? with
    | some count => text.take count
    | none => text
  else match pattern.reach? isLongest text with
    | some count => text.drop count
    | none => text

end Pattern

end FuzzBridge.Program
