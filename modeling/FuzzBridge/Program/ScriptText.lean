import FuzzBridge.Program.Script

/-!
Reading shell scripts. A script is read line by line, so the lines before one that cannot be read
still run. Its characters are bytes.
-/

namespace FuzzBridge.Program

def isBlank (c : Char) : Bool := c = ' ' || c = '\t'

def isMeta (c : Char) : Bool :=
  isBlank c || c = '\n' || c = ';' || c = '&' || c = '|' || c = '<' || c = '>' || c = '(' || c = ')'

def isNameStart (c : Char) : Bool := c.isAlpha || c = '_'

def isNameChar (c : Char) : Bool := c.isAlphanum || c = '_'

def isName (text : List Char) : Bool :=
  (text.head?.any isNameStart) && text.all isNameChar

def isSpecial (c : Char) : Bool := ['?', '$', '#', '@', '*', '!', '-'].contains c

def backquote : Char := Char.ofNat 96

/-- The rest of a script, the line that it begins on, and the lines that were taken out of it after
that one. -/
structure Source where
  rest : List Char
  line : Nat
  taken : Nat

namespace Source

def ofText (text : List Char) : Source := ⟨text, 1, 0⟩

def skip (source : Source) : Source :=
  match source.rest with
  | [] => source
  | c :: rest =>
    if c = '\n' then ⟨rest, source.line + source.taken + 1, 0⟩ else { source with rest }

def skipBy (source : Source) : Nat → Source
  | 0 => source
  | count + 1 => source.skip.skipBy count

def skipBlanks (source : Source) : Nat → Source
  | 0 => source
  | rounds + 1 => match source.rest with
    | '\\' :: '\n' :: _ => (source.skipBy 2).skipBlanks rounds
    | '#' :: rest => { source with rest := rest.dropWhile (· ≠ '\n') }
    | c :: _ => if isBlank c then source.skip.skipBlanks rounds else source
    | [] => source

def skipLines (source : Source) : Nat → Source
  | 0 => source
  | rounds + 1 =>
    let source := source.skipBlanks (source.rest.length + 1)
    if source.rest.head? = some '\n' then source.skip.skipLines rounds else source

def isQuoting (c : Char) : Bool :=
  c = '\'' || c = '"' || c = '\\' || c = '$' || c = backquote

/-- The word that comes next, if nothing in it is quoted or expanded. -/
def bareWord? (source : Source) : Option String :=
  let text := source.rest.takeWhile fun c => !isMeta c && !isQuoting c
  match source.rest.drop text.length with
  | [] => if text.isEmpty then none else some (String.ofList text)
  | c :: _ => if text.isEmpty || !isMeta c then none else some (String.ofList text)

def closers : List String := ["then", "else", "elif", "fi", "do", "done", "\x7d", "esac"]

def isAtEnd (source : Source) : Bool :=
  match source.rest with
  | [] | ')' :: _ | ';' :: ';' :: _ => true
  | _ => source.bareWord?.any closers.contains

end Source

/-- Where the parts of a word stand, which tells where they end and what quotes mean. -/
inductive Setting where
  | open
  | quotes
  | document
  | braces (isQuoted : Bool)
  | number (depth : Nat)

namespace Setting

def isQuoted : Setting → Bool
  | .open | .braces false => false
  | _ => true

def endsAt : Setting → List Char → Bool
  | .document, rest => rest.isEmpty
  | .open, c :: _ => isMeta c
  | .quotes, c :: _ => c = '"'
  | .braces _, c :: _ => c = '\x7d'
  | .number 0, ')' :: ')' :: _ => true
  | .number _, _ :: _ => false
  | .open, [] => true
  | _, [] => false

def isEscapable (setting : Setting) (c : Char) : Bool :=
  c = '$' || c = backquote || c = '\\' ||
    (match setting with
      | .quotes => c = '"'
      | .braces _ => c = '"' || c = '\x7d'
      | _ => false)

def after (setting : Setting) (c : Char) : Setting :=
  match setting, c with
  | .number depth, '(' => .number (depth + 1)
  | .number depth, ')' => .number (depth - 1)
  | setting, _ => setting

end Setting

def consText (isQuoted : Bool) (c : Char) : Word → Word
  | .text same text :: rest =>
    if same = isQuoted then .text same (c :: text) :: rest
    else .text isQuoted [c] :: .text same text :: rest
  | word => .text isQuoted [c] :: word

def bare? : Word → Option (List Char)
  | [] => some []
  | .text false text :: rest => (bare? rest).map (text ++ ·)
  | _ => none

/-- The word that ends a document, without its quotes, and whether it had any. -/
def endingOf (word : Word) : List Char × Bool :=
  (word.flatMap fun
    | .text _ text => text
    | .parameter _ name _ => '$' :: name.toList
    | _ => [],
   word.any fun
    | .text true _ => true
    | _ => false)

def splitLine : List Char → List Char × List Char
  | [] => ([], [])
  | c :: rest =>
    if c = '\n' then ([], rest)
    else
      let (line, after) := splitLine rest
      (c :: line, after)

/-- The lines before the one that ends a document, what follows that line, and the number of lines
so far. -/
def splitDocument (ending : List Char) (isTrimmed : Bool) :
    Nat → List Char → List Char × List Char × Nat
  | _, [] => ([], [], 0)
  | 0, text => ([], text, 0)
  | rounds + 1, text =>
    let (line, after) := splitLine text
    let line := if isTrimmed then line.dropWhile (· = '\t') else line
    if line = ending then ([], after, 1)
    else
      let (body, after, count) := splitDocument ending isTrimmed rounds after
      (line ++ '\n' :: body, after, count + 1)

def upTo (mark : Char) : List Char → Option (List Char × List Char)
  | [] => none
  | c :: rest =>
    if c = mark then some ([], rest)
    else do
      let (text, rest) ← upTo mark rest
      return (c :: text, rest)

/-- The script between backquotes, without the backslashes that protect characters in it, and the
number of characters up to the second one. -/
def upToBackquote (isQuoted : Bool) : List Char → Option (List Char × Nat)
  | [] => none
  | '\\' :: c :: rest => do
    let (text, count) ← upToBackquote isQuoted rest
    let isProtected := c = '$' || c = backquote || c = '\\' || (isQuoted && c = '"')
    return (if isProtected then c :: text else '\\' :: c :: text, count + 2)
  | c :: rest =>
    if c = backquote then some ([], 1)
    else do
      let (text, count) ← upToBackquote isQuoted rest
      return (c :: text, count + 1)

abbrev Reading := StateT Source Option

namespace Reading

def rest : Reading (List Char) := return (← get).rest

def skip (count : Nat) : Reading Unit := modify (·.skipBy count)

def skipBlanks : Reading Unit := modify fun source => source.skipBlanks (source.rest.length + 1)

def skipLines : Reading Unit := modify fun source => source.skipLines (source.rest.length + 1)

def takeWhile (property : Char → Bool) : Reading (List Char) := do
  let text := (← rest).takeWhile property
  skip text.length
  return text

def expect (text : String) : Reading Unit := do
  if text.toList.isPrefixOf (← rest) then skip text.length else failure

def expectWord (word : String) : Reading Unit := do
  skipLines
  if (← get).bareWord? = some word then skip word.length else failure

def channel? : Reading (Option Nat) := do
  match ← rest with
  | digit :: c :: _ =>
    return if digit.isDigit && (c = '<' || c = '>') then some (digit.toNat - '0'.toNat) else none
  | _ => return none

def assigned? : Reading (Option String) := do
  let text ← rest
  let name := text.takeWhile isNameChar
  if isName name && (text.drop name.length).head? = some '=' then
    skip (name.length + 1)
    return some (String.ofList name)
  else return none

def defined? : Reading (Option String) := do
  let source ← get
  let name := source.rest.takeWhile isNameChar
  let after := (source.skipBy name.length).skipBlanks source.rest.length
  let inner := after.skip.skipBlanks source.rest.length
  if isName name && after.rest.head? = some '(' && inner.rest.head? = some ')' then
    set inner.skip
    return some (String.ofList name)
  else return none

def parameterName : Reading String := do
  match ← rest with
  | c :: _ =>
    if isNameStart c then return String.ofList (← takeWhile isNameChar)
    else if c.isDigit then return String.ofList (← takeWhile Char.isDigit)
    else if isSpecial c then
      skip 1
      return String.ofList [c]
    else failure
  | [] => failure

structure Items where
  assignments : List (String × Word)
  words : List Word
  redirections : List Redirection

def withRedirections (command : Command) (redirections : List Redirection) : Command :=
  if redirections.isEmpty then command else .redirected command redirections

mutual


def readParts (setting : Setting) : Nat → Reading Word
  | 0 => failure
  | rounds + 1 => do
    let text ← rest
    if setting.endsAt text then return []
    match text with
    | [] => failure
    | '\\' :: '\n' :: _ =>
      skip 2
      readParts setting rounds
    | ['\\'] =>
      skip 1
      return consText setting.isQuoted '\\' (← readParts setting rounds)
    | '\\' :: next :: _ =>
      if setting.isQuoted && !setting.isEscapable next then
        skip 1
        return consText true '\\' (← readParts setting rounds)
      else
        skip 2
        return consText true next (← readParts setting rounds)
    | '$' :: _ =>
      skip 1
      let part ← readDollar setting.isQuoted rounds
      return part :: (← readParts setting rounds)
    | c :: _ =>
      if c = backquote then
        skip 1
        let (script, count) ← upToBackquote setting.isQuoted (← rest)
        let line := (← get).line
        skip count
        let (command, source) ← (readSequence true rounds).run ⟨script, line, 0⟩
        if source.rest.isEmpty then
          return .output setting.isQuoted command :: (← readParts setting rounds)
        else failure
      else if c = '\'' && !setting.isQuoted then
        skip 1
        let (inner, _) ← upTo '\'' (← rest)
        skip (inner.length + 1)
        return .text true inner :: (← readParts setting rounds)
      else if c = '"' && (match setting with
          | .open | .braces _ => true
          | _ => false) then
        skip 1
        let inner ← readParts .quotes rounds
        skip 1
        return (if inner.isEmpty then [.text true []] else inner) ++ (← readParts setting rounds)
      else
        skip 1
        return consText setting.isQuoted c (← readParts (setting.after c) rounds)
termination_by structural rounds => rounds


def readDollar (isQuoted : Bool) : Nat → Reading Part
  | 0 => failure
  | rounds + 1 => do
    match ← rest with
    | '(' :: '(' :: _ =>
      skip 2
      let expression ← readParts (.number 0) rounds
      skip 2
      return .number isQuoted expression
    | '(' :: _ =>
      skip 1
      let script ← readSequence true rounds
      expect ")"
      return .output isQuoted script
    | '{' :: _ =>
      skip 1
      readBraced isQuoted rounds
    | c :: _ =>
      if isNameStart c then
        return .parameter isQuoted (String.ofList (← takeWhile isNameChar)) .whole
      else if c.isDigit || isSpecial c then
        skip 1
        return .parameter isQuoted (String.ofList [c]) .whole
      else return .text isQuoted ['$']
    | [] => return .text isQuoted ['$']
termination_by structural rounds => rounds


def readBraced (isQuoted : Bool) : Nat → Reading Part
  | 0 => failure
  | rounds + 1 => do
    match ← rest with
    | '#' :: c :: _ =>
      if isNameChar c || (isSpecial c && c ≠ '#' && c ≠ '-' && c ≠ '?') then
        skip 1
        let name ← parameterName
        expect "\x7d"
        return .parameter isQuoted name .length
      else readUse isQuoted rounds
    | _ => readUse isQuoted rounds
termination_by structural rounds => rounds

def readUse (isQuoted : Bool) : Nat → Reading Part
  | 0 => failure
  | rounds + 1 => do
    let name ← parameterName
    let isForEmpty := (← rest).head? = some ':'
    if isForEmpty then skip 1
    let fallback? : Option Fallback := match (← rest).head? with
      | some '-' => some .other
      | some '=' => some .assign
      | some '?' => some .complain
      | some '+' => some .instead
      | _ => none
    let text ← rest
    let use ← if let some kind := fallback? then do
        skip 1
        pure (Use.fallback kind isForEmpty (← readParts (.braces isQuoted) rounds))
      else if !isForEmpty && text.head? = some '\x7d' then pure Use.whole
      else if !isForEmpty && (text.head? = some '#' || text.head? = some '%') then do
        let isLongest := text[1]? = text[0]?
        skip (if isLongest then 2 else 1)
        pure (Use.trim (text.head? = some '%') isLongest (← readParts (.braces false) rounds))
      else do
        let _ ← readParts (.braces isQuoted) rounds
        pure Use.wrong
    expect "\x7d"
    return .parameter isQuoted name use
termination_by structural rounds => rounds


def readSequence (across : Bool) : Nat → Reading Command
  | 0 => failure
  | rounds + 1 => do
    if across then skipLines else skipBlanks
    if (← get).isAtEnd || (← rest).head? = some '\n' then return .nothing
    let first ← readChain rounds
    skipBlanks
    match ← rest with
    | '\n' :: _ =>
      if across then return .sequence first (← readSequence across rounds) else return first
    | ';' :: c :: _ =>
      if c = ';' then return first
      else
        skip 1
        return .sequence first (← readSequence across rounds)
    | [';'] =>
      skip 1
      return first
    | '&' :: _ =>
      skip 1
      return .sequence (.background first) (← readSequence across rounds)
    | _ => if (← get).isAtEnd then return first else failure
termination_by structural rounds => rounds

/-- Pipelines, of which each but the first runs by the outcome of what is before it. -/

def readChain : Nat → Reading Command
  | 0 => failure
  | rounds + 1 => do
    continueChain (← readPipeline rounds) rounds
termination_by structural rounds => rounds

def continueChain (first : Command) : Nat → Reading Command
  | 0 => failure
  | rounds + 1 => do
    skipBlanks
    match ← rest with
    | '&' :: '&' :: _ =>
      skip 2
      skipLines
      continueChain (.both first (← readPipeline rounds)) rounds
    | '|' :: '|' :: _ =>
      skip 2
      skipLines
      continueChain (.either first (← readPipeline rounds)) rounds
    | _ => return first
termination_by structural rounds => rounds

def readPipeline : Nat → Reading Command
  | 0 => failure
  | rounds + 1 => do
    skipBlanks
    if (← get).bareWord? = some "!" then
      skip 1
      return .negation (← readPipeline rounds)
    let first ← readCommand rounds
    skipBlanks
    match ← rest with
    | '|' :: c :: _ =>
      if c = '|' then return first
      else
        skip 1
        skipLines
        return .pipe first (← readPipeline rounds)
    | _ => return first
termination_by structural rounds => rounds

def readCommand : Nat → Reading Command
  | 0 => failure
  | rounds + 1 => do
    skipBlanks
    let source ← get
    if source.rest.head? = some '(' then
      skip 1
      let body ← readSequence true rounds
      expect ")"
      readRedirections (.subshell body) rounds
    else match source.bareWord? with
      | some "\x7b" =>
        skip 1
        let body ← readSequence true rounds
        expectWord "\x7d"
        readRedirections body rounds
      | some "if" =>
        skip 2
        readRedirections (← readChoice rounds) rounds
      | some "while" =>
        skip 5
        readLoop true rounds
      | some "until" =>
        skip 5
        readLoop false rounds
      | some "for" =>
        skip 3
        readEach rounds
      | some "case" =>
        skip 4
        skipBlanks
        let subject ← readParts .open rounds
        expectWord "in"
        readRedirections (.selection subject (← readBranches rounds)) rounds
      | word =>
        if word.any Source.closers.contains then failure
        else match ← defined? with
          | some name =>
            skipLines
            return .definition name (← readCommand rounds)
          | none =>
            let items ← readItems false rounds
            if items.assignments.isEmpty && items.words.isEmpty && items.redirections.isEmpty then
              failure
            else return .simple source.line items.assignments items.words items.redirections
termination_by structural rounds => rounds


def readChoice : Nat → Reading Command
  | 0 => failure
  | rounds + 1 => do
    let condition ← readSequence true rounds
    expectWord "then"
    let yes ← readSequence true rounds
    skipLines
    match (← get).bareWord? with
    | some "elif" =>
      skip 4
      return .choice condition yes (← readChoice rounds)
    | some "else" =>
      skip 4
      let no ← readSequence true rounds
      expectWord "fi"
      return .choice condition yes no
    | _ =>
      expectWord "fi"
      return .choice condition yes .nothing
termination_by structural rounds => rounds

def readLoop (wanted : Bool) : Nat → Reading Command
  | 0 => failure
  | rounds + 1 => do
    let condition ← readSequence true rounds
    expectWord "do"
    let body ← readSequence true rounds
    expectWord "done"
    readRedirections (.loop wanted condition body) rounds
termination_by structural rounds => rounds

def readEach : Nat → Reading Command
  | 0 => failure
  | rounds + 1 => do
    skipBlanks
    let name ← takeWhile isNameChar
    if !isName name then failure
    skipLines
    let items ← if (← get).bareWord? = some "in" then do
        skip 2
        pure (← readItems true rounds).words
      else pure [[.parameter true "@" .whole]]
    skipBlanks
    if (← rest).head? = some ';' then skip 1
    expectWord "do"
    let body ← readSequence true rounds
    expectWord "done"
    readRedirections (.each (String.ofList name) items body) rounds
termination_by structural rounds => rounds


def readBranches : Nat → Reading (List (List Word × Command))
  | 0 => failure
  | rounds + 1 => do
    skipLines
    if (← get).bareWord? = some "esac" then
      skip 4
      return []
    if (← rest).head? = some '(' then
      skip 1
      skipBlanks
    let patterns ← readPatterns rounds
    let body ← readSequence true rounds
    skipLines
    if ";;".toList.isPrefixOf (← rest) then
      skip 2
      return (patterns, body) :: (← readBranches rounds)
    else
      expectWord "esac"
      return [(patterns, body)]
termination_by structural rounds => rounds


def readPatterns : Nat → Reading (List Word)
  | 0 => failure
  | rounds + 1 => do
    skipBlanks
    let pattern ← readParts .open rounds
    if pattern.isEmpty then failure
    skipBlanks
    match ← rest with
    | '|' :: _ =>
      skip 1
      return pattern :: (← readPatterns rounds)
    | ')' :: _ =>
      skip 1
      return [pattern]
    | _ => failure
termination_by structural rounds => rounds


def readItems (hasWords : Bool) : Nat → Reading Items
  | 0 => failure
  | rounds + 1 => do
    skipBlanks
    let channel ← channel?
    match ← rest with
    | [] => return ⟨[], [], []⟩
    | c :: _ =>
      if channel.isSome || c = '<' || c = '>' then
        let redirection ← readRedirection channel rounds
        let items ← readItems hasWords rounds
        return { items with redirections := redirection :: items.redirections }
      else if isMeta c then return ⟨[], [], []⟩
      else match ← (if hasWords then pure none else assigned?) with
        | some name =>
          let word ← readParts .open rounds
          let items ← readItems false rounds
          return { items with assignments := (name, word) :: items.assignments }
        | none =>
          let word ← readParts .open rounds
          let items ← readItems true rounds
          return { items with words := word :: items.words }
termination_by structural rounds => rounds


def readRedirections (command : Command) : Nat → Reading Command
  | 0 => failure
  | rounds + 1 => do
    let items ← readItems true rounds
    if items.words.isEmpty then return withRedirections command items.redirections else failure
termination_by structural rounds => rounds

/-- A redirection, from its channel or its operator on. The lines of a document are taken out of the
script. -/

def readRedirection (channel : Option Nat) : Nat → Reading Redirection
  | 0 => failure
  | rounds + 1 => do
    if channel.isSome then skip 1
    let isDocument := "<<".toList.isPrefixOf (← rest)
    let (length, standard, direction) := match ← rest with
      | '<' :: '<' :: '-' :: _ => (3, 0, Direction.input)
      | '<' :: '<' :: _ => (2, 0, .input)
      | '<' :: '&' :: _ => (2, 0, .copy)
      | '<' :: '>' :: _ => (2, 0, .both)
      | '<' :: _ => (1, 0, .input)
      | '>' :: '>' :: _ => (2, 1, .append)
      | '>' :: '&' :: _ => (2, 1, .copy)
      | '>' :: '|' :: _ => (2, 1, .output)
      | _ => (1, 1, .output)
    skip length
    skipBlanks
    let word ← readParts .open rounds
    if word.isEmpty then failure
    if !isDocument then return .file (channel.getD standard) direction word
    let (ending, isQuoted) := endingOf word
    let source ← get
    let (line, after) := splitLine source.rest
    let (body, after, count) := splitDocument ending (length = 3) (after.length + 1) after
    let (parts, _) ← if isQuoted then pure ([Part.text true body], source)
      else (readParts .document rounds).run ⟨body, source.line + 1, 0⟩
    set { source with rest := line ++ '\n' :: after, taken := source.taken + count }
    return .document (channel.getD 0) parts
termination_by structural rounds => rounds

end

def readScript (depth : Nat) : Nat → Source → Command
  | 0, source => .unreadable source.line
  | rounds + 1, source =>
    let source := source.skipLines (source.rest.length + 1)
    if source.rest.isEmpty then .nothing
    else match (readSequence false depth).run source with
      | some (line, after) =>
        if after.rest.isEmpty then line
        else if after.rest.head? = some '\n' then
          .sequence line (readScript depth rounds after.skip)
        else .unreadable source.line
      | none => .unreadable source.line

end Reading

/-- The script in a text. No character is looked at by more than ten levels of the grammar. -/
def Command.ofText (text : List Char) : Command :=
  Reading.readScript (10 * (text.length + 4)) (text.length + 1) (Source.ofText text)

end FuzzBridge.Program
