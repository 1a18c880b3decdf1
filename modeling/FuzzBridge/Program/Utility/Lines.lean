import FuzzBridge.Program.Escape
import FuzzBridge.Program.Utility.Files

/-!
The programs that take texts apart: whole, by lines, by fields and by characters.
-/

namespace FuzzBridge.Program.Utility

open Work

def orInput (names : List String) : List String := if names.isEmpty then ["-"] else names

def padded (width value : Nat) : List Char :=
  let digits := Nat.toDigits 10 value
  List.replicate (width - digits.length) ' ' ++ digits

def fullLines (text : List Char) : List (List Char) :=
  let lines := linesOf text
  if text.getLast? = some '\n' then lines.map (· ++ ['\n'])
  else (lines.dropLast.map (· ++ ['\n'])) ++ lines.getLast?.toList

def visible (c : Char) : List Char :=
  let code := c.toNat
  let (mark, code) := if 128 ≤ code then (['M', '-'], code - 128) else ([], code)
  mark ++ (if code < 32 then ['^', Char.ofNat (code + 64)]
    else if code = 127 then ['^', '?'] else [Char.ofNat code])

def shownLine (options : Options) (line : List Char) : List Char :=
  let isEnded := line.getLast? = some '\n'
  let has (letters : List Char) : Bool := letters.any options.has
  let body := (if isEnded then line.dropLast else line).flatMap fun c =>
    if c = '\t' then if has ['T', 't', 'A'] then ['^', 'I'] else ['\t']
    else if has ['v', 'e', 't', 'A'] then visible c else [c]
  body ++ (if !isEnded then [] else if has ['E', 'e', 'A'] then ['$', '\n'] else ['\n'])

def squeezeLines : List (List Char) → List (List Char)
  | line :: next :: rest =>
    if line = ['\n'] && next = ['\n'] then squeezeLines (next :: rest)
    else line :: squeezeLines (next :: rest)
  | lines => lines

def cat (arguments : List String) : Work Nat := do
  let options := Options.ofArguments []
    [("number", 'n'), ("show-all", 'A'), ("show-ends", 'E'), ("squeeze-blank", 's')] arguments
  let (text, status) ← readAll "cat" (orInput options.operands)
  if options.flags.isEmpty then say text
  else
    let lines := fullLines text
    let (shown, _) := (if options.has 's' then squeezeLines lines else lines).foldl
      (fun (shown, number) line =>
        if options.has 'b' && line ≠ ['\n'] || options.has 'n' && !options.has 'b' then
          ((padded 6 number ++ '\t' :: shownLine options line) :: shown, number + 1)
        else (shownLine options line :: shown, number)) (([] : List (List Char)), 1)
    say shown.reverse.flatten
  return status

/-- What a cut keeps: so many lines or bytes, of the start or of the end, or all but so many. -/
structure Cut where
  byLine : Bool
  count : Nat
  isRest : Bool

def Cut.ofOptions? (sign : Char) (options : Options) : Option Cut :=
  match options.value? 'c', options.value? 'n' with
  | some text, _ => read false text.toList
  | none, some text => read true text.toList
  | none, none => some ⟨true, 10, false⟩
where
  read (byLine : Bool) (text : List Char) : Option Cut := do
    match text with
    | c :: rest =>
      if c = sign then return ⟨byLine, ← number? rest, true⟩
      else if c = '-' || c = '+' then return ⟨byLine, ← number? rest, false⟩
      else return ⟨byLine, ← number? text, false⟩
    | [] => none
  number? (text : List Char) : Option Nat := do
    let digits := text.takeWhile Char.isDigit
    let value ← decimal? digits
    match String.ofList (text.drop digits.length) with
    | "" => return value
    | "b" => return value * 512
    | "k" | "K" | "KiB" => return value * 1024
    | "kB" => return value * 1000
    | "M" | "MiB" => return value * 1048576
    | "MB" => return value * 1000000
    | _ => none

def Cut.head (cut : Cut) (text : List Char) : List Char :=
  let choose {α : Type} (list : List α) : List α :=
    if cut.isRest then list.take (list.length - cut.count) else list.take cut.count
  if cut.byLine then (choose (fullLines text)).flatten else choose text

def Cut.tail (cut : Cut) (text : List Char) : List Char :=
  let choose {α : Type} (list : List α) : List α :=
    if cut.isRest then list.drop (cut.count - 1) else list.drop (list.length - cut.count)
  if cut.byLine then (choose (fullLines text)).flatten else choose text

def modernized : List String → List String
  | first :: rest => match first.toList with
    | '-' :: c :: digits => if (c :: digits).all Char.isDigit then
        "-n" :: String.ofList (c :: digits) :: rest
      else first :: rest
    | _ => first :: rest
  | [] => []

/-- The device that never ends. -/
def isZeros (name : String) : Bool := name = "/dev/zero"

def cutFile (program : String) (choose : Cut → List Char → List Char) (cut : Cut)
    (hasTitles : Bool) (isFirst : Bool) (name : String) : Work Nat := do
  let content ← if isZeros name then pure (.ok (List.replicate cut.count (Char.ofNat 0)))
    else read name
  match content with
  | .ok content =>
    if hasTitles then
      let title := if isInput name then "standard input" else name
      say ((if isFirst then [] else ['\n']) ++ "==> ".toList ++ title.toList ++ " <==\n".toList)
    say (choose cut content)
    return 0
  | .error .isADirectory =>
    complainOf program ["error reading '".toList, name.toList, "': Is a directory".toList]
    return 1
  | .error cause =>
    complainOf program ["cannot open '".toList, name.toList, "' for reading: ".toList,
      reasonOf cause]
    return 1

def cutFiles (program : String) (sign : Char) (choose : Cut → List Char → List Char)
    (arguments : List String) : Work Nat := do
  let options := Options.ofArguments ['c', 'n'] [("lines", 'n'), ("bytes", 'c'), ("quiet", 'q')]
    (modernized arguments)
  match Cut.ofOptions? sign options with
  | none =>
    let (kind, value) := match options.value? 'c' with
      | some value => ("bytes", value)
      | none => ("lines", (options.value? 'n').getD "")
    complainOf program ["invalid number of ".toList, kind.toList, [':', ' ', '\''], value.toList,
      ['\'']]
    return 1
  | some cut =>
    let names := orInput options.operands
    let hasTitles := (1 < names.length || options.has 'v') && !options.has 'q'
    let statuses ← names.zipIdx.mapM fun (name, position) =>
      cutFile program choose cut hasTitles (position = 0) name
    return statuses.foldl max 0

def head : List String → Work Nat := cutFiles "head" '-' Cut.head

def tail : List String → Work Nat := cutFiles "tail" '+' Cut.tail

def isSpace (c : Char) : Bool := c = ' ' || (9 ≤ c.toNat && c.toNat ≤ 13)

def wordCount : Bool → List Char → Nat
  | _, [] => 0
  | isInside, c :: rest =>
    if isSpace c then wordCount false rest
    else (if isInside then 0 else 1) + wordCount true rest

def countsOf (text : List Char) : List Nat :=
  [text.countP (· = '\n'), wordCount false text, text.length]

/-- Counts stand in columns as wide as the number of all bytes; those of the input alone are seven
wide, unless there is one. -/
def count (arguments : List String) : Work Nat := do
  let options := Options.ofArguments []
    [("lines", 'l'), ("words", 'w'), ("bytes", 'c'), ("chars", 'm')] arguments
  let wanted := [options.has 'l', options.has 'w', options.has 'c' || options.has 'm']
  let wanted := if wanted.any id then wanted else [true, true, true]
  let found ← (orInput options.operands).mapM fun name => do
    return (name, ← read name)
  let texts := found.filterMap fun (_, content) => content.toOption
  let total := (texts.map countsOf).foldl (fun sums counts => List.zipWith (· + ·) sums counts)
    [0, 0, 0]
  let isAlone := (wanted.filter id).length = 1 && found.length = 1
  let width := if isAlone then 1
    else if options.operands.isEmpty || options.operands.any isInput then 7
    else (Nat.toDigits 10 (total.getD 2 0)).length
  let row (counts : List Nat) (name : List Char) : List Char :=
    let columns := ((List.zip wanted counts).filter (·.1)).map fun entry => padded width entry.2
    [' '].intercalate columns ++ (if name.isEmpty then [] else ' ' :: name)
  let mut status := 0
  for (name, content) in found do
    match content with
    | .ok text =>
      sayLine (row (countsOf text) (if options.operands.isEmpty then [] else name.toList))
    | .error cause =>
      complainOf "wc" [name.toList, [':', ' '], reasonOf cause]
      status := 1
  if 1 < found.length then sayLine (row total "total".toList)
  return status

structure SortKey where
  first : Nat
  firstChar : Nat
  last : Option Nat
  letters : List Char

def SortKey.ofText (text : List Char) : SortKey :=
  let start := text.takeWhile (· ≠ ',')
  let ending := (text.drop start.length).drop 1
  let number (text : List Char) : Nat := (decimal? (text.takeWhile Char.isDigit)).getD 0
  let letters (text : List Char) : List Char := text.filter Char.isAlpha
  let char := ((start.dropWhile (· ≠ '.')).drop 1)
  ⟨number start, max 1 (number char), if ending.isEmpty then none else some (number ending),
    letters start ++ letters ending⟩

/-- Fields between marks, or fields that begin with blanks. -/
def fieldsOf (mark : Option Char) (line : List Char) : List (List Char) :=
  match mark with
  | some mark => (line.splitOnP (· = mark)).map id
  | none => blankFields [] false line
where
  blankFields (field : List Char) (hasText : Bool) : List Char → List (List Char)
    | [] => [field.reverse]
    | c :: rest =>
      if isBlankChar c && hasText then field.reverse :: blankFields [c] false rest
      else blankFields (c :: field) (hasText || !isBlankChar c) rest
  isBlankChar (c : Char) : Bool := c = ' ' || c = '\t'

def SortKey.part (key : SortKey) (mark : Option Char) (line : List Char) : List Char :=
  let fields := fieldsOf mark line
  let chosen := match key.last with
    | some last => (fields.take last).drop (key.first - 1)
    | none => fields.drop (key.first - 1)
  (([mark.toList].flatten).intercalate chosen).drop (key.firstChar - 1)

/-- The number that a text begins with, in millionths. -/
def leading (text : List Char) : Int :=
  let text := text.dropWhile isSpace
  let (isNegative, digits) := match text with
    | '-' :: rest => (true, rest)
    | rest => (false, rest)
  let whole := digits.takeWhile Char.isDigit
  let fraction := match digits.drop whole.length with
    | '.' :: rest => (rest.takeWhile Char.isDigit).take 6
    | _ => []
  let value := (decimal? (whole ++ fraction ++ List.replicate (6 - fraction.length) '0')).getD 0
  if isNegative then -(value : Int) else value

def compareTexts : List Char → List Char → Ordering
  | [], [] => .eq
  | [], _ => .lt
  | _, [] => .gt
  | left :: lefts, right :: rights =>
    if left < right then .lt else if right < left then .gt else compareTexts lefts rights

def compareBy (letters : List Char) (left right : List Char) : Ordering :=
  let clean (text : List Char) : List Char :=
    let text := if letters.contains 'b' then text.dropWhile isSpace else text
    if letters.contains 'f' then text.map Char.toUpper else text
  let order := if letters.contains 'n' || letters.contains 'g' then
      compare (leading left) (leading right)
    else compareTexts (clean left) (clean right)
  if letters.contains 'r' then order.swap else order

def sortOrder (globals : List Char) (keys : List SortKey) (mark : Option Char)
    (left right : List Char) : Ordering :=
  if keys.isEmpty then compareBy globals left right
  else keys.foldl (fun order key =>
    order.then (compareBy (if key.letters.isEmpty then globals else key.letters)
      (key.part mark left) (key.part mark right))) .eq

def sort (arguments : List String) : Work Nat := do
  let options := Options.ofArguments ['k', 't', 'o', 'S', 'T']
    [("reverse", 'r'), ("numeric-sort", 'n'), ("unique", 'u'), ("key", 'k'),
      ("field-separator", 't'), ("output", 'o'), ("ignore-case", 'f'), ("stable", 's')] arguments
  let globals := (options.flags.map (·.1)).filter ['r', 'n', 'g', 'f', 'b'].contains
  let keys := (options.values 'k').map fun text => SortKey.ofText text.toList
  let mark := (options.value? 't').bind (·.toList.head?)
  let mut texts := []
  for name in orInput options.operands do
    match ← read name with
    | .ok text => texts := text :: texts
    | .error cause =>
      complainOf "sort" ["cannot read: ".toList, name.toList, [':', ' '], reasonOf cause]
      return 2
  let lines := texts.reverse.flatMap linesOf
  let order := sortOrder globals keys mark
  let lastResort (left right : List Char) : Ordering :=
    let order := compareTexts left right
    if globals.contains 'r' then order.swap else order
  let isDecided := options.has 's' || options.has 'u'
  let full (left right : List Char) : Bool :=
    ((order left right).then (if isDecided then .eq else lastResort left right)).isLE
  let sorted := lines.mergeSort full
  if options.has 'c' then
    return if sorted == lines then 0 else 1
  let shown := if options.has 'u' then
      sorted.foldl (fun (kept : List (List Char)) line => match kept with
        | last :: _ => if (order last line).isEq then kept else line :: kept
        | [] => [line]) [] |>.reverse
    else sorted
  let output := (shown.map (· ++ ['\n'])).flatten
  match options.value? 'o' with
  | some name => do
    match ← write name output with
    | .ok () => return 0
    | .error cause =>
      complainOf "sort" ["open failed: ".toList, name.toList, [':', ' '], reasonOf cause]
      return 2
  | none =>
    say output
    return 0

def runsOf (same : List Char → List Char → Bool) : List (List Char) → List (List Char × Nat)
  | [] => []
  | line :: rest => match runsOf same rest with
    | (other, count) :: runs =>
      if same line other then (line, count + 1) :: runs else (line, 1) :: (other, count) :: runs
    | [] => [(line, 1)]

def unique (arguments : List String) : Work Nat := do
  let options := Options.ofArguments ['f', 's', 'w']
    [("count", 'c'), ("repeated", 'd'), ("unique", 'u'), ("ignore-case", 'i')] arguments
  let (text, status) ← readAll "uniq" ((orInput options.operands).take 1)
  let same (left right : List Char) : Bool :=
    if options.has 'i' then left.map Char.toLower = right.map Char.toLower else left = right
  let runs := (runsOf same (linesOf text)).filter fun run =>
    (!options.has 'd' || 1 < run.2) && (!options.has 'u' || run.2 = 1)
  let shown := (runs.map fun run =>
    (if options.has 'c' then padded 7 run.2 ++ [' '] else []) ++ run.1 ++ ['\n']).flatten
  match options.operands with
  | [_, target] =>
    match ← write target shown with
    | .ok () => return status
    | .error _ => return 1
  | _ =>
    say shown
    return status

def rangesOf? (text : List Char) : Option (List (Nat × Option Nat)) :=
  (text.splitOnP (· = ',')).mapM fun piece => do
    let low := piece.takeWhile (· ≠ '-')
    match piece.drop low.length with
    | [] => do
      let value ← decimal? low
      return (value, some value)
    | [_] => return (← decimal? low, none)
    | _ :: high => do
      let low ← if low.isEmpty then some 1 else decimal? low
      return (low, some (← decimal? high))

def isInRanges (ranges : List (Nat × Option Nat)) (position : Nat) : Bool :=
  ranges.any fun (low, high) => low ≤ position && (match high with
    | some high => position ≤ high
    | none => true)

def choosePositions {α : Type} (ranges : List (Nat × Option Nat)) (isComplement : Bool)
    (list : List α) : List α :=
  (list.zipIdx.filter fun entry => isInRanges ranges (entry.2 + 1) != isComplement).map (·.1)

def cutColumns (arguments : List String) : Work Nat := do
  let options := Options.ofArguments ['d', 'f', 'c', 'b', 'o']
    [("delimiter", 'd'), ("fields", 'f'), ("characters", 'c'), ("bytes", 'b'),
      ("only-delimited", 's'), ("output-delimiter", 'o'), ("complement", 'x')] arguments
  let byField := (options.value? 'f').isSome
  let wanted := (options.value? 'f').orElse fun _ =>
    (options.value? 'c').orElse fun _ => options.value? 'b'
  match wanted.bind fun text => rangesOf? text.toList with
  | none =>
    complainOf "cut" [(if wanted.isNone then
        "you must specify a list of bytes, characters, or fields"
      else "invalid field value").toList]
    adviseHelp "cut"
  | some ranges =>
    let mark := ((options.value? 'd').bind (·.toList.head?)).getD '\t'
    let joint := ((options.value? 'o').map String.toList).getD (if byField then [mark] else [])
    let (text, status) ← readAll "cut" (orInput options.operands)
    for line in linesOf text do
      if byField then
        if line.contains mark then
          sayLine (joint.intercalate
            (choosePositions ranges (options.has 'x') (line.splitOnP (· = mark))))
        else if !options.has 's' then sayLine line
      else sayLine (choosePositions ranges (options.has 'x') line)
    return status

def spelledSet : Nat → List Char → List Char
  | 0, _ => []
  | _, [] => []
  | rounds + 1, '[' :: ':' :: rest =>
    let name := rest.takeWhile Char.isLower
    match rest.drop name.length with
    | ':' :: ']' :: rest =>
      ((List.range 256).map Char.ofNat).filter (CharSet.isIn · (String.ofList name)) ++
        spelledSet rounds rest
    | _ => '[' :: spelledSet rounds (':' :: rest)
  | rounds + 1, text =>
    let (first, rest) := unit text
    match rest with
    | '-' :: next :: more =>
      let (last, rest) := unit (next :: more)
      let codes := (List.range (last.toNat + 1)).drop first.toNat
      codes.map Char.ofNat ++ spelledSet rounds rest
    | rest => first :: spelledSet rounds rest
where
  unit : List Char → Char × List Char
    | '\\' :: rest =>
      let (code, rest') := escape rest
      if code = 92 && rest.head? ≠ some '\\' then ((rest.head?).getD '\\', rest.drop 1)
      else (byteChar code, rest')
    | c :: rest => (c, rest)
    | [] => ('\\', [])

def squeeze (set : List Char) : List Char → List Char
  | c :: d :: rest =>
    if c = d && set.contains c then squeeze set (d :: rest) else c :: squeeze set (d :: rest)
  | text => text

/-- What a character becomes: its partner, or the last one of the other set. -/
def partner (source target : List Char) (c : Char) : Char :=
  match (source.reverse.findIdx? (· = c)).map (source.length - 1 - ·) with
  | some position => (target[position]?).getD (target.getLast?.getD c)
  | none => c

def exchange (arguments : List String) : Work Nat := do
  let options := Options.ofArguments []
    [("delete", 'd'), ("squeeze-repeats", 's'), ("complement", 'c'), ("truncate-set1", 't')]
    arguments
  let sets := options.operands.map fun text => spelledSet (text.length + 1) text.toList
  let first := sets.headD []
  let isOther := options.has 'c' || options.has 'C'
  let source := if isOther then ((List.range 256).map Char.ofNat).filter (!first.contains ·)
    else first
  let text ← takeInput
  match sets.length, options.has 'd', options.has 's' with
  | 1, true, _ => say (text.filter (!source.contains ·)); return 0
  | 2, true, true =>
    say (squeeze (sets.getD 1 []) (text.filter (!source.contains ·)))
    return 0
  | 1, false, true => say (squeeze source text); return 0
  | 2, false, isSqueezed =>
    let target := sets.getD 1 []
    let changed := text.map (partner source target)
    say (if isSqueezed then squeeze target changed else changed)
    return 0
  | _, _, _ =>
    complainOf "tr" ["missing operand".toList]
    adviseHelp "tr"

def reverseLines (arguments : List String) : Work Nat := do
  let (text, status) ← readAll "rev" (orInput arguments)
  for line in fullLines text do
    if line.getLast? = some '\n' then sayLine line.dropLast.reverse else say line.reverse
  return status

def lastFirst (arguments : List String) : Work Nat := do
  let (text, status) ← readAll "tac" (orInput arguments)
  say (fullLines text).reverse.flatten
  return status

def number (arguments : List String) : Work Nat := do
  let options := Options.ofArguments ['b', 'w', 's', 'v'] [] arguments
  let (text, status) ← readAll "nl" (orInput options.operands)
  let (shown, _) := (linesOf text).foldl (fun (shown, number) line =>
    if line.isEmpty && options.value? 'b' ≠ some "a" then
      ((List.replicate 7 ' ') :: shown, number)
    else ((padded 6 number ++ '\t' :: line) :: shown, number + 1)) (([] : List (List Char)), 1)
  for line in shown.reverse do sayLine line
  return status

def rowsOf (columns : List (List (List Char))) : List (List (List Char)) :=
  (List.range ((columns.map List.length).foldl max 0)).map fun row =>
    columns.map fun column => column.getD row []

def paste (arguments : List String) : Work Nat := do
  let options := Options.ofArguments ['d'] [("serial", 's'), ("delimiters", 'd')] arguments
  let joint := match (options.value? 'd').map String.toList with
    | some text => (unescape text.length text).1.take 1
    | none => ['\t']
  let columns ← (orInput options.operands).mapM fun name => do
    match ← read name with
    | .ok text => return linesOf text
    | .error _ => return []
  for row in (if options.has 's' then columns else rowsOf columns) do
    sayLine (joint.intercalate row)
  return 0

def piecesOf (width : Nat) : Nat → List Char → List (List Char)
  | 0, line => [line]
  | rounds + 1, line =>
    if line.length ≤ width || width = 0 then [line]
    else line.take width :: piecesOf width rounds (line.drop width)

def fold (arguments : List String) : Work Nat := do
  let options := Options.ofArguments ['w'] [("width", 'w')] arguments
  let width := ((options.value? 'w').bind fun text => decimal? text.toList).getD 80
  let (text, status) ← readAll "fold" (orInput options.operands)
  for line in fullLines text do
    let isEnded := line.getLast? = some '\n'
    let line := if isEnded then line.dropLast else line
    say (['\n'].intercalate (piecesOf width line.length line) ++ (if isEnded then ['\n'] else []))
  return status

def sequence (arguments : List String) : Work Nat := do
  let options := match arguments with
    | "-w" :: rest => (⟨[('w', "")], rest⟩ : Options)
    | "-s" :: joint :: rest => ⟨[('s', joint)], rest⟩
    | arguments => match arguments.head?.map String.toList with
      | some ('-' :: 's' :: joint) => ⟨[('s', String.ofList joint)], arguments.drop 1⟩
      | _ => ⟨[], arguments⟩
  let numbers := options.operands.mapM fun text => integer? text.toList
  let (first, step, last) ← match numbers with
    | some [last] => pure ((1 : Int), (1 : Int), last)
    | some [first, last] => pure (first, 1, last)
    | some [first, step, last] => pure (first, step, last)
    | _ =>
      complainOf "seq" ["invalid arguments".toList]
      return (← adviseHelp "seq")
  if step = 0 then
    complainOf "seq" ["invalid Zero increment value: '0'".toList]
    return (← adviseHelp "seq")
  let count := if 0 < step then (last - first + step).tdiv step
    else (first - last - step).tdiv (-step)
  let texts := (List.range count.toNat).map fun (position : Nat) =>
    (toString (first + step * (position : Int))).toList
  let width := (texts.map List.length).foldl max 0
  let texts := if options.has 'w' then
      texts.map fun text => List.replicate (width - text.length) '0' ++ text
    else texts
  let joint := ((options.value? 's').map String.toList).getD ['\n']
  if !texts.isEmpty then sayLine (joint.intercalate texts)
  return 0

def tee (arguments : List String) : Work Nat := do
  let options := Options.ofArguments [] [("append", 'a')] arguments
  let text ← takeInput
  say text
  forAll (fun name => do
    let old ← if options.has 'a' then read name else pure (.ok [])
    match ← write name (old.toOption.getD [] ++ text) with
    | .ok () => return 0
    | .error cause =>
      complainOf "tee" [name.toList, [':', ' '], reasonOf cause]
      return 1) options.operands

def difference? : Nat → Nat → List Char → List Char → Option (Nat × Nat)
  | position, line, left :: lefts, right :: rights =>
    if left = right then
      difference? (position + 1) (if left = '\n' then line + 1 else line) lefts rights
    else some (position, line)
  | _, _, _, _ => none

def compareFiles (arguments : List String) : Work Nat := do
  let options := Options.ofArguments [] [("quiet", 's'), ("silent", 's')] arguments
  let names := if options.operands.length = 1 then options.operands ++ ["-"] else options.operands
  match names with
  | [left, right] =>
    match ← read left, ← read right with
    | .ok first, .ok second =>
      if first = second then return 0
      if !options.has 's' then
        match difference? 1 1 first second with
        | some (position, line) =>
          sayLine (left.toList ++ ' ' :: right.toList ++ " differ: char ".toList ++
            Nat.toDigits 10 position ++ ", line ".toList ++ Nat.toDigits 10 line)
        | none =>
          let shorter := if first.length < second.length then left else right
          complainOf "cmp" ["EOF on ".toList, shorter.toList]
      return 1
    | .error cause, _ =>
      if !options.has 's' then complainOf "cmp" [left.toList, [':', ' '], reasonOf cause]
      return 2
    | _, .error cause =>
      if !options.has 's' then complainOf "cmp" [right.toList, [':', ' '], reasonOf cause]
      return 2
  | _ =>
    complainOf "cmp" ["missing operand".toList]
    return 2

def base64Digit (value : Nat) : Char :=
  if value < 26 then Char.ofNat (65 + value)
  else if value < 52 then Char.ofNat (71 + value)
  else if value < 62 then Char.ofNat (value - 4)
  else if value = 62 then '+' else '/'

def base64Of : List Char → List Char
  | first :: second :: third :: rest =>
    let value := first.toNat * 65536 + second.toNat * 256 + third.toNat
    [value / 262144, value / 4096 % 64, value / 64 % 64, value % 64].map base64Digit ++
      base64Of rest
  | [first, second] =>
    let value := first.toNat * 65536 + second.toNat * 256
    [value / 262144, value / 4096 % 64, value / 64 % 64].map base64Digit ++ ['=']
  | [first] =>
    let value := first.toNat * 65536
    [value / 262144, value / 4096 % 64].map base64Digit ++ ['=', '=']
  | [] => []

def base64Value? (c : Char) : Option Nat :=
  ((List.range 64).find? fun value => base64Digit value = c)

def ofBase64 : List Char → List Char × Bool
  | [] => ([], true)
  | first :: second :: third :: fourth :: rest =>
    match base64Value? first, base64Value? second, base64Value? third, base64Value? fourth with
    | some first, some second, some third, some fourth =>
      let value := first * 262144 + second * 4096 + third * 64 + fourth
      let (text, isGood) := ofBase64 rest
      ([value / 65536, value / 256 % 256, value % 256].map Char.ofNat ++ text, isGood)
    | some first, some second, some third, none =>
      let value := first * 262144 + second * 4096 + third * 64
      ([value / 65536, value / 256 % 256].map Char.ofNat, fourth = '=' && rest.isEmpty)
    | some first, some second, none, _ =>
      let value := first * 262144 + second * 4096
      ([Char.ofNat (value / 65536)], third = '=' && fourth = '=' && rest.isEmpty)
    | _, _, _, _ => ([], false)
  | _ => ([], false)

def base64 (arguments : List String) : Work Nat := do
  let options := Options.ofArguments ['w'] [("decode", 'd'), ("wrap", 'w')] arguments
  let (text, status) ← readAll "base64" (orInput options.operands)
  if options.has 'd' then
    let (decoded, isGood) := ofBase64 (text.filter (· ≠ '\n'))
    say decoded
    if isGood then return status
    complainOf "base64" ["invalid input".toList]
    return 1
  else
    let width := ((options.value? 'w').bind fun text => decimal? text.toList).getD 76
    let digits := base64Of text
    if digits.isEmpty then return status
    say (['\n'].intercalate (piecesOf width digits.length digits) ++
      (if width = 0 then [] else ['\n']))
    return status

end FuzzBridge.Program.Utility
