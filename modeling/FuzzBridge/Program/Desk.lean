import FuzzBridge.Storage.Basic
import FuzzBridge.Text.ByteText

/-!
What a running program has before it: the files, its folder, and its input; and what it writes.
Texts are byte strings of one character per byte, and paths are such texts too.
-/

namespace FuzzBridge.Program

def charsOf (bytes : Bytes) : List Char := bytes.map Text.charOfByte

def bytesOf (text : List Char) : Bytes := text.map fun c => UInt8.ofNat c.toNat

def decoded (text : String) : String := Text.ofBytesLossy (bytesOf text.toList)

def encoded (text : String) : String := String.ofList (charsOf (Text.encode text))

/-- What has been written stands in chunks, the last one first, each with whether it complains. -/
structure Desk where
  storage : Storage
  folder : String
  runnable : List String
  input : List Char
  written : List (Bool × List Char)
  delay : Nat

abbrev Work := StateM Desk

def reasonOf : StorageFault → List Char
  | .notFound => "No such file or directory".toList
  | .isADirectory => "Is a directory".toList
  | .notADirectory => "Not a directory".toList
  | .alreadyExists => "File exists".toList
  | .nameTooLong => "File name too long".toList
  | .invalidName | .notText => "Invalid argument".toList

namespace Desk

def path (desk : Desk) (name : String) : String :=
  if name = "" then "" else Path.join desk.folder (decoded name)

def isFolder (desk : Desk) (name : String) : Bool := desk.storage.isFolder (desk.path name)

def occupied (desk : Desk) (name : String) : Bool := desk.storage.occupied (desk.path name)

def key? (desk : Desk) (name : String) : Option String :=
  match desk.storage.locate (desk.path name) with
  | .ok spot => spot.key?
  | .error _ => none

end Desk

/-- The device that is empty to read and keeps nothing that is written to it. -/
def isNull (name : String) : Bool := name = "/dev/null"

def isInput (name : String) : Bool := name = "-" || name = "/dev/stdin"

namespace Work

def say (text : List Char) : Work Unit :=
  modify fun desk => { desk with written := (false, text) :: desk.written }

def sayLine (text : List Char) : Work Unit := say (text ++ ['\n'])

def complain (text : List Char) : Work Unit :=
  modify fun desk => { desk with written := (true, text ++ ['\n']) :: desk.written }

def complainOf (program : String) (pieces : List (List Char)) : Work Unit :=
  complain (program.toList ++ ':' :: ' ' :: pieces.flatten)

def takeInput : Work (List Char) := do
  let desk ← get
  set { desk with input := [] }
  return desk.input

/-- The content of a file; a dash is the input. -/
def read (name : String) : Work (Storage.Attempt (List Char)) := do
  if isInput name then return .ok (← takeInput)
  else if isNull name then return .ok []
  else
    let desk ← get
    return charsOf <$> desk.storage.read (desk.path name)

def change (update : Desk → Storage.Attempt Storage) : Work (Storage.Attempt Unit) := do
  let desk ← get
  match update desk with
  | .ok storage =>
    set { desk with storage }
    return .ok ()
  | .error cause => return .error cause

def write (name : String) (content : List Char) : Work (Storage.Attempt Unit) := do
  if isNull name then return .ok ()
  else if name = "/dev/stdout" then
    say content
    return .ok ()
  else change fun desk => desk.storage.write (desk.path name) (bytesOf content)

/-- Does something for each name. The status is that of the worst one. -/
def forAll (work : String → Work Nat) : List String → Work Nat
  | [] => return 0
  | name :: rest => do
    let status ← work name
    return max status (← forAll work rest)

def readAll (program : String) (names : List String) : Work (List Char × Nat) :=
  match names with
  | [] => return ([], 0)
  | name :: rest => do
    match ← read name with
    | .ok content =>
      let (more, status) ← readAll program rest
      return (content ++ more, status)
    | .error cause =>
      complainOf program [name.toList, [':', ' '], reasonOf cause]
      let (more, _) ← readAll program rest
      return (more, 1)

end Work

structure Options where
  flags : List (Char × String)
  operands : List String

namespace Options

def has (options : Options) (letter : Char) : Bool := options.flags.any (·.1 = letter)

def values (options : Options) (letter : Char) : List String :=
  (options.flags.filter (·.1 = letter)).map (·.2)

def value? (options : Options) (letter : Char) : Option String := (options.values letter).getLast?

def addFlag (flag : Char × String) (options : Options) : Options :=
  { options with flags := flag :: options.flags }

/-- The letters in one argument, of which one may take the rest of it, or the next argument, for its
value. -/
def readLetters (valued : List Char) : List Char → List String →
    List (Char × String) × List String
  | [], rest => ([], rest)
  | letter :: letters, rest =>
    if valued.contains letter then
      if letters.isEmpty then ([(letter, rest.headD "")], rest.drop 1)
      else ([(letter, String.ofList letters)], rest)
    else
      let (flags, rest) := readLetters valued letters rest
      ((letter, "") :: flags, rest)

/-- Options may stand between operands, up to two dashes. Long options have letters that they stand
for; those that have none become a question mark. -/
def read (valued : List Char) (longs : List (String × Char)) : Nat → List String → Options
  | 0, arguments => ⟨[], arguments⟩
  | _, [] => ⟨[], []⟩
  | rounds + 1, argument :: rest =>
    if argument = "--" then ⟨[], rest⟩
    else match argument.toList with
      | '-' :: '-' :: long =>
        let name := String.ofList (long.takeWhile (· ≠ '='))
        let letter := ((longs.find? (·.1 = name)).map (·.2)).getD '?'
        let attached := (long.dropWhile (· ≠ '=')).drop 1
        if valued.contains letter && !long.contains '=' then
          addFlag (letter, rest.headD "") (read valued longs rounds (rest.drop 1))
        else addFlag (letter, String.ofList attached) (read valued longs rounds rest)
      | '-' :: c :: letters =>
        let (flags, rest) := readLetters valued (c :: letters) rest
        let options := read valued longs rounds rest
        { options with flags := flags ++ options.flags }
      | _ =>
        let options := read valued longs rounds rest
        { options with operands := argument :: options.operands }

def ofArguments (valued : List Char) (longs : List (String × Char)) (arguments : List String) :
    Options := read valued longs (arguments.length + 1) arguments

end Options

def linesOf (text : List Char) : List (List Char) :=
  match text with
  | [] => []
  | c :: rest =>
    if c = '\n' then [] :: linesOf rest
    else match linesOf rest with
      | [] => [[c]]
      | line :: lines => (c :: line) :: lines

end FuzzBridge.Program
