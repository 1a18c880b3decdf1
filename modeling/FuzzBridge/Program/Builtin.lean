import FuzzBridge.Program.Field
import FuzzBridge.Program.ScriptText

/-!
The commands of the shell that change it or that it has itself.
-/

namespace FuzzBridge.Program.Shell

def refuseOf (name : String) (text : List Char) : Shell Unit :=
  refuse (name.toList ++ ": ".toList ++ text)

def illegalNumber (text : String) : List Char := "Illegal number: ".toList ++ text.toList

def leave (halt : Halt) (name : String) : List String → Shell Unit
  | [] => throw halt
  | text :: _ => do
    match decimal? text.toList with
    | some value => setStatus (if name = "exit" then value % 256 else value)
    | none =>
      refuseOf name (illegalNumber text)
      throw .exited
    throw halt

def leaveLoops (context : Context) (again : Bool) (arguments : List String) : Shell Unit := do
  setStatus 0
  let levels := ((arguments.head?.bind fun text => decimal? text.toList).getD 1)
  if 0 < context.loops then throw (.left (max 1 (min levels context.loops)) again)

def shift (arguments : List String) : Shell Unit := do
  let count := ((arguments.head?.bind fun text => decimal? text.toList).getD 1)
  if (← get).process.arguments.length < count then
    fail "shift: can't shift that many".toList
  modifyProcess fun process => { process with arguments := process.arguments.drop count }
  setStatus 0

def Settings.turn (settings : Settings) (isOn : Bool) (letter : Char) : Settings :=
  match letter with
  | 'e' => { settings with endsOnFailure := isOn }
  | 'u' => { settings with refusesUnset := isOn }
  | 'f' => { settings with keepsPatterns := isOn }
  | 'x' => { settings with isTraced := isOn }
  | _ => settings

def settingLetter? : String → Option Char
  | "errexit" => some 'e'
  | "nounset" => some 'u'
  | "noglob" => some 'f'
  | "xtrace" => some 'x'
  | "noexec" | "verbose" | "allexport" | "noclobber" | "monitor" | "ignoreeof" => some 'v'
  | _ => none

def isSettingLetter (letter : Char) : Bool :=
  ['e', 'u', 'f', 'x', 'a', 'b', 'C', 'm', 'n', 'v', 'i', 'I', 'E', 'V'].contains letter

/-- What options at the start of arguments say: the settings, the letters that turn something on,
and the arguments after them. -/
structure Configuration where
  settings : Settings
  letters : List Char
  rest : List String

def readOptions (others : List Char) : Nat → Configuration → Except (List Char) Configuration
  | 0, found => .ok found
  | rounds + 1, found =>
    match found.rest.map String.toList with
    | [mark, 'o'] :: _ =>
      if mark = '-' || mark = '+' then
        let name := (found.rest.drop 1).headD ""
        match settingLetter? name with
        | some letter =>
          readOptions others rounds ⟨Settings.turn found.settings (mark = '-') letter,
            found.letters, found.rest.drop 2⟩
        | none => .error ("Illegal option ".toList ++ [mark, 'o', ' '] ++ name.toList)
      else .ok found
    | (mark :: letter :: letters) :: _ =>
      if mark = '-' && letter = '-' && letters.isEmpty then .ok found
      else if mark = '-' || mark = '+' then
        match (letter :: letters).find? fun c => !isSettingLetter c && !others.contains c with
        | some wrong => .error ("Illegal option ".toList ++ [mark, wrong])
        | none =>
          let settings := (letter :: letters).foldl (fun settings c =>
            Settings.turn settings (mark = '-') c) found.settings
          readOptions others rounds ⟨settings, found.letters ++ letter :: letters,
            found.rest.drop 1⟩
      else .ok found
    | _ => .ok found

def configure (arguments : List String) : Shell Unit := do
  let start : Configuration := ⟨(← get).process.settings, [], arguments⟩
  match readOptions [] (arguments.length + 1) start with
  | .error text => fail ("set: ".toList ++ text)
  | .ok ⟨settings, _, rest⟩ =>
    modifyProcess fun process => { process with settings }
    match rest with
    | [] | ["-"] => pure ()
    | "--" :: arguments | "-" :: arguments | arguments =>
      modifyProcess fun process => { process with arguments }
    setStatus 0

def splitAssigned (argument : String) : String × Option String :=
  let text := argument.toList
  let name := text.takeWhile (· ≠ '=')
  (String.ofList name,
    if name.length = text.length then none else some (String.ofList (text.drop (name.length + 1))))

def mark (program : String) (update : Binding → Binding) (arguments : List String) :
    Shell Unit := do
  for argument in arguments do
    if argument = "-p" then continue
    let (name, value) := splitAssigned argument
    if !isName name.toList then
      fail (program.toList ++ ": ".toList ++ name.toList ++ ": bad variable name".toList)
    match value with
    | some value => assign name value
    | none => pure ()
    modifyProcess fun process => { process with
      bindings := process.bindings.insert name
        (update ((process.bindings.find? name).getD ⟨none, false, false⟩)) }
  setStatus 0

def unset (arguments : List String) : Shell Unit := do
  let (ofFunctions, names) := match arguments with
    | "-f" :: names => (true, names)
    | "-v" :: names => (false, names)
    | names => (false, names)
  for name in names do
    if ofFunctions then
      modifyProcess fun process => { process with functions := process.functions.erase name }
    else if ((← get).process.bindings.find? name).any (·.isConstant) then
      fail ("unset: ".toList ++ name.toList ++ ": is read only".toList)
    else modifyProcess fun process => { process with bindings := process.bindings.erase name }
  setStatus 0

def makeLocal (arguments : List String) : Shell Unit := do
  for argument in arguments do
    let (name, value) := splitAssigned argument
    modifyProcess fun process => { process with
      locals := (name, process.bindings.find? name) :: process.locals }
    match value with
    | some value => assign name value
    | none => pure ()
  setStatus 0

/-- The next line of the input: its characters, and which are protected by a backslash, which also
joins lines; what is left; and whether the line has an end. -/
def lineOf (isRaw : Bool) : List Char → List Marked × List Char × Bool
  | [] => ([], [], false)
  | ['\\'] => (if isRaw then [(false, '\\')] else [], [], false)
  | '\\' :: c :: rest =>
    if isRaw then
      if c = '\n' then ([(false, '\\')], rest, true)
      else
        let (line, after, isEnded) := lineOf isRaw (c :: rest)
        ((false, '\\') :: line, after, isEnded)
    else
      let (line, after, isEnded) := lineOf isRaw rest
      (if c = '\n' then line else (true, c) :: line, after, isEnded)
  | c :: rest =>
    if c = '\n' then ([], rest, true)
    else
      let (line, after, isEnded) := lineOf isRaw rest
      ((false, c) :: line, after, isEnded)

def readLine (arguments : List String) : Shell Unit := do
  let (options, names) := Utility.leadingOptions ['r'] arguments
  let names := match names with
    | "-p" :: _ :: names => names
    | names => names
  match names.find? fun name => !isName name.toList with
  | some name => fail ("read: ".toList ++ name.toList ++ ": bad variable name".toList)
  | none => pure ()
  if names.isEmpty then refuseOf "read" "arg count".toList
  else
    let session ← get
    let (line, rest, isEnded) := lineOf (options.contains 'r') session.input
    set (session.setInput rest)
    let fields := readFields (separators session) line names.length
    for (name, value) in names.zip fields do assign name (String.ofList value)
    setStatus (if isEnded then 0 else 1)

def sayEscaped (arguments : List String) : Shell Unit := do
  let (words, ending) := match arguments with
    | "-n" :: rest => (rest, [])
    | words => (words, ['\n'])
  let text := Utility.joined words
  let (text, isStopped) := unescape text.length text
  emit 1 (if isStopped then text else text ++ ending)
  setStatus 0

def sayFormatted (arguments : List String) : Shell Unit := do
  match Utility.formatted arguments with
  | none => refuse "printf: usage: printf format [arg ...]".toList
  | some (text, flaws) =>
    emit 1 text
    for flaw in flaws do complain ("printf: ".toList ++ flaw.message)
    setStatus (if flaws.isEmpty then 0 else if flaws.any FormatFlaw.isFatal then 2 else 1)

def judge (name : String) (arguments : List String) : Shell Unit := do
  match Test.judge (← get).desk arguments with
  | .ok verdict => setStatus (if verdict then 0 else 1)
  | .error flaw => refuseOf name flaw.message.toList

def judgeBrackets (arguments : List String) : Shell Unit :=
  if arguments.getLast? = some "]" then judge "[" arguments.dropLast
  else refuseOf "[" "missing ]".toList

def changeFolder (arguments : List String) : Shell Unit := do
  let session ← get
  let target := match arguments.filter (! ["--", "-P", "-L"].contains ·) with
    | "-" :: _ => (session.binding? "OLDPWD").getD ""
    | target :: _ => target
    | [] => (session.binding? "HOME").getD ""
  if target = "" then setStatus 0
  else if session.desk.isFolder target then
    modifyProcess fun process => { process with folder := session.path target }
    setStatus 0
  else refuseOf "cd" ("can't cd to ".toList ++ target.toList)

def sayFolder : Shell Unit := do
  let folder := (← get).process.folder
  emit 1 ((if Path.isAbsolute folder then "" else "/").toList ++
    (encoded folder).toList ++ ['\n'])
  setStatus 0

def await (context : Context) (arguments : List String) : Shell Unit := do
  let session ← get
  let jobs := session.process.jobs
  let numbers := arguments.filterMap fun text => decimal? text.toList
  let awaited := if arguments.isEmpty then jobs
    else jobs.filter fun job => numbers.contains job.number
  let ending := awaited.foldl (fun latest job => max latest job.ending) session.elapsed
  pass context.limit (ending - session.elapsed)
  setStatus (if arguments.isEmpty then 0 else ((awaited.getLast?).map (·.status)).getD 127)

/-- The commands of the shell that a script cannot do without. Their mistakes end it. -/
def isSpecial (name : String) : Bool :=
  [":", ".", "break", "continue", "eval", "exec", "exit", "export", "readonly", "return", "set",
    "shift", "times", "trap", "unset"].contains name

def builtin? (context : Context) : String → Option (List String → Shell Unit)
  | ":" | "true" => some fun _ => setStatus 0
  | "false" => some fun _ => setStatus 1
  | "exit" => some (leave .exited "exit")
  | "return" => some (leave .returned "return")
  | "break" => some (leaveLoops context false)
  | "continue" => some (leaveLoops context true)
  | "shift" => some shift
  | "set" => some configure
  | "export" => some (mark "export" fun binding => { binding with isExported := true })
  | "readonly" => some (mark "readonly" fun binding => { binding with isConstant := true })
  | "unset" => some unset
  | "local" => some makeLocal
  | "read" => some readLine
  | "echo" => some sayEscaped
  | "printf" => some sayFormatted
  | "test" => some (judge "test")
  | "[" => some judgeBrackets
  | "cd" | "chdir" => some changeFolder
  | "pwd" => some fun _ => sayFolder
  | "wait" => some (await context)
  | "umask" | "ulimit" | "hash" | "times" | "alias" | "unalias" => some fun _ => setStatus 0
  | _ => none

def isRunner (name : String) : Bool :=
  [".", "eval", "exec", "command", "type", "trap", "kill"].contains name

def isShell (name : String) : Bool := ["sh", "dash", "bash"].contains name

def programName (name : String) : String :=
  if "/usr/bin/".toList.isPrefixOf name.toList then String.ofList (name.toList.drop 9)
  else if "/bin/".toList.isPrefixOf name.toList then String.ofList (name.toList.drop 5)
  else name

def isWrapper (name : String) : Bool := ["env", "timeout", "xargs", "nohup", "nice"].contains name

def isProgram (name : String) : Bool :=
  isShell (programName name) || isWrapper (programName name) ||
    (Utility.named? (programName name)).isSome

def isKeyword (name : String) : Bool :=
  ["!", "\x7b", "\x7d", "case", "do", "done", "elif", "else", "esac", "fi", "for", "if", "then",
    "until", "while", "in"].contains name

def kindOf? (context : Context) (session : Session) (name : String) : Option (String × String) :=
  if isKeyword name then some (name, name ++ " is a shell keyword")
  else if isSpecial name then some (name, name ++ " is a special shell builtin")
  else if (session.process.functions.find? name).isSome then
    some (name, name ++ " is a shell function")
  else if (builtin? context name).isSome || isRunner name then
    some (name, name ++ " is a shell builtin")
  else if isProgram name then
    let path := if name.toList.contains '/' then name else "/usr/bin/" ++ name
    some (path, name ++ " is " ++ path)
  else none

end FuzzBridge.Program.Shell
