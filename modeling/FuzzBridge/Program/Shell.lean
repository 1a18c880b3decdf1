import FuzzBridge.Program.Builtin

/-!
The shell: runs the commands of a script on stored files, up to a limit of time.
-/

namespace FuzzBridge.Program.Shell

structure Call where
  settings : Settings
  script : List Char
  name : String
  arguments : List String

def refuseCall (text : List Char) : Shell (Option Call) := do
  emit 2 ("sh: 0: ".toList ++ text ++ ['\n'])
  setStatus 2
  return none

/-- What a shell that is called as a program is to run: a text, a file, or else its input. -/
def callOf (arguments : List String) : Shell (Option Call) := do
  match readOptions ['c', 's', 'l'] (arguments.length + 1) ⟨.start, [], arguments⟩ with
  | .error text => refuseCall text
  | .ok ⟨settings, letters, rest⟩ =>
    let rest := if rest.head? = some "--" || rest.head? = some "-" then rest.drop 1 else rest
    let session ← get
    match letters.contains 'c', letters.contains 's', rest with
    | true, _, [] => refuseCall "-c requires an argument".toList
    | true, _, [script] => return some ⟨settings, script.toList, "sh", []⟩
    | true, _, script :: name :: arguments =>
      return some ⟨settings, script.toList, name, arguments⟩
    | false, false, name :: arguments =>
      match session.storage.read (session.path name) with
      | .ok content => return some ⟨settings, charsOf content, name, arguments⟩
      | .error .isADirectory => return some ⟨settings, [], name, arguments⟩
      | .error _ => refuseCall ("cannot open ".toList ++ name.toList ++ ": No such file".toList)
    | false, _, arguments =>
      set (session.setInput [])
      return some ⟨settings, session.input, "sh", arguments⟩

def Call.process (call : Call) (number : Nat) (outer : Process) : Process :=
  ⟨number, outer.folder, outer.channels, ofExported outer.bindings, .empty, [], call.name,
    call.arguments, call.settings, [], [], 1⟩
where
  ofExported (bindings : Table Binding) : Table Binding :=
    (bindings.entries.filter (·.2.isExported)).foldl (fun table entry =>
      table.insert entry.1 { entry.2 with isConstant := false }) .empty

def runnableText? (session : Session) (name : String) : Option (List Char) :=
  if name.toList.contains '/' && (session.desk.key? name).any session.runnable.contains then
    (session.storage.read (session.path name)).toOption.map charsOf
  else none

def interpreterOf (text : List Char) : String × List String :=
  match text with
  | '#' :: '!' :: rest =>
    let line := (rest.takeWhile (· ≠ '\n')).dropWhile (· = ' ')
    let program := line.takeWhile (· ≠ ' ')
    let argument := (line.drop program.length).dropWhile (· = ' ')
    (String.ofList program, if argument.isEmpty then [] else [String.ofList argument])
  | _ => ("sh", [])

def refuseProgram (name : String) : Shell Unit := do
  let session ← get
  if name.toList.contains '/' && session.desk.occupied name then
    complain (name.toList ++ ": Permission denied".toList)
    setStatus 126
  else
    complain (name.toList ++ ": not found".toList)
    setStatus 127

def cannotOpen (name : String) : List Char :=
  "cannot open ".toList ++ name.toList ++ ": No such file".toList

def openStream (direction : Direction) (target : String) : Shell (Except (List Char) Stream) := do
  let session ← get
  let path := session.path target
  let reason (cause : StorageFault) : List Char := match cause with
    | .notFound | .notADirectory => "Directory nonexistent".toList
    | cause => reasonOf cause
  match direction, target with
  | .copy, "-" => return .ok .closed
  | .copy, _ => match decimal? target.toList with
    | some channel =>
      let stream := session.process.channels channel
      return if stream = .closed then .error (target.toList ++ ": Bad file descriptor".toList)
        else .ok stream
    | none => fail ("Bad fd number".toList)
  | _, "/dev/null" => return .ok .nowhere
  | _, "/dev/stdin" => return .ok (session.process.channels 0)
  | _, "/dev/stdout" => return .ok (session.process.channels 1)
  | _, "/dev/stderr" => return .ok (session.process.channels 2)
  | .input, _ => match session.storage.read path with
    | .ok content => return .ok (.buffer (← newBuffer (charsOf content)))
    | .error .isADirectory => return .ok .nowhere
    | .error _ => return .error (cannotOpen target)
  | direction, _ =>
    let opened := if direction ≠ .output && session.storage.occupied path then
        (fun _ => session.storage) <$> session.storage.read path
      else session.storage.write path []
    match opened with
    | .ok storage =>
      set { session with storage }
      return .ok (.file path)
    | .error cause =>
      return .error ("cannot create ".toList ++ target.toList ++ ": ".toList ++ reason cause)

/-- The words of a list of arguments in a text. Quotes and backslashes keep blanks. -/
def argumentsIn (current : Option (List Char)) : Nat → List Char → List String
  | 0, _ => []
  | _, [] => (current.map fun word => String.ofList word.reverse).toList
  | rounds + 1, c :: rest =>
    if c = ' ' || c = '\t' || c = '\n' then
      (current.map fun word => String.ofList word.reverse).toList ++ argumentsIn none rounds rest
    else if c = '"' || c = '\'' then
      let inner := rest.takeWhile (· ≠ c)
      argumentsIn (some (inner.reverse ++ current.getD [])) rounds (rest.drop (inner.length + 1))
    else if c = '\\' then
      argumentsIn (some ((rest.head?).toList ++ current.getD [])) rounds (rest.drop 1)
    else argumentsIn (some (c :: current.getD [])) rounds rest

def signalText (signal : Nat) : List Char :=
  match signal with
  | 1 => "Hangup".toList
  | 3 => "Quit".toList
  | 6 => "Aborted".toList
  | 9 => "Killed".toList
  | 11 => "Segmentation fault".toList
  | 14 => "Alarm clock".toList
  | 15 => "Terminated".toList
  | signal => "Signal ".toList ++ Nat.toDigits 10 signal

/-- A shell that a signal ends has a status of its own for the shell that has called it. The first
one has been called by none. -/
def ofSignal (body : Shell Unit) : Shell Unit := fun session =>
  match body session with
  | (.error (.killed signal), inner) =>
    if session.process.number = 0 then (.error (.killed signal), inner)
    else
      let inner := { inner with process := session.process, status := 128 + signal }
      (.ok (), if signal = 2 || signal = 13 then inner
        else inner.emit 2 (signalText signal ++ ['\n']))
  | other => other

def groupsOf (size : Nat) : Nat → List String → List (List String)
  | 0, _ => []
  | _, [] => []
  | rounds + 1, items => items.take size :: groupsOf size rounds (items.drop size)

def replaceMark (mark : List Char) (new : List Char) : Nat → List Char → List Char
  | 0, text => text
  | _, [] => []
  | rounds + 1, c :: rest =>
    if !mark.isEmpty && mark.isPrefixOf (c :: rest) then
      new ++ replaceMark mark new rounds ((c :: rest).drop mark.length)
    else c :: replaceMark mark new rounds rest

def callsFor (arguments : List String) (input : List Char) : List (List String) :=
  let (options, command) := split arguments.length arguments
  let command := if command.isEmpty then ["echo"] else command
  match options.find? (·.1 = 'I') with
  | some (_, mark) =>
    ((linesOf input).filter (!·.isEmpty)).map fun line => command.map fun word =>
      String.ofList (replaceMark mark.toList (line.dropWhile (· = ' ')) word.length word.toList)
  | none =>
    let words := argumentsIn none (input.length + 1) input
    let size := ((options.find? (·.1 = 'n')).bind fun entry => decimal? entry.2.toList).getD
      words.length
    if words.isEmpty then if options.any (·.1 = 'r') then [] else [command]
    else (groupsOf (max 1 size) words.length words).map (command ++ ·)
where
  split : Nat → List String → List (Char × String) × List String
    | 0, words => ([], words)
    | rounds + 1, words => match words with
      | argument :: rest => match argument.toList with
        | '-' :: c :: letters =>
          let isValued := ['n', 'I', 'L', 'd', 'P', 's'].contains c
          let (value, rest) := if isValued && letters.isEmpty then (rest.headD "", rest.drop 1)
            else (String.ofList letters, rest)
          let (options, command) := split rounds rest
          ((c, value) :: options, command)
        | _ => ([], argument :: rest)
      | [] => ([], [])

def environmentOf (bindings : Table Binding) : List String → Table Binding × List String
  | [] => (bindings, [])
  | argument :: rest =>
    if argument = "-i" || argument = "-" then
      environmentOf (bindings.keys.foldl Table.erase bindings) rest
    else match splitAssigned argument with
      | (name, some value) => environmentOf (bindings.insert name ⟨some value, true, false⟩) rest
      | _ => (bindings, argument :: rest)

def setTraps (arguments : List String) : Shell Unit := do
  let number? (name : String) : Option Nat :=
    if name = "EXIT" || name = "0" then some 0 else Signal.ofText? name
  let arguments := if arguments.head? = some "--" then arguments.drop 1 else arguments
  match arguments with
  | [] =>
    for (number, action) in (← get).process.traps do
      let name := if number = 0 then "EXIT" else (Signal.names[number - 1]?).getD ""
      emit 1 ("trap -- '".toList ++ action.toList ++ ['\'', ' '] ++ name.toList ++ ['\n'])
    setStatus 0
  | action :: names =>
    let isRemoval := action = "-" || (names.isEmpty && (number? action).isSome)
    let names := if names.isEmpty then [action] else names
    match names.find? fun name => (number? name).isNone with
    | some name => refuse ("trap: ".toList ++ name.toList ++ ": bad trap".toList)
    | none =>
      let numbers := names.filterMap number?
      modifyProcess fun process =>
        let kept := process.traps.filter fun entry => !numbers.contains entry.1
        let added := if isRemoval then [] else numbers.map fun number => (number, action)
        { process with traps := added ++ kept }
      setStatus 0

def signalOf : List String → Option (Nat × List String)
  | "-s" :: name :: targets => (Signal.ofText? name).map fun signal => (signal, targets)
  | first :: rest => match first.toList with
    | '-' :: name => (Signal.ofText? (String.ofList name)).map fun signal => (signal, rest)
    | _ => some (15, first :: rest)
  | [] => none

mutual

/-- Runs a command. Each round enters a command, and when there are no rounds left, the script is
taken for one that does not end. -/
def run : Nat → Context → Command → Shell Unit
  | 0, _, _ => throw .late
  | rounds + 1, context, command => do
    match command with
    | .nothing => return
    | .unreadable line =>
      modifyProcess fun process => { process with line }
      fail "Syntax error".toList
    | .simple line assignments words redirections =>
      modifyProcess fun process => { process with line }
      runSimple rounds context assignments words redirections
      check context
    | .redirected command redirections =>
      keepingChannels do
        if ← redirect rounds context redirections then run rounds context command
        else setStatus 2
      check context
    | .sequence before after =>
      run rounds context before
      run rounds context after
    | .background command => runBeside rounds context command
    | .both before after =>
      run rounds { context with isChecked := true } before
      if (← get).status = 0 then run rounds context after
    | .either before after =>
      run rounds { context with isChecked := true } before
      if (← get).status ≠ 0 then run rounds context after
    | .pipe before after =>
      let index ← newBuffer []
      let start := (← get).elapsed
      runApart rounds context (·.setChannel 1 (.buffer index)) before
      let middle := (← get).elapsed
      modify fun session => { session with elapsed := start }
      runApart rounds context (·.setChannel 0 (.buffer index)) after
      modify fun session => { session with elapsed := max middle session.elapsed }
      check context
    | .negation command =>
      run rounds { context with isChecked := true } command
      setStatus (if (← get).status = 0 then 1 else 0)
    | .subshell command =>
      runApart rounds context id command
      check context
    | .choice condition yes no =>
      run rounds { context with isChecked := true } condition
      if (← get).status = 0 then run rounds context yes
      else
        setStatus 0
        run rounds context no
    | .selection subject branches =>
      let text ← expandText rounds context subject
      setStatus 0
      runSelection rounds context text branches
    | .each name items body =>
      let values ← expandAll rounds context items
      setStatus 0
      runEach rounds { context with loops := context.loops + 1 } name body values
    | .loop wanted condition body =>
      setStatus 0
      runLoop rounds { context with loops := context.loops + 1 } wanted condition body
    | .definition name body =>
      modifyProcess fun process => { process with functions := process.functions.insert name body }
      setStatus 0
termination_by structural rounds => rounds

def runApart : Nat → Context → (Process → Process) → Command → Shell Unit
  | 0, _, _, _ => throw .late
  | rounds + 1, context, prepare, command => do
    let outer := (← get).process
    modifyProcess fun process => prepare { process with traps := [], jobs := [] }
    runWhole rounds context command
    modifyProcess fun _ => outer
termination_by structural rounds => rounds

/-- Runs a command to its end, and then what is to be done at the end. -/
def runWhole : Nat → Context → Command → Shell Unit
  | 0, _, _ => throw .late
  | rounds + 1, context, command => do
    contained (run rounds context command)
    let session ← get
    match session.process.traps.find? (·.1 = 0) with
    | none => return
    | some (_, action) =>
      modifyProcess fun process => { process with traps := process.traps.filter (·.1 ≠ 0) }
      contained do
        run rounds context (Command.ofText action.toList)
        setStatus session.status
termination_by structural rounds => rounds

/-- Runs a command while the script goes on. It takes no time of the script. -/
def runBeside : Nat → Context → Command → Shell Unit
  | 0, _, _ => throw .late
  | rounds + 1, context, command => do
    let start := (← get).elapsed
    let number ← newNumber
    runApart rounds { context with limit := Nat.pow 10 40 } (·.setChannel 0 .nowhere) command
    let session ← get
    modifyProcess fun process => { process with
      jobs := process.jobs ++ [⟨number, session.elapsed, session.status⟩] }
    modify fun session => { session with elapsed := start, status := 0 }
termination_by structural rounds => rounds

/-- The status of a loop is that of the last round of its body. -/
def runLoop : Nat → Context → Bool → Command → Command → Shell Unit
  | 0, _, _, _, _ => throw .late
  | rounds + 1, context, wanted, condition, body => do
    let before := (← get).status
    let goesOn ← runBody rounds { context with isChecked := true } condition
    if goesOn.isSome then
      if goesOn = some true then runLoop rounds context wanted condition body
    else if ((← get).status == 0) == wanted then
      if (← runBody rounds context body).getD true then
        runLoop rounds context wanted condition body
    else setStatus before
termination_by structural rounds => rounds

def runBody : Nat → Context → Command → Shell (Option Bool)
  | 0, _, _ => throw .late
  | rounds + 1, context, body => fun session =>
    match run rounds context body session with
    | (.ok _, session) => (.ok none, session)
    | (.error (.left levels again), session) =>
      if levels ≤ 1 then (.ok (some again), session)
      else (.error (.left (levels - 1) again), session)
    | (.error halt, session) => (.error halt, session)
termination_by structural rounds => rounds

def runEach : Nat → Context → String → Command → List String → Shell Unit
  | 0, _, _, _, _ => throw .late
  | _ + 1, _, _, _, [] => return
  | rounds + 1, context, name, body, value :: values => do
    assign name value
    if (← runBody rounds context body).getD true then runEach rounds context name body values
termination_by structural rounds => rounds

def runSelection : Nat → Context → List Char → List (List Word × Command) → Shell Unit
  | 0, _, _, _ => throw .late
  | _ + 1, _, _, [] => return
  | rounds + 1, context, text, (patterns, body) :: branches => do
    if ← isMatched rounds context text patterns then run rounds context body
    else runSelection rounds context text branches
termination_by structural rounds => rounds

def isMatched : Nat → Context → List Char → List Word → Shell Bool
  | 0, _, _, _ => throw .late
  | _ + 1, _, _, [] => return false
  | rounds + 1, context, text, pattern :: patterns => do
    let bits ← expand rounds context pattern
    if (Pattern.ofText (Bit.marked bits)).suits text then return true
    else isMatched rounds context text patterns
termination_by structural rounds => rounds

/-- A simple command: its words are expanded, then its redirections and its assignments. These last
if there is no command, or if it is one that a script cannot do without. -/
def runSimple : Nat → Context → List (String × Word) → List Word → List Redirection → Shell Unit
  | 0, _, _, _, _ => throw .late
  | rounds + 1, context, assignments, words, redirections => do
    modify fun session => { session with outputStatus := none }
    match ← expandAll rounds context words with
    | [] =>
      let isGood ← if redirections.isEmpty then pure true
        else fun session =>
          let (result, inner) := redirect rounds context redirections session
          (result, { inner with process := session.process })
      if isGood then
        assignAll rounds context assignments
        setStatus ((← get).outputStatus.getD 0)
      else setStatus 2
    | name :: arguments =>
      if (← get).process.settings.isTraced then
        emit 2 ("+ ".toList ++ Utility.joined (name :: arguments) ++ ['\n'])
      if name = "exec" && arguments.isEmpty then
        if ← redirect rounds context redirections then setStatus 0
        else
          setStatus 2
          throw .exited
      else keepingChannels do
        if ← redirect rounds context redirections then
          if isSpecial name then
            assignAll rounds context assignments
            runNamed rounds context true name arguments
          else
            let old := (← get).process.bindings
            assignAll rounds context assignments
            modifyProcess fun process => (assignments.map (·.1)).foldl (fun process name =>
              { process with
                bindings := match process.bindings.find? name with
                  | some binding => process.bindings.insert name { binding with isExported := true }
                  | none => process.bindings }) process
            restoring (fun _ inner => (assignments.map (·.1)).foldl (fun process name =>
                putBack process name (old.find? name)) inner)
              (runNamed rounds context true name arguments)
        else
          setStatus 2
          if isSpecial name then throw .exited
termination_by structural rounds => rounds

def assignAll : Nat → Context → List (String × Word) → Shell Unit
  | 0, _, _ => throw .late
  | _ + 1, _, [] => return
  | rounds + 1, context, (name, word) :: rest => do
    assign name (String.ofList (← expandText rounds context word))
    assignAll rounds context rest
termination_by structural rounds => rounds

/-- Runs what a name stands for: a command of the shell, a function, or a program. -/
def runNamed : Nat → Context → Bool → String → List String → Shell Unit
  | 0, _, _, _, _ => throw .late
  | rounds + 1, context, seesFunctions, name, arguments => do
    let body := (← get).process.functions.find? name
    match isSpecial name, body.filter fun _ => seesFunctions, builtin? context name with
    | false, some body, _ =>
      let settle (outer inner : Process) : Process :=
        let inner := inner.locals.foldl (fun process entry =>
          putBack process entry.1 entry.2) inner
        { inner with locals := outer.locals, arguments := outer.arguments }
      restoring settle do
        modifyProcess fun process => { process with locals := [], arguments }
        fun session => match run rounds { context with loops := 0 } body session with
          | (.error .returned, session) => (.ok (), session)
          | other => other
    | _, _, some task => task arguments
    | _, _, none =>
      if isRunner name then runRunner rounds context name arguments
      else runProgram rounds context name arguments
termination_by structural rounds => rounds

def runRunner : Nat → Context → String → List String → Shell Unit
  | 0, _, _, _ => throw .late
  | rounds + 1, context, name, arguments => do
    match name, arguments with
    | "eval", words =>
      setStatus 0
      run rounds context (Command.ofText (Utility.joined words))
    | ".", file :: _ =>
      let session ← get
      if !file.toList.contains '/' then fail (".: ".toList ++ file.toList ++ ": not found".toList)
      match session.storage.read (session.path file) with
      | .ok content =>
        setStatus 0
        fun session => match run rounds context (Command.ofText (charsOf content)) session with
          | (.error .returned, session) => (.ok (), session)
          | other => other
      | .error _ => fail (".: ".toList ++ cannotOpen file)
    | "exec", program :: arguments =>
      runProgram rounds context program arguments
      modifyProcess fun process => { process with traps := [] }
      throw .exited
    | "command", "-v" :: name :: _ => match kindOf? context (← get) name with
      | some (path, _) =>
        emit 1 (path.toList ++ ['\n'])
        setStatus 0
      | none => setStatus 127
    | "command", "-p" :: name :: arguments | "command", "--" :: name :: arguments
    | "command", name :: arguments => runNamed rounds context false name arguments
    | "type", names =>
      setStatus 0
      for name in names do
        match kindOf? context (← get) name with
        | some (_, text) => emit 1 (text.toList ++ ['\n'])
        | none =>
          emit 1 (name.toList ++ ": not found\n".toList)
          setStatus 127
    | "trap", arguments => setTraps arguments
    | "kill", arguments => match signalOf arguments with
      | some (signal, target :: _) =>
        let session ← get
        if target = "0" || decimal? target.toList = some session.process.number then
          match session.process.traps.find? (·.1 = signal), Signal.effect signal with
          | some (_, action), effect =>
            if signal = 9 || signal = 19 then
              if effect = .stops then throw .late else throw (.killed signal)
            setStatus 0
            run rounds context (Command.ofText action.toList)
          | none, .none => setStatus 0
          | none, .ends => throw (.killed signal)
          | none, .stops => throw .late
        else if session.process.jobs.any fun job => decimal? target.toList = some job.number then
          setStatus 0
        else
          complain "kill: No such process".toList
          setStatus 1
      | _ => refuse "kill: Usage: kill [-s sigspec | -signum | -sigspec] [pid | job]...".toList
    | _, _ => setStatus 0
termination_by structural rounds => rounds

/-- Runs a program. What is no program has statuses of its own. -/
def runProgram : Nat → Context → String → List String → Shell Unit
  | 0, _, _, _ => throw .late
  | rounds + 1, context, name, arguments => do
    let program := programName name
    if isShell program then
      match ← callOf arguments with
      | none => return
      | some call =>
        setStatus 0
        let number ← newNumber
        ofSignal (runApart rounds { context with isChecked := false, loops := 0 }
          (call.process number) (Command.ofText call.script))
    else if isWrapper program then runWrapper rounds context program arguments
    else match Utility.named? program with
      | some utility => perform context.limit (utility arguments)
      | none => match runnableText? (← get) name with
        | some text =>
          let (program, options) := interpreterOf text
          runProgram rounds context program (options ++ name :: arguments)
        | none => refuseProgram name
termination_by structural rounds => rounds

def runWrapper : Nat → Context → String → List String → Shell Unit
  | 0, _, _, _ => throw .late
  | rounds + 1, context, name, arguments => do
    match name, arguments with
    | "env", arguments =>
      let outer := (← get).process
      let exported := outer.bindings.entries.filter fun entry => entry.2.isExported
      let (bindings, command) := environmentOf (exported.foldl (fun table entry =>
        table.insert entry.1 entry.2) .empty) arguments
      match command with
      | [] =>
        for (name, binding) in bindings.entries do
          emit 1 (name.toList ++ '=' :: (binding.value.getD "").toList ++ ['\n'])
        setStatus 0
      | program :: arguments =>
        restoring (fun outer inner => { inner with bindings := outer.bindings }) do
          modifyProcess fun process => { process with bindings }
          runProgram rounds context program arguments
    | "timeout", span :: program :: arguments => match Utility.spanOf? span.toList with
      | none => setStatus 125
      | some span =>
        let deadline := (← get).elapsed + span
        if span = 0 || context.limit ≤ deadline then runProgram rounds context program arguments
        else fun session =>
          match runProgram rounds { context with limit := deadline } program arguments session with
          | (.error .late, inner) =>
            (.ok (), { inner with
              process := session.process, elapsed := deadline, status := 124 })
          | other => other
    | "xargs", arguments =>
      let session ← get
      set (session.setInput [])
      runCalls rounds context (callsFor arguments session.input)
    | "nice", "-n" :: _ :: program :: arguments | _, program :: arguments =>
      runProgram rounds context program arguments
    | _, [] => setStatus 125
termination_by structural rounds => rounds

def runCalls : Nat → Context → List (List String) → Shell Unit
  | 0, _, _ => throw .late
  | _ + 1, _, [] => setStatus 0
  | rounds + 1, context, call :: calls => do
    runProgram rounds context (call.headD "") (call.drop 1)
    let status := (← get).status
    runCalls rounds context calls
    if status ≠ 0 then setStatus (if status < 126 then 123 else status)
termination_by structural rounds => rounds

def redirect : Nat → Context → List Redirection → Shell Bool
  | 0, _, _ => throw .late
  | _ + 1, _, [] => return true
  | rounds + 1, context, .document channel body :: rest => do
    let index ← newBuffer (← expandText rounds context body)
    modifyProcess (·.setChannel channel (.buffer index))
    redirect rounds context rest
  | rounds + 1, context, .file channel direction target :: rest => do
    let target ← expandText rounds context target
    match ← openStream direction (String.ofList target) with
    | .ok stream =>
      modifyProcess (·.setChannel channel stream)
      redirect rounds context rest
    | .error text =>
      refuse text
      return false
termination_by structural rounds => rounds

def expandAll : Nat → Context → List Word → Shell (List String)
  | 0, _, _ => throw .late
  | _ + 1, _, [] => return []
  | rounds + 1, context, word :: rest => do
    let bits ← expand rounds context word
    let fields := fieldsOf (← get) bits
    return fields ++ (← expandAll rounds context rest)
termination_by structural rounds => rounds

def expandText : Nat → Context → Word → Shell (List Char)
  | 0, _, _ => throw .late
  | rounds + 1, context, word => return Bit.text (← expand rounds context word)
termination_by structural rounds => rounds

def expand : Nat → Context → Word → Shell (List Bit)
  | 0, _, _ => throw .late
  | _ + 1, _, [] => return []
  | rounds + 1, context, part :: rest => do
    let bits ← match part with
      | .text isQuoted text => pure (Bit.ofLiteral isQuoted text)
      | .parameter isQuoted name use => expandParameter rounds context isQuoted name use
      | .output isQuoted script => do
        let index ← newBuffer []
        let status := (← get).status
        runApart rounds { context with isChecked := false }
          (·.setChannel 1 (.buffer index)) script
        let session ← get
        set { session.setText index [] with status, outputStatus := some session.status }
        pure (Bit.ofText isQuoted (outputText (session.textOf index)))
      | .number isQuoted expression => do
        let text ← expandText rounds context expression
        let session ← get
        match Expression.evaluate session.value? text with
        | .ok (value, assigned) =>
          for (name, value) in assigned do assign name (toString value)
          pure (Bit.ofText isQuoted (toString value).toList)
        | .error flaw => fail (flaw.message text)
    return bits ++ (← expand rounds context rest)
termination_by structural rounds => rounds

def expandParameter : Nat → Context → Bool → String → Use → Shell (List Bit)
  | 0, _, _, _, _ => throw .late
  | rounds + 1, context, isQuoted, name, use => do
    let session ← get
    let value := session.value? name
    let isRefused := value.isNone && session.process.settings.refusesUnset &&
      name ≠ "@" && name ≠ "*"
    let unset : List Char := name.toList ++ ": parameter not set".toList
    match use with
    | .whole =>
      if isRefused then fail unset
      return session.bitsOf isQuoted name (value.getD [])
    | .length =>
      if isRefused then fail unset
      return Bit.ofText isQuoted (Nat.toDigits 10 (value.getD []).length)
    | .wrong => fail "Bad substitution".toList
    | .trim isAtEnd isLongest pattern =>
      if isRefused then fail unset
      let bits ← expand rounds context pattern
      return Bit.ofText isQuoted
        ((Pattern.ofText (Bit.marked bits)).trim isAtEnd isLongest (value.getD []))
    | .fallback kind isForEmpty word =>
      let hasValue := value.any fun text => !(isForEmpty && text.isEmpty)
      match kind, hasValue with
      | .instead, true | .other, false =>
        let bits ← expand rounds context word
        return (if isQuoted then [.present] else []) ++ bits.map Bit.asValue
      | .instead, false => return Bit.ofText isQuoted []
      | .other, true | .assign, true | .complain, true =>
        return session.bitsOf isQuoted name (value.getD [])
      | .assign, false =>
        let text ← expandText rounds context word
        if !isName name.toList then fail (name.toList ++ ": bad variable name".toList)
        assign name (String.ofList text)
        return Bit.ofText isQuoted text
      | .complain, false =>
        let text ← expandText rounds context word
        fail (if text.isEmpty then unset ++ (if isForEmpty then " or null".toList else [])
          else name.toList ++ ": ".toList ++ text)
termination_by structural rounds => rounds

end

end FuzzBridge.Program.Shell
