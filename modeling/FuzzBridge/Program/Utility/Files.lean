import FuzzBridge.Program.Desk
import FuzzBridge.Program.Pattern

/-!
The programs that copy, move, remove, make and list files.
-/

namespace FuzzBridge.Program.Utility

open Work

def refuse (program attempt name : String) (cause : StorageFault) : Work Nat := do
  complainOf program [attempt.toList, [' ', '\''], name.toList, ['\'', ':', ' '], reasonOf cause]
  return 1

def baseName (path : String) : String :=
  match ((Path.pieces path).filter (· ≠ "")).getLast? with
  | some piece => piece
  | none => if Path.isAbsolute path then "/" else ""

def folderName (path : String) : String :=
  let trimmed := (path.toList.reverse.dropWhile (· = '/')).dropWhile (· ≠ '/')
  if trimmed.isEmpty then (if Path.isAbsolute path then "/" else ".")
  else
    let folder := trimmed.dropWhile (· = '/')
    if folder.isEmpty then "/" else String.ofList folder.reverse

/-- Where a file goes that is put at a name: into it, if that is a folder. -/
def targetOf (desk : Desk) (name target : String) : String :=
  if desk.isFolder target then Path.join target (baseName name) else target

def movedNodes (storage : Storage) (old new : String) : List (String × StoredNode) :=
  let below := old.toList ++ ['/']
  storage.nodes.entries.filterMap fun (key, node) =>
    if key = old then some (new, node)
    else if below.isPrefixOf key.toList then
      some (new ++ "/" ++ String.ofList (key.toList.drop below.length), node)
    else none

def insertAll (storage : Storage) (nodes : List (String × StoredNode)) : Storage :=
  { storage with
    nodes := nodes.foldl (fun table entry => table.insert entry.1 entry.2) storage.nodes }

def withoutTree (storage : Storage) (key : String) : Storage :=
  let below := key.toList ++ ['/']
  { storage with nodes := (storage.nodes.keys.filter fun other =>
    other = key || below.isPrefixOf other.toList).foldl Table.erase storage.nodes }

def copyOne (isDeep : Bool) (target name : String) : Work Nat := do
  let desk ← get
  let goal := targetOf desk name target
  if desk.isFolder name && !isNull name then
    if !isDeep then
      complainOf "cp" ["-r not specified; omitting directory '".toList, name.toList, ['\'']]
      return 1
    match desk.key? name, desk.key? goal with
    | some old, some new => do
      match ← change fun desk => desk.storage.ensureFolder (desk.path goal) with
      | .ok () =>
        modify fun desk => { desk with
          storage := insertAll desk.storage (movedNodes desk.storage old new) }
        return 0
      | .error cause => refuse "cp" "cannot create directory" goal cause
    | _, _ => refuse "cp" "cannot stat" name .notFound
  else match ← read name with
    | .error cause => refuse "cp" "cannot stat" name cause
    | .ok content =>
      if (desk.key? name).isSome && desk.key? name = desk.key? goal then
        complainOf "cp" [['\''], name.toList, "' and '".toList, goal.toList,
          "' are the same file".toList]
        return 1
      match ← write goal content with
      | .ok () => return 0
      | .error cause => refuse "cp" "cannot create regular file" goal cause

def moveOne (target name : String) : Work Nat := do
  let desk ← get
  let goal := targetOf desk name target
  match desk.storage.find (desk.path name), desk.key? name, desk.key? goal with
  | .error cause, _, _ => refuse "mv" "cannot stat" name cause
  | .ok (.file content), some old, new =>
    if new = some old then
      complainOf "mv" [['\''], name.toList, "' and '".toList, goal.toList,
        "' are the same file".toList]
      return 1
    match ← write goal (charsOf content) with
    | .ok () =>
      modify fun desk => { desk with storage := withoutTree desk.storage old }
      return 0
    | .error cause =>
      complainOf "mv" ["cannot move '".toList, name.toList, "' to '".toList, goal.toList,
        ['\'', ':', ' '], reasonOf cause]
      return 1
  | .ok .folder, some old, some new =>
    match ← change fun desk => desk.storage.ensureFolder (desk.path goal) with
    | .ok () =>
      modify fun desk => { desk with
        storage := insertAll (withoutTree desk.storage old) (movedNodes desk.storage old new) }
      return 0
    | .error cause => refuse "mv" "cannot move" name cause
  | .ok _, _, _ => refuse "mv" "cannot move" name .notFound

def adviseHelp (program : String) : Work Nat := do
  complain ("Try '".toList ++ program.toList ++ " --help' for more information.".toList)
  return 1

/-- Puts files at a target. Several go only into a folder. -/
def place (program : String) (one : String → String → Work Nat) (options : Options) :
    Work Nat := do
  match options.operands.reverse with
  | [] =>
    complainOf program ["missing file operand".toList]
    adviseHelp program
  | [name] =>
    match options.value? 't' with
    | some folder => one folder name
    | none =>
      complainOf program ["missing destination file operand after '".toList, name.toList, ['\'']]
      adviseHelp program
  | target :: names =>
    if 1 < names.length && !(← get).isFolder target then
      complainOf program ["target '".toList, target.toList, "': ".toList,
        reasonOf (if (← get).occupied target then .notADirectory else .notFound)]
      return 1
    else forAll (one target) names.reverse

def copy (arguments : List String) : Work Nat :=
  let options := Options.ofArguments ['t'] [("recursive", 'r'), ("force", 'f')] arguments
  place "cp" (copyOne (options.has 'r' || options.has 'R' || options.has 'a')) options

def move (arguments : List String) : Work Nat :=
  place "mv" moveOne (Options.ofArguments ['t'] [("force", 'f')] arguments)

def makeFolders (storage : Storage) (path : String) : Storage.Attempt Storage :=
  let pieces := Path.pieces path
  let ways := (List.range pieces.length).map fun count => "/".intercalate (pieces.take (count + 1))
  (ways.filter (· ≠ "")).foldlM Storage.ensureFolder storage

def makeFolder (isDeep : Bool) (name : String) : Work Nat := do
  let made ← change fun desk =>
    if isDeep then makeFolders desk.storage (desk.path name)
    else desk.storage.createFolder (desk.path name)
  match made with
  | .ok () => return 0
  | .error cause =>
    complainOf "mkdir" [encoded "cannot create directory ‘" |>.toList, name.toList,
      (encoded "’: ").toList, reasonOf cause]
    return 1

def makeAll (arguments : List String) : Work Nat := do
  let options := Options.ofArguments ['m'] [("parents", 'p'), ("mode", 'm')] arguments
  if options.operands.isEmpty then
    complainOf "mkdir" ["missing operand".toList]
    adviseHelp "mkdir"
  else forAll (makeFolder (options.has 'p')) options.operands

def removeOne (isForced isDeep isBare : Bool) (name : String) : Work Nat := do
  let desk ← get
  match desk.storage.find (desk.path name), desk.key? name with
  | .ok .folder, some key =>
    let isEmpty := (desk.storage.list (desk.path name)).toOption.getD [] |>.isEmpty
    if !(isDeep || (isBare && isEmpty)) then refuse "rm" "cannot remove" name .isADirectory
    else if key = "" then refuse "rm" "cannot remove" name .isADirectory
    else
      set { desk with storage := withoutTree desk.storage key }
      return 0
  | .ok (.file _), some key =>
    set { desk with storage := withoutTree desk.storage key }
    return 0
  | .ok _, none => refuse "rm" "cannot remove" name .isADirectory
  | .error cause, _ => if isForced then return 0 else refuse "rm" "cannot remove" name cause

def remove (arguments : List String) : Work Nat := do
  let options := Options.ofArguments [] [("force", 'f'), ("recursive", 'r'), ("dir", 'd')] arguments
  let isForced := options.has 'f'
  if options.operands.isEmpty && !isForced then
    complainOf "rm" ["missing operand".toList]
    adviseHelp "rm"
  else
    forAll (removeOne isForced (options.has 'r' || options.has 'R') (options.has 'd'))
      options.operands

def removeFolder (name : String) : Work Nat := do
  let desk ← get
  let refuse (reason : List Char) : Work Nat := do
    complainOf "rmdir" ["failed to remove '".toList, name.toList, ['\'', ':', ' '], reason]
    return 1
  match desk.storage.list (desk.path name), desk.key? name with
  | .ok [], some key =>
    if key = "" then refuse "Device or resource busy".toList
    else
      set { desk with storage := withoutTree desk.storage key }
      return 0
  | .ok _, _ => refuse "Directory not empty".toList
  | .error cause, _ => refuse (reasonOf cause)

def removeFolders (arguments : List String) : Work Nat := do
  let options := Options.ofArguments [] [("parents", 'p')] arguments
  if options.operands.isEmpty then
    complainOf "rmdir" ["missing operand".toList]
    adviseHelp "rmdir"
  else forAll removeFolder options.operands

def touchOne (isKept : Bool) (name : String) : Work Nat := do
  let desk ← get
  if desk.occupied name || isNull name || isKept then return 0
  match ← write name [] with
  | .ok () => return 0
  | .error cause => refuse "touch" "cannot touch" name cause

def touch (arguments : List String) : Work Nat := do
  let options := Options.ofArguments ['t', 'd', 'r'] [("no-create", 'c'), ("date", 'd')] arguments
  if options.operands.isEmpty then
    complainOf "touch" ["missing file operand".toList]
    adviseHelp "touch"
  else forAll (touchOne (options.has 'c')) options.operands

/-- Whether a mode lets a file be run, lets it be run no more, or says nothing of that. -/
def mode? (text : List Char) : Option Bool :=
  if text.all isOctalDigit then
    some ((text.reverse.take 3).any fun c => (c.toNat - '0'.toNat) % 2 = 1)
  else if text.contains 'x' then some (text.contains '+' || text.contains '=')
  else none
where
  isOctalDigit (c : Char) : Bool := '0' ≤ c && c ≤ '7'

def changeMode (arguments : List String) : Work Nat := do
  match arguments with
  | mode :: names => forAll (fun name => do
      let desk ← get
      match desk.key? name, desk.occupied name with
      | some key, true =>
        match mode? mode.toList with
        | some true => set { desk with runnable := key :: desk.runnable }
        | some false => set { desk with runnable := desk.runnable.filter (· ≠ key) }
        | none => pure ()
        return 0
      | _, _ => refuse "chmod" "cannot access" name .notFound) names
  | [] =>
    complainOf "chmod" ["missing operand".toList]
    adviseHelp "chmod"

def namesIn (desk : Desk) (name : String) : List (String × StoredNode) :=
  ((desk.storage.list (desk.path name)).toOption.getD []).map fun entry =>
    (encoded entry.1, entry.2)

def isHidden (name : String) : Bool := name.toList.head? = some '.'

def shownIn (options : Options) (name : String) : Work (List String) := do
  let names := (namesIn (← get) name).map (·.1)
  let names := if options.has 'a' || options.has 'A' then names else names.filter (!isHidden ·)
  let names := if options.has 'a' then [".", ".."] ++ names else names
  return if options.has 'r' then names.reverse else names

def list (arguments : List String) : Work Nat := do
  let options := Options.ofArguments [] [("all", 'a'), ("reverse", 'r')] arguments
  let operands := if options.operands.isEmpty then ["."] else options.operands
  let operands := operands.mergeSort fun left right =>
    if options.has 'r' then right ≤ left else left ≤ right
  let desk ← get
  let (found, missing) := operands.partition desk.occupied
  let (folders, files) := found.partition fun name => desk.isFolder name && !options.has 'd'
  let status ← forAll (fun name => do
    let _ ← refuse "ls" "cannot access" name
      (match desk.storage.find (desk.path name) with
        | .error cause => cause
        | .ok _ => .notFound)
    return 2) missing
  for name in files do sayLine name.toList
  for (name, position) in folders.zipIdx do
    if 1 < operands.length then
      if 0 < position || !files.isEmpty then say ['\n']
      sayLine (name.toList ++ [':'])
    for shown in ← shownIn options name do sayLine shown.toList
  return status

def walk (desk : Desk) : Nat → String → List (String × Bool)
  | 0, _ => []
  | rounds + 1, name =>
    let isFolder := desk.isFolder name
    (name, isFolder) :: (if isFolder then
      (namesIn desk name).flatMap fun entry => walk desk rounds (Path.join name entry.1)
    else [])

def isWanted : List String → String → Bool → Bool
  | "-name" :: pattern :: rest, name, isFolder =>
    (Pattern.ofText (pattern.toList.map fun c => (false, c))).suits (baseName name).toList &&
      isWanted rest name isFolder
  | "-type" :: kind :: rest, name, isFolder =>
    (if kind = "d" then isFolder else if kind = "f" then !isFolder else false) &&
      isWanted rest name isFolder
  | _ :: rest, name, isFolder => isWanted rest name isFolder
  | [], _, _ => true

def find (arguments : List String) : Work Nat := do
  let isTest (argument : String) : Bool := ['-', '!', '('].contains (argument.toList.headD ' ')
  let starts := arguments.takeWhile (!isTest ·)
  let tests := arguments.drop starts.length
  forAll (fun start => do
    let desk ← get
    if !desk.occupied start then
      let _ ← refuse "find" "" start .notFound
      return 1
    for (name, isFolder) in walk desk (desk.storage.nodes.size + 1) start do
      if isWanted tests name isFolder then sayLine name.toList
    return 0) (if starts.isEmpty then ["."] else starts)

def sayBaseName (arguments : List String) : Work Nat := do
  match arguments with
  | [path] =>
    sayLine (baseName path).toList
    return 0
  | [path, ending] =>
    let name := baseName path
    let isCut := name ≠ ending && name.endsWith ending
    sayLine (if isCut then name.toList.take (name.length - ending.length) else name.toList)
    return 0
  | _ =>
    complainOf "basename" ["missing operand".toList]
    adviseHelp "basename"

def sayFolderName (arguments : List String) : Work Nat := do
  if arguments.isEmpty then
    complainOf "dirname" ["missing operand".toList]
    adviseHelp "dirname"
  else
    for path in arguments do sayLine (folderName path).toList
    return 0

end FuzzBridge.Program.Utility
