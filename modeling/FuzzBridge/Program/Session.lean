import FuzzBridge.Program.Script
import FuzzBridge.Program.Signal
import FuzzBridge.Program.Utility.Basic

/-!
What a script works on: the files, what its shells have of their own, and the channels that they
read and write. The time that passes is what the programs sleep.
-/

namespace FuzzBridge.Program

/-- Where a channel leads: a text that is read from its start and written at its end, or the end of
a file. -/
inductive Stream where
  | closed
  | nowhere
  | buffer (index : Nat)
  | file (path : String)
  deriving DecidableEq

/-- A variable without a value has only been marked. -/
structure Binding where
  value : Option String
  isExported : Bool
  isConstant : Bool

structure Settings where
  endsOnFailure : Bool
  refusesUnset : Bool
  keepsPatterns : Bool
  isTraced : Bool

def Settings.start : Settings := ⟨false, false, false, false⟩

structure Job where
  number : Nat
  ending : Nat
  status : Nat

/-- What a shell has of its own, and the number that it goes by. What its functions have replaced is
put back when they return. -/
structure Process where
  number : Nat
  folder : String
  channels : Nat → Stream
  bindings : Table Binding
  functions : Table Command
  locals : List (String × Option Binding)
  name : String
  arguments : List String
  settings : Settings
  traps : List (Nat × String)
  jobs : List Job
  line : Nat

/-- The chunks of a buffer stand last first. -/
structure Session where
  storage : Storage
  runnable : List String
  buffers : Array (List (List Char))
  elapsed : Nat
  lastNumber : Nat
  status : Nat
  outputStatus : Option Nat
  process : Process

/-- Why commands are left out: the script is over, or so many loops or rounds of them are, or a
function is. -/
inductive Halt where
  | exited
  | killed (signal : Nat)
  | late
  | left (levels : Nat) (again : Bool)
  | returned

/-- A checked command is one whose failure does not end a script. -/
structure Context where
  limit : Nat
  isChecked : Bool
  loops : Nat

abbrev Shell := ExceptT Halt (StateM Session)

def Process.setChannel (process : Process) (channel : Nat) (stream : Stream) : Process :=
  { process with
    channels := fun other => if other = channel then stream else process.channels other }

namespace Session

def textOf (session : Session) (index : Nat) : List Char :=
  ((session.buffers[index]?).getD []).reverse.flatten

def setText (session : Session) (index : Nat) (text : List Char) : Session :=
  { session with buffers := session.buffers.setIfInBounds index [text] }

def input (session : Session) : List Char :=
  match session.process.channels 0 with
  | .buffer index => session.textOf index
  | _ => []

def setInput (session : Session) (text : List Char) : Session :=
  match session.process.channels 0 with
  | .buffer index => session.setText index text
  | _ => session

def desk (session : Session) : Desk :=
  ⟨session.storage, session.process.folder, session.runnable, session.input, [], 0⟩

def path (session : Session) (name : String) : String := session.desk.path name

def binding? (session : Session) (name : String) : Option String :=
  (session.process.bindings.find? name).bind (·.value)

def addTo (storage : Storage) (path : String) (bytes : Bytes) : Storage :=
  match storage.write path ((storage.read path).toOption.getD [] ++ bytes) with
  | .ok storage => storage
  | .error _ => storage

def emit (channel : Nat) (text : List Char) (session : Session) : Session :=
  match session.process.channels channel with
  | .buffer index =>
    { session with buffers := session.buffers.modify index (text :: ·) }
  | .file path => { session with storage := addTo session.storage path (bytesOf text) }
  | .closed | .nowhere => session

end Session

namespace Shell

def setStatus (status : Nat) : Shell Unit := modify fun session => { session with status }

def modifyProcess (update : Process → Process) : Shell Unit :=
  modify fun session => { session with process := update session.process }

def emit (channel : Nat) (text : List Char) : Shell Unit := modify (Session.emit channel text)

def newBuffer (text : List Char) : Shell Nat := do
  let session ← get
  set { session with buffers := session.buffers.push [text] }
  return session.buffers.size

def newNumber : Shell Nat := do
  let session ← get
  set { session with lastNumber := session.lastNumber + 1 }
  return session.lastNumber + 1

def complain (text : List Char) : Shell Unit := do
  let process := (← get).process
  emit 2 (process.name.toList ++ ": ".toList ++ Nat.toDigits 10 process.line ++ ": ".toList ++
    text ++ ['\n'])

def refuse (text : List Char) : Shell Unit := do
  complain text
  setStatus 2

def fail {α : Type} (text : List Char) : Shell α := do
  refuse text
  throw .exited

/-- Ends the script if the commands so far take longer than the limit. -/
def pass (limit delay : Nat) : Shell Unit := do
  let session ← get
  let elapsed := session.elapsed + delay
  set { session with elapsed }
  if limit < elapsed then throw .late

def perform (limit : Nat) (work : Work Nat) : Shell Unit := do
  let session ← get
  let (status, desk) := work.run session.desk
  let session := { session with storage := desk.storage, runnable := desk.runnable, status }
  let session := if desk.input.length = session.input.length then session
    else session.setInput desk.input
  set (desk.written.foldr (fun (isComplaint, text) session =>
    session.emit (if isComplaint then 2 else 1) text) session)
  pass limit desk.delay

def assign (name value : String) : Shell Unit := do
  let session ← get
  let old := (session.process.bindings.find? name).getD ⟨none, false, false⟩
  if old.isConstant then fail (name.toList ++ ": is read only".toList)
  else modifyProcess fun process => { process with
    bindings := process.bindings.insert name { old with value := some value } }

def putBack (process : Process) (name : String) (old : Option Binding) : Process :=
  { process with
    bindings := match old with
      | some binding => process.bindings.insert name binding
      | none => process.bindings.erase name }

/-- Commands that are over, or that leave what is around them, are done. -/
def contained (body : Shell Unit) : Shell Unit := fun session =>
  match body session with
  | (.ok _, session) | (.error .exited, session) | (.error (.left ..), session)
  | (.error .returned, session) => (.ok (), session)
  | halted => halted

def restoring (restore : Process → Process → Process) (body : Shell Unit) : Shell Unit :=
  fun session =>
    let (result, inner) := body session
    (result, { inner with process := restore session.process inner.process })

def keepingChannels : Shell Unit → Shell Unit :=
  restoring fun outer inner => { inner with channels := outer.channels }

/-- A failed command ends a script that has asked for it, unless the command is checked. -/
def check (context : Context) : Shell Unit := do
  let session ← get
  if session.process.settings.endsOnFailure && !context.isChecked && session.status ≠ 0 then
    throw .exited

end Shell

end FuzzBridge.Program
